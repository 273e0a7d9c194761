import NpsSdk.Lib.Splitting
import NpsSdk.Ncp.Transport

/-! What the two peers of an accepted handshake agree on: the encoding policy, which each
derives on its own, and the parameters that the capability frame carries. -/
namespace Nps.Ncp
open Nps.Core
open Wire (Bytes)

theorem point_not_digit (n : ℕ) : '.' ∉ Nat.toDigits 10 n := by
  intro member
  exact absurd (Json.toDigits_isDigit member) (by decide)

theorem parseU64_small {text : String} {n : ℕ} (parsed : parseU64 text = some n) : n < 2 ^ 64 := by
  unfold parseU64 at parsed
  dsimp only at parsed
  split_ifs at parsed with digits small
  cases parsed
  exact small

theorem parseU64_digits {n : ℕ} (small : n < 2 ^ 64) :
    parseU64 (String.ofList (Nat.toDigits 10 n)) = some n := by
  have digits : (Nat.toDigits 10 n).all Char.isDigit = true :=
    List.all_eq_true.mpr fun _ member => Json.toDigits_isDigit member
  have unsigned : dropPlus (Nat.toDigits 10 n) = Nat.toDigits 10 n := by
    unfold dropPlus
    split
    · rename_i rest same
      rw [same] at digits
      simp at digits
    · rfl
  unfold parseU64
  rw [String.toList_ofList, unsigned]
  simp only [ne_eq, Nat.toDigits_ne_nil, not_false_eq_true, digits, and_self, if_true,
    Nat.ofDigitChars_ten_toDigits, small]

theorem parseVersion_ok {text : String} {version : Version} (parsed : parseVersion text = some version) :
    (ofLex version).1 < 2 ^ 64 ∧ (ofLex version).2 < 2 ^ 64 := by
  unfold parseVersion at parsed
  split at parsed
  · obtain ⟨major, first, parsed⟩ := Option.bind_eq_some_iff.mp parsed
    obtain ⟨minor, second, parsed⟩ := Option.bind_eq_some_iff.mp parsed
    cases parsed
    exact ⟨parseU64_small first, parseU64_small second⟩
  · cases parsed

theorem parseVersion_text {version : Version}
    (small : (ofLex version).1 < 2 ^ 64 ∧ (ofLex version).2 < 2 ^ 64) :
    parseVersion version.text = some version := by
  have parts : Text.split '.' version.text = [String.ofList (Nat.toDigits 10 (ofLex version).1),
      String.ofList (Nat.toDigits 10 (ofLex version).2)] := by
    rw [Text.split, Version.text, String.toList_ofList,
      Text.splitChars_append, Text.splitChars_plain (point_not_digit _),
      Text.splitChars_plain (point_not_digit _)]
    rfl
  simp only [parseVersion, parts, parseU64_digits small.1, parseU64_digits small.2]
  rfl

section Negotiation
variable {server : NcpHandshakeProfile} {client : HelloFrame}

def Version.In (version least most : Version) : Prop := least ≤ version ∧ version ≤ most

/-- The version taken is in the range of each peer. -/
theorem overlapMax_in {version : Version} (overlap : overlapMax server client = some version) :
    ∃ serverMin serverMax clientMin clientMax,
      parseVersion server.minVersion = some serverMin ∧
      parseVersion server.npsVersion = some serverMax ∧
      parseVersion (client.minVersion.getD client.npsVersion) = some clientMin ∧
      parseVersion client.npsVersion = some clientMax ∧
      version.In serverMin serverMax ∧ version.In clientMin clientMax ∧
      parseVersion version.text = some version := by
  obtain ⟨⟨serverMin, serverMax, clientMin, clientMax⟩, ranges, overlap⟩ :=
    Option.bind_eq_some_iff.mp overlap
  obtain ⟨_, first, ranges⟩ := Option.bind_eq_some_iff.mp ranges
  obtain ⟨_, second, ranges⟩ := Option.bind_eq_some_iff.mp ranges
  obtain ⟨_, third, ranges⟩ := Option.bind_eq_some_iff.mp ranges
  obtain ⟨_, fourth, ranges⟩ := Option.bind_eq_some_iff.mp ranges
  cases ranges
  dsimp only at overlap
  split_ifs at overlap with empty disjoint
  cases overlap
  have meet : max serverMin clientMin ≤ min serverMax clientMax := not_lt.mp disjoint
  have bounded : (ofLex (min serverMax clientMax)).1 < 2 ^ 64 ∧
      (ofLex (min serverMax clientMax)).2 < 2 ^ 64 := by
    rcases min_choice serverMax clientMax with least | least
    · rw [least]
      exact parseVersion_ok second
    · rw [least]
      exact parseVersion_ok fourth
  exact ⟨_, _, _, _, first, second, third, fourth,
    ⟨(le_max_left _ _).trans meet, min_le_left _ _⟩,
    ⟨(le_max_right _ _).trans meet, min_le_right _ _⟩, parseVersion_text bounded⟩

theorem stableEncoding_in {stable : String} (found : stableEncoding server client = some stable) :
    stable ∈ client.supportedEncodings ∧ stable ∈ server.supportedEncodings ∧
      (stable = "msgpack" ∨ stable = "json") := by
  have held := List.find?_some found
  simp only [Bool.and_eq_true, Bool.or_eq_true, beq_iff_eq, List.contains_iff_mem] at held
  exact ⟨List.mem_of_find?_eq_some found, held.2, held.1⟩

theorem commonProtocols_in {token : String} (common : token ∈ commonProtocols server client) :
    token ∈ client.supportedProtocols ∧ token ∈ server.supportedProtocols := by
  rw [commonProtocols, List.mem_eraseDups, List.mem_filter] at common
  exact ⟨common.1, List.contains_iff_mem.mp common.2⟩

/-- All that an acceptance says. -/
theorem negotiate_accept (accepted : (negotiateHandshake server client).action = .accept) :
    ∃ version stable, overlapMax server client = some version ∧
      stableEncoding server client = some stable ∧ "ncp" ∈ commonProtocols server client ∧
      negotiateHandshake server client =
        { action := .accept
          sessionVersion := some version.text
          negotiatedEncoding := some stable
          enabledEncodings := some (stable ::
            if server.supportedEncodings.contains "binary_vector.v1" &&
              client.supportedEncodings.contains "binary_vector.v1" then ["binary_vector.v1"]
            else [])
          supportedProtocols := some (commonProtocols server client)
          maxFramePayload := some (min server.maxFramePayload client.maxFramePayload)
          extSupport := some (server.extSupport && client.extSupport)
          maxConcurrentStreams :=
            some (min server.maxConcurrentStreams client.maxConcurrentStreams) } := by
  unfold negotiateHandshake at accepted ⊢
  cases overlap : overlapMax server client with
  | none =>
    rw [overlap] at accepted
    cases accepted
  | some version =>
    cases stable : stableEncoding server client with
    | none =>
      simp only [overlap, stable] at accepted
      cases accepted
    | some token =>
      simp only [overlap, stable] at accepted ⊢
      split at accepted
      · cases accepted
      · rename_i passed
        have ncp : (commonProtocols server client).contains "ncp" = true := by
          by_contra missing
          exact passed (.inl missing)
        rw [if_neg passed]
        exact ⟨version, token, rfl, rfl, List.contains_iff_mem.mp ncp, rfl⟩

end Negotiation

section Transfers
variable {serializers : Serializers} {deserializers : Deserializers}
variable {s t : Stream} {rest : Bytes}

theorem readExact_front {front : Bytes} {count : ℕ} (arrives : s.incoming = front ++ rest)
    (size : front.length = count) :
    readExact count s = (.ok front, { s with incoming := rest }) := by
  subst size
  simp [readExact, arrives]

theorem new_toBytes (type : FrameType) (tier : EncodingTier) (final : Bool) (length : ℕ) :
    ∃ tail, (FrameHeader.new type tier final length).toBytes =
        [type.asU8, (FrameHeader.new type tier final length).flags] ++ tail ∧
      tail.length = headerRest (FrameHeader.new type tier final length).flags := by
  have ext : FrameHeader.extBit (FrameHeader.new type tier final length).flags =
      (FrameHeader.new type tier final length).isExtended := FrameHeader.extBit_flagsFor _ _ _
  have second : headerRest (FrameHeader.new type tier final length).flags =
      if (FrameHeader.new type tier final length).isExtended then 6 else 2 := by
    rw [← ext]
    rfl
  unfold FrameHeader.toBytes
  split
  · rename_i extended
    exact ⟨_, rfl, by rw [second, if_pos extended]; rfl⟩
  · rename_i short
    exact ⟨_, rfl, by rw [second, if_neg short]; rfl⟩

/-- A header that the codec wrote is read back, and only it. -/
theorem readFrameHeader_front {type : FrameType} {tier : EncodingTier} {final : Bool} {length : ℕ}
    (arrives : s.incoming = (FrameHeader.new type tier final length).toBytes ++ rest) :
    readFrameHeader s = (.ok ({ FrameHeader.new type tier final length with
        payloadLength := if length > 0xFFFF then length % 2 ^ 32 else length },
      (FrameHeader.new type tier final length).toBytes), { s with incoming := rest }) := by
  have parsed := FrameHeader.parse_toBytes_new type tier final length []
  obtain ⟨tail, bytes, size⟩ := new_toBytes type tier final length
  rw [List.append_nil] at parsed
  generalize FrameHeader.new type tier final length = header at *
  rw [bytes, List.append_assoc] at arrives
  have front := readExact_front arrives (show _ = 2 from rfl)
  have back : readExact (headerRest ([type.asU8, header.flags].getD 1 0))
      { s with incoming := tail ++ rest } = (.ok tail, { s with incoming := rest }) :=
    readExact_front rfl size
  simp only [readFrameHeader]
  rw [Transfer.ok_bind front, Transfer.ok_bind back, ← bytes, parsed]
  rfl

theorem orNps_ok {α : Type} {transfer : Transfer NpsError α} {value : α} :
    orNps transfer s = (.ok value, t) ↔ transfer s = (.ok value, t) := by
  unfold orNps
  cases transfer s with
  | mk result t' =>
    cases result with
    | ok found =>
      constructor
      · rintro ⟨⟩
        rfl
      · rintro ⟨⟩
        rfl
    | error e =>
      constructor
      · intro other
        cases other
      · intro other
        cases other

theorem lift_ok {ε α : Type} {result : Except ε α} {value : α} :
    lift result s = (.ok value, t) ↔ result = .ok value ∧ s = t := Prod.mk.injEq _ _ _ _ ▸ Iff.rfl

theorem readExact_ok {count : ℕ} {bytes : Bytes} (read : readExact count s = (.ok bytes, t)) :
    bytes = s.incoming.take count ∧ count ≤ s.incoming.length := by
  unfold readExact at read
  split at read
  · cases read
    exact ⟨rfl, ‹_›⟩
  · cases read

def Uncut (deserializers : Deserializers) (tier : EncodingTier) (payload : Bytes) : Prop :=
  ∀ front, front <+: payload → front ≠ payload → ∀ header : FrameHeader,
    header.encodingTier = tier → ∀ dict, decodeHandshakePayload deserializers header front ≠ .ok dict

/-- The capability frame a server wrote makes the session of the client that it reaches. -/
theorem receiveCaps_ok {tier : EncodingTier} {payload : Bytes} {session : NcpSession}
    (uncut : Uncut deserializers tier payload)
    (arrives : s.incoming =
      (FrameHeader.new .caps tier true payload.length).toBytes ++ payload ++ rest)
    (connected : receiveCaps deserializers s = (.ok session, t)) :
    ∃ header : FrameHeader, header.encodingTier = tier ∧
      ∃ dict caps, decodeHandshakePayload deserializers header payload = .ok dict ∧
        CapsFrame.fromDict dict = .ok caps ∧
        session = ⟨caps, .fromEnabledEncodings tier caps.enabledEncodings⟩ := by
  rw [List.append_assoc] at arrives
  have first := readFrameHeader_front arrives
  obtain ⟨⟨header, raw⟩, _, read, connected⟩ := Transfer.bind_ok.mp connected
  rw [orNps_ok, first] at read
  cases read
  have tiered := FrameHeader.encodingTier_new .caps tier true payload.length
  generalize headed : ({ FrameHeader.new .caps tier true payload.length with
    payloadLength := if payload.length > 0xFFFF then payload.length % 2 ^ 32
      else payload.length } : FrameHeader) = header at connected
  have type : header.frameType = .caps := headed ▸ rfl
  have tier' : header.encodingTier = tier := headed ▸ tiered
  have length : header.payloadLength ≤ payload.length := by
    rw [← headed]
    dsimp only
    split
    · exact Nat.mod_le _ _
    · exact le_rfl
  obtain ⟨body, _, read, connected⟩ := Transfer.bind_ok.mp connected
  obtain ⟨front, -⟩ := readExact_ok (orNps_ok.mp read)
  rw [List.take_append_of_le_length length] at front
  simp only [type, reduceCtorEq, if_false, ne_eq, not_true_eq_false] at connected
  obtain ⟨dict, _, second, connected⟩ := Transfer.bind_ok.mp connected
  obtain ⟨decoded, -⟩ := lift_ok.mp (orNps_ok.mp second)
  obtain ⟨caps, _, third, connected⟩ := Transfer.bind_ok.mp connected
  obtain ⟨made, -⟩ := lift_ok.mp (orNps_ok.mp third)
  cases connected
  have whole : body = payload := by
    by_contra cut
    exact uncut body (front ▸ List.take_prefix _ _) cut header tier' dict decoded
  exact ⟨header, tier', dict, caps, whole ▸ decoded, made, by rw [tier']⟩

theorem writeAll_ok {bytes : Bytes} {u : Unit} (written : writeAll bytes s = (.ok u, t)) :
    t.outgoing = s.outgoing ++ bytes ∧ t.incoming = s.incoming := by
  unfold writeAll at written
  split at written
  · cases written
    exact ⟨rfl, rfl⟩
  · cases written

theorem writeAll_fits {bytes : Bytes} {u : Unit} (written : writeAll bytes s = (.ok u, t)) :
    bytes.length ≤ s.room := by
  unfold writeAll at written
  split at written
  · assumption
  · cases written

theorem writeAll_room {bytes : Bytes} (room : bytes.length ≤ s.room) : writeAll bytes s =
    (.ok (), { s with outgoing := s.outgoing ++ bytes, room := s.room - bytes.length }) :=
  if_pos room

theorem lift_run {ε α : Type} (value : α) : (lift (.ok value) : Transfer ε α) s = (.ok value, s) := rfl

/-- A capability frame that arrives whole and is decoded makes a session. -/
theorem receiveCaps_front {tier : EncodingTier} {payload : Bytes} {dict : FrameDict}
    {caps : CapsFrame} (short : payload.length < 2 ^ 32)
    (arrives : s.incoming =
      (FrameHeader.new .caps tier true payload.length).toBytes ++ payload ++ rest)
    (decodes : ∀ header : FrameHeader, header.encodingTier = tier →
      decodeHandshakePayload deserializers header payload = .ok dict)
    (made : CapsFrame.fromDict dict = .ok caps) :
    receiveCaps deserializers s =
      (.ok ⟨caps, .fromEnabledEncodings tier caps.enabledEncodings⟩,
        { s with incoming := rest }) := by
  rw [List.append_assoc] at arrives
  have length : (if payload.length > 0xFFFF then payload.length % 2 ^ 32 else payload.length) =
      payload.length := by
    split
    · exact Nat.mod_eq_of_lt short
    · rfl
  have first := readFrameHeader_front arrives
  rw [length] at first
  change readFrameHeader s = (.ok (FrameHeader.new .caps tier true payload.length, _), _) at first
  have tiered := FrameHeader.encodingTier_new .caps tier true payload.length
  have type : (FrameHeader.new .caps tier true payload.length).frameType = .caps := rfl
  have announced : (FrameHeader.new .caps tier true payload.length).payloadLength =
      payload.length := rfl
  generalize FrameHeader.new .caps tier true payload.length = header at *
  have body : readExact header.payloadLength { s with incoming := payload ++ rest } =
      (.ok payload, { s with incoming := rest }) := readExact_front rfl announced.symm
  simp only [receiveCaps]
  rw [Transfer.ok_bind (orNps_ok.mpr first), Transfer.ok_bind (orNps_ok.mpr body)]
  simp only [type, reduceCtorEq, if_false, ne_eq, not_true_eq_false, tiered]
  rw [decodes header tiered, Transfer.ok_bind (orNps_ok.mpr (lift_run dict)), made,
    Transfer.ok_bind (orNps_ok.mpr (lift_run caps))]
  rfl

theorem connectDetailed_ok {hello : HelloFrame} {session : NcpSession}
    (connected : connectDetailed serializers deserializers hello s = (.ok session, t)) :
    ∃ s', s'.incoming = s.incoming ∧ receiveCaps deserializers s' = (.ok session, t) := by
  obtain ⟨_, s₁, opening, received⟩ := Transfer.bind_ok.mp connected
  obtain ⟨_, _, first, opening⟩ := Transfer.bind_ok.mp opening
  obtain ⟨_, _, second, opening⟩ := Transfer.bind_ok.mp opening
  obtain ⟨-, same⟩ := lift_ok.mp (orNps_ok.mp second)
  subst same
  have before := (writeAll_ok (orNps_ok.mp first)).2
  have after := (writeAll_ok (orNps_ok.mp opening)).2
  exact ⟨s₁, after.trans before, received⟩

/-- A server's session is made of its own decision, which it has written to the client. -/
theorem accept_ok {connection : NcpServerConnection} {caps : CapsFrame} {session : NcpSession}
    (accepted : connection.accept serializers caps s = (.ok session, t)) :
    ∃ decision, negotiateHandshake connection.handshakeProfile connection.clientHello = decision ∧
      decision.action = .accept ∧
      session = ⟨NcpServerConnection.negotiated caps decision,
        NcpServerConnection.serverPolicy decision⟩ ∧
      ∃ payload, NpsFrameCodec.encodePayload serializers session.serverCaps.toDict
          session.policy.defaultTier = .ok payload ∧
        t.outgoing = s.outgoing ++
          ((FrameHeader.new .caps session.policy.defaultTier true payload.length).toBytes ++
            payload) := by
  simp only [NcpServerConnection.accept] at accepted
  split at accepted
  · obtain ⟨_, _, -, accepted⟩ := Transfer.bind_ok.mp accepted
    cases accepted
  · rename_i action
    obtain ⟨wire, _, first, accepted⟩ := Transfer.bind_ok.mp accepted
    obtain ⟨encoded, same⟩ := lift_ok.mp first
    subst same
    obtain ⟨_, _, written, accepted⟩ := Transfer.bind_ok.mp accepted
    have output := (writeAll_ok written).1
    obtain ⟨payload, serialized, made⟩ := Outcome.bind_ok.mp encoded
    cases accepted
    cases made
    exact ⟨_, rfl, not_not.mp action, rfl, payload, serialized, output⟩

/-- Both textual serializers read back what they wrote for this dictionary, and nothing shorter. -/
structure ReadsText (serializers : Serializers) (deserializers : Deserializers)
    (dict : FrameDict) : Prop where
  json : ReadsJson serializers deserializers dict
  msgpack : ReadsMsgpack serializers deserializers dict
  refusesJson : RefusesTruncatedJson serializers deserializers dict
  refusesMsgpack : RefusesTruncated serializers deserializers dict

/-- A textual payload is decoded whole and not when it is cut short. -/
theorem decode_textual {dict : FrameDict} {tier : EncodingTier} {payload : Bytes}
    (textual : tier = .json ∨ tier = .msgPack)
    (reads : ReadsText serializers deserializers dict)
    (encoded : NpsFrameCodec.encodePayload serializers dict tier = .ok payload) :
    Uncut deserializers tier payload ∧ ∀ header : FrameHeader, header.encodingTier = tier →
      decodeHandshakePayload deserializers header payload = .ok dict := by
  rcases textual with rfl | rfl
  · have written := Outcome.mapError_ok.mp encoded
    refine ⟨fun front shorter cut header tiered other decoded => ?_, fun header tiered => ?_⟩
    · obtain ⟨e, refused⟩ := reads.refusesJson payload front written shorter cut
      simp only [decodeHandshakePayload, tiered, decodeJson, refused] at decoded
      cases decoded
    · simp only [decodeHandshakePayload, tiered, decodeJson, reads.json payload written]
      rfl
  · have written := Outcome.mapError_ok.mp encoded
    refine ⟨fun front shorter cut header tiered other decoded => ?_, fun header tiered => ?_⟩
    · obtain ⟨e, refused⟩ := reads.refusesMsgpack payload front written shorter cut
      simp only [decodeHandshakePayload, tiered, decodeMsgpack, refused] at decoded
      cases decoded
    · simp only [decodeHandshakePayload, tiered, decodeMsgpack, reads.msgpack payload written]
      rfl

theorem serverPolicy_textual (decision : NcpHandshakeDecision) :
    (NcpServerConnection.serverPolicy decision).defaultTier = .json ∨
      (NcpServerConnection.serverPolicy decision).defaultTier = .msgPack := by
  simp only [NcpServerConnection.serverPolicy]
  split
  · exact .inr rfl
  · exact .inl rfl

end Transfers

/-- What a client and a server know of each other after the handshake. -/
structure Agreement (profile : NcpHandshakeProfile) (hello : HelloFrame)
    (server client : NcpSession) : Prop where
  policy : client.policy = server.policy
  version : ∃ text version serverMin serverMax clientMin clientMax,
    client.serverCaps.sessionVersion = some text ∧ parseVersion text = some version ∧
    parseVersion profile.minVersion = some serverMin ∧
    parseVersion profile.npsVersion = some serverMax ∧
    parseVersion (hello.minVersion.getD hello.npsVersion) = some clientMin ∧
    parseVersion hello.npsVersion = some clientMax ∧
    version.In serverMin serverMax ∧ version.In clientMin clientMax
  payload : ∃ limit, client.serverCaps.maxFramePayload = some limit ∧
    limit ≤ profile.maxFramePayload ∧ limit ≤ hello.maxFramePayload
  streams : ∃ limit, client.serverCaps.maxConcurrentStreams = some limit ∧
    limit ≤ profile.maxConcurrentStreams ∧ limit ≤ hello.maxConcurrentStreams
  protocols : ∃ tokens, client.serverCaps.supportedProtocols = some tokens ∧ "ncp" ∈ tokens ∧
    ∀ token ∈ tokens, token ∈ profile.supportedProtocols ∧ token ∈ hello.supportedProtocols
  encodings : ∃ stable tokens, client.serverCaps.negotiatedEncoding = some stable ∧
    client.serverCaps.enabledEncodings = some tokens ∧ stable ∈ tokens ∧
    ∀ token ∈ tokens, token ∈ profile.supportedEncodings ∧ token ∈ hello.supportedEncodings
  /-- The server keeps the same parameters. -/
  kept : server.serverCaps.sessionVersion = client.serverCaps.sessionVersion ∧
    server.serverCaps.maxFramePayload = client.serverCaps.maxFramePayload ∧
    server.serverCaps.maxConcurrentStreams = client.serverCaps.maxConcurrentStreams ∧
    server.serverCaps.extSupport = client.serverCaps.extSupport ∧
    server.serverCaps.supportedProtocols = client.serverCaps.supportedProtocols ∧
    server.serverCaps.negotiatedEncoding = client.serverCaps.negotiatedEncoding ∧
    server.serverCaps.enabledEncodings = client.serverCaps.enabledEncodings

section Handshake
variable {serializers : Serializers} {deserializers : Deserializers}
variable {profile : NcpHandshakeProfile} {hello : HelloFrame}

theorem u64_min_le (a b : UInt64) : min a b ≤ a ∧ min a b ≤ b := by
  change (if a ≤ b then a else b) ≤ a ∧ (if a ≤ b then a else b) ≤ b
  split
  · exact ⟨UInt64.le_refl a, ‹_›⟩
  · rename_i more
    exact ⟨UInt64.le_of_lt (UInt64.not_le.mp more), UInt64.le_refl b⟩

/-- What a server decides to accept is what both peers can agree on. -/
theorem agreement_of_accept (caps : CapsFrame)
    (accepted : (negotiateHandshake profile hello).action = .accept) :
    Agreement profile hello
      ⟨NcpServerConnection.negotiated caps (negotiateHandshake profile hello),
        NcpServerConnection.serverPolicy (negotiateHandshake profile hello)⟩
      ⟨{ NcpServerConnection.negotiated caps (negotiateHandshake profile hello) with
          count := (NcpServerConnection.negotiated caps (negotiateHandshake profile hello)).counted },
        .fromEnabledEncodings
          (NcpServerConnection.serverPolicy (negotiateHandshake profile hello)).defaultTier
          (NcpServerConnection.negotiated caps
            (negotiateHandshake profile hello)).enabledEncodings⟩ := by
  obtain ⟨version, stable, overlap, chosen, ncp, whole⟩ := negotiate_accept accepted
  obtain ⟨serverMin, serverMax, clientMin, clientMax, first, second, third, fourth, inServer,
    inClient, named⟩ := overlapMax_in overlap
  obtain ⟨offered, supported, -⟩ := stableEncoding_in chosen
  rw [whole]
  refine ⟨rfl, ?_, ⟨_, rfl, u64_min_le _ _⟩, ⟨_, rfl, u64_min_le _ _⟩, ?_, ?_,
    rfl, rfl, rfl, rfl, rfl, rfl, rfl⟩
  · exact ⟨_, version, _, _, _, _, rfl, named, first, second, third, fourth, inServer, inClient⟩
  · exact ⟨_, rfl, ncp, fun token common => (commonProtocols_in common).symm⟩
  · refine ⟨stable, _, rfl, rfl, List.mem_cons_self, fun token member => ?_⟩
    rcases List.mem_cons.mp member with rfl | extension
    · exact ⟨supported, offered⟩
    · split at extension
      · rename_i both
        rw [Bool.and_eq_true, List.contains_iff_mem, List.contains_iff_mem] at both
        rw [List.mem_singleton] at extension
        exact extension ▸ both
      · cases extension

/-- The server's negotiation accepts the hello, and what it wrote reaches the client, which
accepts it. -/
def Handshake (serializers : Serializers) (deserializers : Deserializers)
    (profile : NcpHandshakeProfile) (hello : HelloFrame) (server client : NcpSession) : Prop :=
  ∃ (caps : CapsFrame) (s t s' t' : Stream) (wire rest : Bytes),
    NcpServerConnection.accept serializers ⟨hello, profile⟩ caps s = (.ok server, t) ∧
    t.outgoing = s.outgoing ++ wire ∧ s'.incoming = wire ++ rest ∧
    connectDetailed serializers deserializers hello s' = (.ok client, t')

/-- Every accepted negotiation is completed by a handshake, when its frames can be written and
the capability frame is below 4 GiB. -/
theorem Handshake.of_accept {caps : CapsFrame} {helloWire payload : Bytes}
    (accepted : (negotiateHandshake profile hello).action = .accept)
    (same : caps = NcpServerConnection.negotiated caps (negotiateHandshake profile hello))
    (greets : encodeFrame serializers .hello hello.toDict .json = .ok helloWire)
    (encoded : NpsFrameCodec.encodePayload serializers caps.toDict
      (NcpServerConnection.serverPolicy (negotiateHandshake profile hello)).defaultTier =
        .ok payload)
    (short : payload.length < 2 ^ 32)
    (reads : ReadsText serializers deserializers caps.toDict) :
    Handshake serializers deserializers profile hello
      ⟨caps, NcpServerConnection.serverPolicy (negotiateHandshake profile hello)⟩
      ⟨{ caps with count := caps.counted }, .fromEnabledEncodings
        (NcpServerConnection.serverPolicy (negotiateHandshake profile hello)).defaultTier
        caps.enabledEncodings⟩ := by
  set policy := NcpServerConnection.serverPolicy (negotiateHandshake profile hello) with policy_eq
  set wire := (FrameHeader.new .caps policy.defaultTier true payload.length).toBytes ++ payload
    with wire_eq
  have written : encodeFrame serializers .caps caps.toDict policy.defaultTier = .ok wire := by
    simp only [encodeFrame, encoded]
    rfl
  obtain ⟨-, decodes⟩ := decode_textual (serverPolicy_textual _) reads encoded
  have accepts : NcpServerConnection.accept serializers ⟨hello, profile⟩ caps
      { incoming := [], room := wire.length } =
        (.ok ⟨caps, policy⟩, { incoming := [], outgoing := [] ++ wire, room := 0 }) := by
    have wrote := @writeAll_room { incoming := [], room := wire.length } wire le_rfl
    rw [Nat.sub_self] at wrote
    simp only [NcpServerConnection.accept, accepted, ne_eq, not_true_eq_false, if_false, ← same,
      ← policy_eq, written]
    rw [Transfer.ok_bind (lift_run wire), Transfer.ok_bind wrote]
    rfl
  have greeted : sendHello serializers hello
      { incoming := wire ++ [], room := preamble.length + helloWire.length } =
        (.ok (), { incoming := wire ++ [], outgoing := [] ++ preamble ++ helloWire, room := 0 }) := by
    have first := @writeAll_room
      { incoming := wire ++ [], room := preamble.length + helloWire.length } preamble (by simp)
    have second := @writeAll_room
      { incoming := wire ++ [], outgoing := [] ++ preamble, room := helloWire.length } helloWire le_rfl
    rw [Nat.add_sub_cancel_left] at first
    rw [Nat.sub_self] at second
    simp only [sendHello, greets]
    rw [Transfer.ok_bind (orNps_ok.mpr first), Transfer.ok_bind (orNps_ok.mpr (lift_run helloWire))]
    exact orNps_ok.mpr second
  have connects : connectDetailed serializers deserializers hello
      { incoming := wire ++ [], room := preamble.length + helloWire.length } =
        (.ok ⟨{ caps with count := caps.counted }, .fromEnabledEncodings policy.defaultTier
          caps.enabledEncodings⟩,
          { incoming := [], outgoing := [] ++ preamble ++ helloWire, room := 0 }) := by
    rw [connectDetailed, Transfer.ok_bind greeted]
    exact receiveCaps_front short rfl decodes caps.fromDict_toDict
  exact ⟨caps, _, _, _, _, wire, [], accepts, rfl, rfl, connects⟩

/-- The two sessions are made of one decision. -/
theorem Handshake.sessions {server client : NcpSession}
    (handshake : Handshake serializers deserializers profile hello server client)
    (reads : ReadsText serializers deserializers server.serverCaps.toDict) :
    (negotiateHandshake profile hello).action = .accept ∧ ∃ caps,
      caps = NcpServerConnection.negotiated caps (negotiateHandshake profile hello) ∧
      server = ⟨caps, NcpServerConnection.serverPolicy (negotiateHandshake profile hello)⟩ ∧
      client = ⟨{ caps with count := caps.counted }, .fromEnabledEncodings
        (NcpServerConnection.serverPolicy (negotiateHandshake profile hello)).defaultTier
        caps.enabledEncodings⟩ := by
  obtain ⟨caps, s, t, s', t', wire, rest, accepted, sent, arrives, connected⟩ := handshake
  obtain ⟨decision, negotiated, action, rfl, payload, encoded, output⟩ := accept_ok accepted
  have same : wire = _ := List.append_cancel_left (sent.symm.trans output)
  obtain ⟨s₁, incoming, received⟩ := connectDetailed_ok connected
  obtain ⟨uncut, decodes⟩ := decode_textual (serverPolicy_textual decision) reads encoded
  rw [arrives, same] at incoming
  obtain ⟨header, tiered, dict, received', decoded, made, rfl⟩ :=
    receiveCaps_ok uncut incoming received
  rw [decodes header tiered] at decoded
  cases decoded
  rw [CapsFrame.fromDict_toDict] at made
  cases made
  subst negotiated
  exact ⟨action, _, rfl, rfl, rfl⟩

/-- An accepted handshake leaves both peers with one policy and parameters that both support,
whatever their versions, encodings, protocols and limits were. -/
theorem handshake_agreement {server client : NcpSession}
    (handshake : Handshake serializers deserializers profile hello server client)
    (reads : ReadsText serializers deserializers server.serverCaps.toDict) :
    Agreement profile hello server client := by
  obtain ⟨accepted, caps, same, rfl, rfl⟩ := handshake.sessions reads
  have agreed := agreement_of_accept caps accepted
  rw [← same] at agreed
  exact agreed

end Handshake

def jsonHello : HelloFrame where
  npsVersion := "0.11"
  supportedEncodings := ["json"]
  supportedProtocols := ["ncp"]

def jsonCaps : CapsFrame := NcpServerConnection.negotiated {} (negotiateHandshake {} jsonHello)

def jsonCapsMsgpack : Bytes :=
  [0x87, 0xB1] ++ Text.utf8 "enabled_encodings" ++ [0x91, 0xA4] ++ Text.utf8 "json" ++
  [0xAB] ++ Text.utf8 "ext_support" ++ [0xC2] ++
  [0xB6] ++ Text.utf8 "max_concurrent_streams" ++ [0x20] ++
  [0xB1] ++ Text.utf8 "max_frame_payload" ++ [0xCD, 0xFF, 0xFF] ++
  [0xB3] ++ Text.utf8 "negotiated_encoding" ++ [0xA4] ++ Text.utf8 "json" ++
  [0xAF] ++ Text.utf8 "session_version" ++ [0xA4] ++ Text.utf8 "0.11" ++
  [0xB3] ++ Text.utf8 "supported_protocols" ++ [0x91, 0xA3] ++ Text.utf8 "ncp"

def jsonServer : NcpSession := ⟨jsonCaps, .mk .json false⟩

theorem readsText_table (msgpack : Bytes) (dict : FrameDict) :
    ReadsText (writes msgpack) (readsBack msgpack dict) dict where
  json := readsJson_table msgpack dict
  msgpack := readsMsgpack_table msgpack dict
  refusesJson := by
    rintro _ front ⟨⟩ - cut
    exact ⟨_, if_neg cut⟩
  refusesMsgpack := refusesTruncated_table msgpack dict

theorem handshake_jsonHello : Handshake (writes jsonCapsMsgpack)
    (readsBack jsonCapsMsgpack jsonCaps.toDict) {} jsonHello jsonServer jsonServer := by
  refine .of_accept rfl rfl rfl rfl ?_ (readsText_table _ _)
  rw [utf8_text]
  decide +kernel

/-- The default server and a client that has JSON only agree. -/
theorem agreement_jsonHello : Agreement {} jsonHello jsonServer jsonServer :=
  handshake_agreement handshake_jsonHello (readsText_table _ _)

end Nps.Ncp
