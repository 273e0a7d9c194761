import NpsSdk.Ncp.Agreement
import Mathlib.Data.List.GetD

/-! Which frames pass over an established session. The negotiated limits are part of its record,
and nothing else depends on them. -/
namespace Nps.Ncp
open Nps.Core
open Wire (Bytes)

inductive Call where
  | send (frameType : FrameType) (dict : FrameDict) (tier : EncodingTier)
  | recv

structure Passed where
  sent : Bool
  wire : Bytes

namespace Passed

def headerSize (frame : Passed) : ℕ := 2 + headerRest (frame.wire.getD 1 0)

def payloadLength (frame : Passed) : ℕ := frame.wire.length - frame.headerSize

def isExtended (frame : Passed) : Bool := FrameHeader.extBit (frame.wire.getD 1 0)

/-- The frame respects the limits that the capabilities tell. -/
structure Within (caps : CapsFrame) (frame : Passed) : Prop where
  payload : ∀ limit, caps.maxFramePayload = some limit → frame.payloadLength ≤ limit.toNat
  header : frame.sent = true → caps.extSupport = some false → frame.isExtended = false

end Passed

section Runs
variable (serializers : Serializers) (deserializers : Deserializers) (session : NcpSession)

def Call.run : Call → Stream → List Passed × Stream
  | .send frameType dict tier, s =>
    match session.sendFrame serializers frameType dict tier s with
    | (.ok _, s') => ([⟨true, s'.outgoing.drop s.outgoing.length⟩], s')
    | (.error _, s') => ([], s')
  | .recv, s =>
    match session.recvFrame deserializers s with
    | (.ok (some _), s') =>
      ([⟨false, s.incoming.take (s.incoming.length - s'.incoming.length)⟩], s')
    | (.ok none, s') => ([], s')
    | (.error _, s') => ([], s')

def runCalls : List Call → Stream → List Passed × Stream
  | [], s => ([], s)
  | call :: rest, s =>
    let (passed, s) := call.run serializers deserializers session s
    let (more, s) := runCalls rest s
    (passed ++ more, s)

/-- A whole frame that the session takes stands at the front of what the peer wrote. -/
structure Waiting (incoming head payload rest : Bytes) (header : FrameHeader) : Prop where
  front : incoming = head ++ (payload ++ rest)
  size : head.length = 2 + headerRest (head.getD 1 0)
  parsed : FrameHeader.parse head = .ok header
  announced : payload.length = header.payloadLength
  allowed : session.policy.ensureAllows header = .ok ()
  decoded : ∃ dict, decodeHandshakePayload deserializers header payload = .ok dict

/-- The application sends, and the peer has sent, no frame beyond the limits. -/
def Call.Conforms : Call → Stream → Prop
  | .send frameType dict tier, s => ∀ payload,
    NpsFrameCodec.encodePayload serializers dict tier = .ok payload →
    session.policy.allows tier frameType = true →
    ((FrameHeader.new frameType tier true payload.length).toBytes ++ payload).length ≤ s.room →
    (∀ limit, session.serverCaps.maxFramePayload = some limit → payload.length ≤ limit.toNat) ∧
      (session.serverCaps.extSupport = some false → payload.length ≤ 0xFFFF)
  | .recv, s => ∀ head payload rest header,
    Waiting deserializers session s.incoming head payload rest header →
    ∀ limit, session.serverCaps.maxFramePayload = some limit → payload.length ≤ limit.toNat

def Conforming : List Call → Stream → Prop
  | [], _ => True
  | call :: rest, s => call.Conforms serializers deserializers session s ∧
    Conforming rest (call.run serializers deserializers session s).2

end Runs

section Steps
variable {serializers : Serializers} {deserializers : Deserializers} {session : NcpSession}
variable {s t : Stream}

theorem ensureAllows_ok {policy : NcpEncodingPolicy} {header : FrameHeader} {u : Unit} :
    policy.ensureAllows header = .ok u ↔
      policy.allows header.encodingTier header.frameType = true := by
  unfold NcpEncodingPolicy.ensureAllows
  split
  · rename_i allowed
    exact ⟨fun _ => allowed, fun _ => rfl⟩
  · rename_i refused
    constructor
    · intro passed
      cases passed
    · intro allowed
      exact absurd allowed refused

theorem sendFrame_serialized (session : NcpSession) (s : Stream) (frameType : FrameType) {dict : FrameDict}
    {tier : EncodingTier} {payload : Bytes}
    (serialized : NpsFrameCodec.encodePayload serializers dict tier = .ok payload) :
    ∃ header : FrameHeader, header.encodingTier = tier ∧ header.frameType = frameType ∧
      session.sendFrame serializers frameType dict tier s = (do
        lift (session.policy.ensureAllows header)
        writeAll ((FrameHeader.new frameType tier true payload.length).toBytes ++ payload) :
          Transfer NpsError Unit) s := by
  have parsed := FrameHeader.parse_toBytes_new frameType tier true payload.length payload
  have encoded : encodeFrame serializers frameType dict tier =
      .ok ((FrameHeader.new frameType tier true payload.length).toBytes ++ payload) := by
    simp only [encodeFrame, serialized]
    rfl
  refine ⟨_, FrameHeader.encodingTier_new frameType tier true payload.length, rfl, ?_⟩
  simp only [NcpSession.sendFrame, encoded]
  rw [Transfer.ok_bind (lift_run _), parsed, Transfer.ok_bind (lift_run _)]
  rfl

/-- Exactly the payloads that the policy allows are sent. -/
theorem sendFrame_ok {frameType : FrameType} {dict : FrameDict} {tier : EncodingTier} {u : Unit} :
    session.sendFrame serializers frameType dict tier s = (.ok u, t) ↔
      ∃ payload, NpsFrameCodec.encodePayload serializers dict tier = .ok payload ∧
        session.policy.allows tier frameType = true ∧
        writeAll ((FrameHeader.new frameType tier true payload.length).toBytes ++ payload) s =
          (.ok u, t) := by
  constructor
  · intro sent
    obtain ⟨wire, _, first, -⟩ := Transfer.bind_ok.mp sent
    obtain ⟨payload, serialized, -⟩ := Outcome.bind_ok.mp (lift_ok.mp first).1
    obtain ⟨header, rfl, rfl, same⟩ := sendFrame_serialized session s frameType serialized
    obtain ⟨_, _, passed, written⟩ := Transfer.bind_ok.mp (same.symm.trans sent)
    obtain ⟨allowed, rfl⟩ := lift_ok.mp passed
    exact ⟨payload, serialized, ensureAllows_ok.mp allowed, written⟩
  · rintro ⟨payload, serialized, permitted, written⟩
    obtain ⟨header, rfl, rfl, same⟩ := sendFrame_serialized session s frameType serialized
    rw [same, ensureAllows_ok.mpr permitted, Transfer.ok_bind (lift_run ())]
    exact written

/-- What was written for a payload measures as that payload, with an extended header when it is
longer than the short one can tell. -/
theorem passed_new (frameType : FrameType) (tier : EncodingTier) (payload : Bytes) :
    Passed.payloadLength ⟨true, (FrameHeader.new frameType tier true payload.length).toBytes ++
        payload⟩ = payload.length ∧
      Passed.isExtended ⟨true, (FrameHeader.new frameType tier true payload.length).toBytes ++
        payload⟩ = decide (payload.length > 0xFFFF) := by
  obtain ⟨tail, bytes, size⟩ := new_toBytes frameType tier true payload.length
  constructor
  · rw [bytes]
    simp only [Passed.payloadLength, Passed.headerSize, List.cons_append, List.nil_append,
      List.getD_cons_succ, List.getD_cons_zero, List.length_cons, List.length_append, size]
    omega
  · rw [bytes]
    exact FrameHeader.extBit_flagsFor tier true _

theorem readExact_split {count : ℕ} {bytes : Bytes} (read : readExact count s = (.ok bytes, t)) :
    s.incoming = bytes ++ t.incoming ∧ bytes.length = count := by
  unfold readExact at read
  split at read
  · rename_i enough
    cases read
    exact ⟨(List.take_append_drop count s.incoming).symm, List.length_take_of_le enough⟩
  · cases read

theorem recvFrame_two {b0 b1 : UInt8} {rest : Bytes} (arrives : s.incoming = b0 :: b1 :: rest) :
    session.recvFrame deserializers s = (do
      let tail ← readExact (headerRest b1)
      let header ← lift (FrameHeader.parse (b0 :: b1 :: tail))
      lift (session.policy.ensureAllows header)
      let payload ← readExact header.payloadLength
      let dict ← lift (decodeHandshakePayload deserializers header payload)
      return some (header.frameType, dict) : Transfer NpsError _) { s with incoming := rest } := by
  cases s
  cases arrives
  rfl

/-- A frame is delivered only when it waits at the front, and then it is taken off. -/
theorem recvFrame_ok {result : FrameType × FrameDict}
    (received : session.recvFrame deserializers s = (.ok (some result), t)) :
    ∃ head payload header,
      Waiting deserializers session s.incoming head payload t.incoming header := by
  match arrives : s.incoming with
  | [] | [_] =>
    cases s
    cases arrives
    cases received
  | b0 :: b1 :: rest =>
    rw [recvFrame_two arrives] at received
    obtain ⟨tail, s₁, read, received⟩ := Transfer.bind_ok.mp received
    obtain ⟨split₁, more⟩ := readExact_split read
    obtain ⟨header, _, pure₁, received⟩ := Transfer.bind_ok.mp received
    obtain ⟨parsed, rfl⟩ := lift_ok.mp pure₁
    obtain ⟨_, _, pure₂, received⟩ := Transfer.bind_ok.mp received
    obtain ⟨allowed, rfl⟩ := lift_ok.mp pure₂
    obtain ⟨payload, s₂, read, received⟩ := Transfer.bind_ok.mp received
    obtain ⟨split₂, announced⟩ := readExact_split read
    obtain ⟨dict, _, pure₃, received⟩ := Transfer.bind_ok.mp received
    obtain ⟨decoded, rfl⟩ := lift_ok.mp pure₃
    cases received
    refine ⟨b0 :: b1 :: tail, payload, header, ?_, ?_, parsed, announced, allowed, dict, decoded⟩
    · change rest = tail ++ s₁.incoming at split₁
      rw [split₁, split₂]
      rfl
    · exact (congrArg (· + 2) more).trans (add_comm ..)

/-- A frame that waits at the front is delivered, with what its payload is decoded to. -/
theorem recvFrame_front {head payload rest : Bytes} {header : FrameHeader} {dict : FrameDict}
    (waiting : Waiting deserializers session s.incoming head payload rest header)
    (decoded : decodeHandshakePayload deserializers header payload = .ok dict) :
    session.recvFrame deserializers s =
      (.ok (some (header.frameType, dict)), { s with incoming := rest }) := by
  obtain ⟨front, size, parsed, announced, allowed, -⟩ := waiting
  match head, size with
  | b0 :: b1 :: tail, size =>
    have length : tail.length = headerRest b1 := by
      simp only [List.length_cons, List.getD_cons_succ, List.getD_cons_zero] at size
      omega
    rw [recvFrame_two front, Transfer.ok_bind (readExact_front rfl length), parsed,
      Transfer.ok_bind (lift_run header), allowed, Transfer.ok_bind (lift_run ()),
      Transfer.ok_bind (readExact_front rfl announced), decoded]
    rfl
  | [b0], size =>
    simp only [List.length_singleton] at size
    omega
  | [], size =>
    simp only [List.length_nil] at size
    omega

theorem recvFrame_waiting {head payload rest : Bytes} {header : FrameHeader}
    (waiting : Waiting deserializers session s.incoming head payload rest header) :
    ∃ result, session.recvFrame deserializers s = (.ok (some result), { s with incoming := rest }) := by
  obtain ⟨dict, decoded⟩ := waiting.decoded
  exact ⟨_, recvFrame_front waiting decoded⟩

/-- A send stays within the limits exactly when its payload does. -/
theorem send_conforms {frameType : FrameType} {dict : FrameDict} {tier : EncodingTier} :
    (∀ frame ∈ ((Call.send frameType dict tier).run serializers deserializers session s).1,
        frame.Within session.serverCaps) ↔
      (Call.send frameType dict tier).Conforms serializers deserializers session s := by
  constructor
  · intro within payload serialized permitted room
    have written := writeAll_room room
    have sent := sendFrame_ok.mpr ⟨payload, serialized, permitted, written⟩
    simp only [Call.run, sent, List.drop_left, List.mem_singleton, forall_eq] at within
    obtain ⟨length, extended⟩ := passed_new frameType tier payload
    refine ⟨fun limit negotiated => length.ge.trans (within.payload limit negotiated), fun none => ?_⟩
    have short := extended.symm.trans (within.header rfl none)
    exact not_lt.mp (of_decide_eq_false short)
  · intro conforms frame passed
    simp only [Call.run] at passed
    split at passed
    · rename_i sent
      obtain ⟨payload, serialized, permitted, written⟩ := sendFrame_ok.mp sent
      obtain ⟨length, extended⟩ := passed_new frameType tier payload
      have room := writeAll_fits written
      obtain ⟨limits, short⟩ := conforms payload serialized permitted room
      rw [(writeAll_ok written).1, List.drop_left, List.mem_singleton] at passed
      subst passed
      constructor
      · intro limit negotiated
        exact length.le.trans (limits limit negotiated)
      · intro _ none
        exact extended.trans (decide_eq_false (not_lt.mpr (short none)))
    · cases passed

/-- A receipt stays within the limits exactly when the frame that waits does. -/
theorem recv_conforms :
    (∀ frame ∈ (Call.recv.run serializers deserializers session s).1,
        frame.Within session.serverCaps) ↔
      Call.recv.Conforms serializers deserializers session s := by
  have consumed {head payload rest : Bytes} {header : FrameHeader}
      (waiting : Waiting deserializers session s.incoming head payload rest header) :
      s.incoming.take (s.incoming.length - rest.length) = head ++ payload := by
    rw [waiting.front, ← List.append_assoc, List.length_append, Nat.add_sub_cancel, List.take_left]
  have length {head payload rest : Bytes} {header : FrameHeader}
      (waiting : Waiting deserializers session s.incoming head payload rest header) :
      Passed.payloadLength ⟨false, head ++ payload⟩ = payload.length := by
    have size := waiting.size
    have second : (head ++ payload).getD 1 0 = head.getD 1 0 := by
      rw [List.getD_append]
      omega
    simp only [Passed.payloadLength, Passed.headerSize, second, List.length_append, size]
    omega
  constructor
  · intro within head payload rest header waiting limit negotiated
    obtain ⟨result, received⟩ := recvFrame_waiting waiting
    simp only [Call.run, received, List.mem_singleton, forall_eq, consumed waiting] at within
    exact length waiting ▸ within.payload limit negotiated
  · intro conforms frame passed
    simp only [Call.run] at passed
    split at passed
    · rename_i received
      obtain ⟨head, payload, header, waiting⟩ := recvFrame_ok received
      rw [consumed waiting, List.mem_singleton] at passed
      subst passed
      constructor
      · intro limit negotiated
        exact length waiting ▸ conforms head payload _ header waiting limit negotiated
      · intro sent
        cases sent
    · cases passed
    · cases passed

end Steps

section Sessions
variable {serializers : Serializers} {deserializers : Deserializers}

/-- No frame beyond the negotiated limits passes in a sequence of calls exactly when, at each of
them, the application and the peer keep to the limits themselves. -/
theorem limits_enforced_iff (session : NcpSession) (calls : List Call) (s : Stream) :
    (∀ frame ∈ (runCalls serializers deserializers session calls s).1,
        frame.Within session.serverCaps) ↔
      Conforming serializers deserializers session calls s := by
  induction calls generalizing s with
  | nil => simp [runCalls, Conforming]
  | cons call rest ih =>
    have step : (∀ frame ∈ (call.run serializers deserializers session s).1,
        frame.Within session.serverCaps) ↔ call.Conforms serializers deserializers session s := by
      cases call with
      | send frameType dict tier => exact send_conforms
      | recv => exact recv_conforms
    simp only [runCalls, Conforming, List.mem_append, or_imp, forall_and, step, ih]

end Sessions

def smallHello : HelloFrame := { jsonHello with maxFramePayload := 8 }

def smallCaps : CapsFrame := NcpServerConnection.negotiated {} (negotiateHandshake {} smallHello)

def smallCapsMsgpack : Bytes :=
  [0x87, 0xB1] ++ Text.utf8 "enabled_encodings" ++ [0x91, 0xA4] ++ Text.utf8 "json" ++
  [0xAB] ++ Text.utf8 "ext_support" ++ [0xC2] ++
  [0xB6] ++ Text.utf8 "max_concurrent_streams" ++ [0x20] ++
  [0xB1] ++ Text.utf8 "max_frame_payload" ++ [0x08] ++
  [0xB3] ++ Text.utf8 "negotiated_encoding" ++ [0xA4] ++ Text.utf8 "json" ++
  [0xAF] ++ Text.utf8 "session_version" ++ [0xA4] ++ Text.utf8 "0.11" ++
  [0xB3] ++ Text.utf8 "supported_protocols" ++ [0x91, 0xA3] ++ Text.utf8 "ncp"

def smallSession : NcpSession := ⟨smallCaps, .mk .json false⟩

/-- Eight bytes were negotiated, and `{"anchor_ref":"x"}` is sent. -/
theorem ceiling_exceeded :
    Handshake (writes smallCapsMsgpack) (readsBack smallCapsMsgpack smallCaps.toDict) {} smallHello
      smallSession smallSession ∧
    smallCaps.maxFramePayload = some 8 ∧
    (runCalls (writes smallCapsMsgpack) (readsBack smallCapsMsgpack smallCaps.toDict) smallSession
      [.send .query [("anchor_ref", .string "x")] .json] { incoming := [], room := 64 }).1 =
        [⟨true, [0x10, 0x04, 0x00, 0x12] ++ Text.utf8 "\x7b\"anchor_ref\":\"x\"\x7d"⟩] ∧
    ¬ Passed.Within smallCaps
      ⟨true, [0x10, 0x04, 0x00, 0x12] ++ Text.utf8 "\x7b\"anchor_ref\":\"x\"\x7d"⟩ := by
  refine ⟨.of_accept rfl rfl rfl rfl ?_ (readsText_table _ _), rfl, rfl, ?_⟩
  · rw [utf8_text]
    decide +kernel
  · intro within
    exact absurd (within.payload 8 rfl) (by decide)

end Nps.Ncp
