import NpsSdk.Core.Codec

/-! The native NWP server's own frame reader, compared with the codec that writes the
frames it reads. -/
namespace Nps.Nwp
open Nps.Core Wire

def orIo (read : Except ReadError α) : NpsResult α :=
  read.mapError fun
    | .unexpectedEof => .io "early eof"

/-- The second header byte decides whether four more bytes belong to the header. -/
def readsExtended (header : Bytes) : Bool :=
  header.getD 1 0 &&& 0x01 != 0

/-- The last four header bytes, when the flag asks for them. -/
def readExtension (header : Bytes) (stream : Bytes) : NpsResult (Bytes × Bytes) :=
  if readsExtended header then orIo (readExact 4 stream) else .ok ([], stream)

/-- An end of the stream inside the first four bytes ends the connection quietly. -/
def readWireFrame : Reader NpsError := fun stream =>
  match readExact 4 stream with
  | .error .unexpectedEof => .ok (none, [])
  | .ok (header, stream) => do
    let (rest, stream) ← readExtension header stream
    let raw := header ++ rest
    let parsed ← FrameHeader.parse raw
    let (payload, stream) ← orIo (readExact parsed.payloadLength stream)
    return (some (raw ++ payload), stream)

theorem orIo_readExact {count : Nat} {stream front rest : Bytes}
    (read : orIo (readExact count stream) = .ok (front, rest)) :
    stream = front ++ rest ∧ front.length = count := by
  cases direct : readExact count stream with
  | error e => simp [orIo, direct, Except.mapError] at read
  | ok pair =>
    simp only [orIo, direct, Except.mapError, Except.ok.injEq] at read
    subst read
    exact readExact_splits direct

theorem orIo_readExact_append {count : Nat} (front rest : Bytes) (size : front.length = count) :
    orIo (readExact count (front ++ rest)) = .ok (front, rest) := by
  rw [readExact_append front rest size]
  rfl

theorem readExtension_ok {header stream tail rest : Bytes}
    (read : readExtension header stream = .ok (tail, rest)) :
    stream = tail ++ rest ∧ tail.length = if readsExtended header then 4 else 0 := by
  unfold readExtension at read
  split at read
  · rename_i extended
    simpa [extended] using orIo_readExact read
  · rename_i short
    cases read
    simp [short]

/-- What a returned frame says about the bytes read: a header of four or eight bytes,
and a payload of the length that header parses to. -/
theorem readWireFrame_ok {stream record rest : Bytes}
    (read : readWireFrame stream = .ok (some record, rest)) :
    ∃ raw payload parsed, record = raw ++ payload ∧ stream = record ++ rest ∧
      raw.length = (if readsExtended record then 8 else 4) ∧
      FrameHeader.parse raw = .ok parsed ∧ payload.length = parsed.payloadLength := by
  unfold readWireFrame at read
  cases first : readExact 4 stream with
  | error e => simp [first] at read
  | ok pair =>
    obtain ⟨header, stream₁⟩ := pair
    obtain ⟨whole, size⟩ := readExact_splits first
    simp only [first] at read
    obtain ⟨⟨tail, stream₂⟩, extra, read⟩ := Outcome.bind_ok.mp read
    obtain ⟨parsed, parse, read⟩ := Outcome.bind_ok.mp read
    obtain ⟨⟨payload, stream₃⟩, body, read⟩ := Outcome.bind_ok.mp read
    cases read
    obtain ⟨rfl, length⟩ := orIo_readExact body
    obtain ⟨rfl, more⟩ := readExtension_ok extra
    have same : readsExtended (header ++ tail ++ payload) = readsExtended header := by
      have second : 1 < header.length := by omega
      simp only [readsExtended, List.getD_eq_getElem?_getD, List.append_assoc,
        List.getElem?_append_left second]
    refine ⟨header ++ tail, payload, parsed, rfl, by simp [whole], ?_, parse, length⟩
    rw [same, List.length_append, size, more]
    split <;> rfl

theorem readWireFrame_consuming : Consuming readWireFrame := by
  intro stream record rest read
  obtain ⟨_, _, _, _, whole, _⟩ := readWireFrame_ok read
  exact whole

section Agreement
variable (serializers : Serializers)

/-- A frame the codec encoded at one of the two textual tiers. -/
structure EncodedFrame where
  codec : NpsFrameCodec
  frameType : FrameType
  dict : FrameDict
  tier : EncodingTier
  isFinal : Bool
  wire : Bytes
  tiered : tier = .json ∨ tier = .msgPack
  encoded : codec.encode serializers frameType dict tier isFinal = .ok wire

variable {serializers} (frame : EncodedFrame serializers)

def EncodedFrame.payload : Bytes :=
  match NpsFrameCodec.encodePayload serializers frame.dict frame.tier with
  | .ok payload => payload
  | .error _ => []

/-- The two flag tests coincide when bit 0, the low bit of the tier, happens to equal EXT;
the length field then also has to be wide enough. -/
def EncodedFrame.Agrees : Prop :=
  (frame.tier = .json ∧ frame.payload.length ≤ 0xFFFF) ∨
    (frame.tier = .msgPack ∧ 0xFFFF < frame.payload.length ∧ frame.payload.length < 2 ^ 32)

abbrev EncodedFrame.header : FrameHeader :=
  .new frame.frameType frame.tier frame.isFinal frame.payload.length

variable {frame}

theorem EncodedFrame.wire_eq : frame.wire = frame.header.toBytes ++ frame.payload := by
  obtain ⟨payload, serialized, -, wire⟩ := NpsFrameCodec.encode_ok frame.encoded
  have same : frame.payload = payload := by rw [EncodedFrame.payload, serialized]
  rw [EncodedFrame.header, same, wire]

theorem readsExtended_toBytes (header : FrameHeader) (rest : Bytes) :
    readsExtended (header.toBytes ++ rest) = (header.flags &&& 0x01 != 0) := by
  unfold FrameHeader.toBytes readsExtended
  split <;> simp

theorem readsExtended_tier (tier : EncodingTier) (isFinal isExtended : Bool) :
    (FrameHeader.flagsFor tier isFinal isExtended &&& 0x01 != 0) =
      (decide (tier = .msgPack) || decide (tier = .reserved)) := by
  cases tier <;> cases isFinal <;> cases isExtended <;> rfl

theorem EncodedFrame.readsExtended_wire :
    readsExtended frame.wire = decide (frame.tier = .msgPack) := by
  rw [EncodedFrame.wire_eq, readsExtended_toBytes]
  rcases frame.tiered with tier | tier <;>
    simp [FrameHeader.new, readsExtended_tier, tier]

theorem EncodedFrame.wire_length : frame.wire.length =
    (if 0xFFFF < frame.payload.length then 8 else 4) + frame.payload.length := by
  rw [EncodedFrame.wire_eq, List.length_append, FrameHeader.toBytes_length]
  simp [FrameHeader.headerSize, FrameHeader.new]

theorem readWireFrame_append {header tail payload : Bytes} {parsed : FrameHeader} (rest : Bytes)
    (size : header.length = 4) (more : tail.length = if readsExtended header then 4 else 0)
    (parse : FrameHeader.parse (header ++ tail) = .ok parsed)
    (length : payload.length = parsed.payloadLength) :
    readWireFrame (header ++ tail ++ payload ++ rest) =
      .ok (some (header ++ tail ++ payload), rest) := by
  have first := readExact_append header (tail ++ (payload ++ rest)) size
  have extra : readExtension header (tail ++ (payload ++ rest)) = .ok (tail, payload ++ rest) := by
    unfold readExtension
    split at more
    · rw [if_pos ‹_›]
      exact orIo_readExact_append tail (payload ++ rest) more
    · rw [if_neg ‹_›, List.eq_nil_of_length_eq_zero more]
      rfl
  have body := orIo_readExact_append payload rest length
  simp only [readWireFrame, List.append_assoc, first, extra, parse, body, bind, Except.bind,
    pure, Except.pure]

theorem EncodedFrame.splits (agrees : frame.Agrees) : Splits readWireFrame frame.wire := by
  intro rest
  have parse := FrameHeader.parse_toBytes_new frame.frameType frame.tier frame.isFinal
    frame.payload.length []
  have whole : frame.header.toBytes = frame.header.toBytes.take 4 ++ frame.header.toBytes.drop 4 :=
    (List.take_append_drop 4 _).symm
  have size := frame.header.toBytes_length
  have flag : readsExtended (frame.header.toBytes.take 4) = decide (frame.tier = .msgPack) := by
    have total : 1 < (frame.header.toBytes.take 4).length := by
      simp only [List.length_take, size, FrameHeader.headerSize]
      split <;> omega
    rw [← frame.readsExtended_wire, frame.wire_eq]
    conv_rhs => rw [whole]
    simp only [readsExtended, List.getD_eq_getElem?_getD, List.append_assoc,
      List.getElem?_append_left total]
  rw [frame.wire_eq, whole]
  rw [List.append_nil, whole] at parse
  refine readWireFrame_append rest ?_ ?_ parse ?_
  · simp only [List.length_take, size, FrameHeader.headerSize]
    split <;> rfl
  · rw [flag, List.length_drop, size]
    rcases agrees with ⟨tier, short⟩ | ⟨tier, long, -⟩
    · simp [FrameHeader.headerSize, FrameHeader.new, tier, Nat.not_lt.mpr short]
    · simp [FrameHeader.headerSize, FrameHeader.new, tier, long]
  · rcases agrees with ⟨-, short⟩ | ⟨-, long, fits⟩
    · simp [Nat.not_lt.mpr short]
    · simp only [gt_iff_lt, long, if_true, Nat.mod_eq_of_lt fits]

theorem EncodedFrame.loses (differs : ¬ frame.Agrees) : Loses readWireFrame frame.wire := by
  intro rest read
  obtain ⟨raw, body, parsed, whole, -, size, parse, length⟩ := readWireFrame_ok read
  have total := congrArg List.length whole
  rw [frame.wire_length, List.length_append, size, length, frame.readsExtended_wire] at total
  rw [frame.readsExtended_wire] at size
  have parts := frame.wire_eq.symm.trans whole
  have headerLength := frame.header.toBytes_length
  rcases frame.tiered with tier | tier
  · -- JSON: the four bytes read are half of an extended header.
    have long : 0xFFFF < frame.payload.length := by
      by_contra short
      exact differs (.inl ⟨tier, by omega⟩)
    have half : raw = [frame.frameType.asU8, frame.header.flags, 0, 0] := by
      simp only [tier, reduceCtorEq, decide_false, Bool.false_eq_true, if_false] at size
      have := congrArg (List.take 4) parts
      rw [← size, List.take_left, size] at this
      rw [← this]
      simp [FrameHeader.toBytes, FrameHeader.new, long]
    refine FrameHeader.parse_half ?_ (half ▸ parse)
    exact (FrameHeader.extBit_flagsFor _ _ _).trans (decide_eq_true long)
  · -- MsgPack: eight bytes are taken for the header of either kind.
    simp only [tier, decide_true, if_true] at size total
    have enough : frame.header.toBytes.length ≤ raw.length := by
      rw [headerLength, size, FrameHeader.headerSize]
      split <;> omega
    obtain ⟨more, rfl⟩ : frame.header.toBytes <+: raw :=
      List.prefix_of_prefix_length_le ⟨frame.payload, parts⟩ ⟨body, rfl⟩ enough
    rw [FrameHeader.parse_toBytes_new] at parse
    cases parse
    simp only [gt_iff_lt] at total
    split at total
    · refine differs (.inr ⟨tier, ‹_›, ?_⟩)
      have := Nat.mod_lt frame.payload.length (show 0 < 2 ^ 32 by decide)
      omega
    · omega

/-- Reading a stream of frames back is exact precisely when the native reader and the codec
agree on every one of them. -/
theorem readWireFrame_iff (frames : List (EncodedFrame serializers)) :
    readMany readWireFrame frames.length (frames.map (·.wire)).flatten =
        .ok (frames.map (some ·.wire), []) ↔
      ∀ frame ∈ frames, frame.Agrees :=
  readMany_iff readWireFrame_consuming (fun _ => EncodedFrame.splits) (fun _ => EncodedFrame.loses)
    frames

end Agreement

/-- Both serializers on the empty dictionary: `{}` and an empty MsgPack map. -/
def emptyDictSerializers : Serializers where
  toVec _ := .ok [0x7B, 0x7D]
  toVecNamed _ := .ok [0x80]
  float32 _ := none

def binaryQuery : EncodedFrame emptyDictSerializers where
  codec := { registry := .createFull }
  frameType := .query
  dict := []
  tier := .msgPack
  isFinal := true
  wire := [0x10, 0x05, 0x00, 0x01, 0x80]
  tiered := .inr rfl
  encoded := rfl

/-- A short MsgPack frame is taken for an extended one and its payload is never delivered. -/
theorem binaryQuery_unread :
    readMany readWireFrame 1 ([binaryQuery].map (·.wire)).flatten = .error (.io "early eof") ∧
      ¬ readMany readWireFrame 1 ([binaryQuery].map (·.wire)).flatten =
        .ok ([binaryQuery].map (some ·.wire), []) := by
  have read : readMany readWireFrame 1 ([binaryQuery].map (·.wire)).flatten =
      .error (.io "early eof") := rfl
  refine ⟨read, ?_⟩
  rw [read]
  rintro ⟨⟩

end Nps.Nwp
