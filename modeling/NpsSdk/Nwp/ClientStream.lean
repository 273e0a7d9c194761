import Mathlib.Logic.Relation
import NpsSdk.Core.RoundTrip
import NpsSdk.Ncp.Agreement
import NpsSdk.Ncp.DataFrames

/-! A client's stream: the body of a response is cut into frames by the lengths in their headers. -/
namespace Nps.Nwp
open Nps.Core
open Nps.Ncp (StreamFrame ReadsText)
open Outcome
open Relation
open Wire (Bytes)

/-- The `Debug` text of a frame type. -/
def debugType : FrameType → String
  | .anchor => "Anchor"
  | .diff => "Diff"
  | .stream => "Stream"
  | .caps => "Caps"
  | .hello => "Hello"
  | .nop => "Nop"
  | .query => "Query"
  | .action => "Action"
  | .ident => "Ident"
  | .trust => "Trust"
  | .revoke => "Revoke"
  | .announce => "Announce"
  | .resolve => "Resolve"
  | .graph => "Graph"
  | .task => "Task"
  | .delegate => "Delegate"
  | .sync => "Sync"
  | .alignStream => "AlignStream"
  | .error => "Error"

inductive SlicePanic where
  | rangeEnd
deriving DecidableEq

namespace NwpClient

def codec : NpsFrameCodec := { registry := .createFull }

section Splitting
variable (deserializers : Deserializers)

def frameLength (header : FrameHeader) : Nat := header.headerSize + header.payloadLength

def readFrame (wire : Bytes) : NpsResult StreamFrame := do
  let (ft, dict) ← codec.decode deserializers wire
  if ft ≠ .stream then throw (.frame ("expected Stream, got " ++ debugType ft))
  StreamFrame.fromDict dict

/-- The first frame of a body, and what comes after it. -/
def firstFrame (body : Bytes) : Except SlicePanic (NpsResult (StreamFrame × Bytes)) :=
  match FrameHeader.parse body with
  | .error e => .ok (.error e)
  | .ok header =>
    if frameLength header ≤ body.length then
      .ok ((readFrame deserializers (body.take (frameLength header))).map fun frame =>
        (frame, body.drop (frameLength header)))
    else .error .rangeEnd

theorem firstFrame_ok {body rest : Bytes} {frame : StreamFrame}
    (first : firstFrame deserializers body = .ok (.ok (frame, rest))) : ∃ header,
      FrameHeader.parse body = .ok header ∧ frameLength header ≤ body.length ∧
        readFrame deserializers (body.take (frameLength header)) = .ok frame ∧
          rest = body.drop (frameLength header) := by
  unfold firstFrame at first
  split at first
  · cases first
  · rename_i header parsed
    split at first
    · rename_i whole
      obtain ⟨found, read, same⟩ := Outcome.map_ok.mp (Except.ok.inj first)
      cases same
      exact ⟨header, parsed, whole, read, rfl⟩
    · cases first

theorem frameLength_pos (header : FrameHeader) : 0 < frameLength header := by
  unfold frameLength FrameHeader.headerSize
  split <;> omega

/-- The frames of a body up to one that is the last. -/
def splitFrames (body : Bytes) : Except SlicePanic (NpsResult (List StreamFrame)) :=
  if body = [] then .ok (.ok [])
  else match _ : firstFrame deserializers body with
    | .error panic => .error panic
    | .ok (.error e) => .ok (.error e)
    | .ok (.ok (frame, rest)) =>
      if frame.isLast then .ok (.ok [frame])
      else (splitFrames rest).map fun others => others.map (frame :: ·)
termination_by body.length
decreasing_by
  obtain ⟨header, -, whole, -, rfl⟩ := firstFrame_ok deserializers ‹_›
  have := frameLength_pos header
  rw [List.length_drop]
  omega

end Splitting

section Bodies
variable {deserializers : Deserializers} {body rest : Bytes}

/-- The body starts with a whole stream frame that is not the last. -/
def Leads (deserializers : Deserializers) (body rest : Bytes) : Prop :=
  ∃ header wire frame, FrameHeader.parse body = .ok header ∧ body = wire ++ rest ∧
    wire.length = frameLength header ∧ readFrame deserializers wire = .ok frame ∧
      frame.isLast = false

/-- After whole frames, none of which is the last, a header announces more than there is. -/
def Truncated (deserializers : Deserializers) (body : Bytes) : Prop :=
  ∃ rest header, ReflTransGen (Leads deserializers) body rest ∧
    FrameHeader.parse rest = .ok header ∧ rest.length < frameLength header

theorem leads_iff : Leads deserializers body rest ↔ ∃ frame,
    firstFrame deserializers body = .ok (.ok (frame, rest)) ∧ frame.isLast = false := by
  constructor
  · rintro ⟨header, wire, frame, parsed, rfl, length, read, more⟩
    refine ⟨frame, ?_, more⟩
    unfold firstFrame
    rw [parsed]
    dsimp only
    rw [if_pos (by rw [List.length_append]; omega), ← length, List.take_left, List.drop_left, read]
    rfl
  · rintro ⟨frame, first, more⟩
    obtain ⟨header, parsed, whole, read, rfl⟩ := firstFrame_ok deserializers first
    exact ⟨header, _, frame, parsed, (List.take_append_drop ..).symm,
      List.length_take_of_le whole, read, more⟩

theorem firstFrame_panic : (∃ panic, firstFrame deserializers body = .error panic) ↔
    ∃ header, FrameHeader.parse body = .ok header ∧ body.length < frameLength header := by
  unfold firstFrame
  cases FrameHeader.parse body with
  | error e => simp
  | ok header =>
    by_cases whole : frameLength header ≤ body.length
    · simp [whole]
    · dsimp only
      rw [if_neg whole]
      exact iff_of_true ⟨.rangeEnd, rfl⟩ ⟨header, rfl, Nat.not_le.mp whole⟩

/-- A body is cut short in its first frame, or after it. -/
theorem truncated_iff : Truncated deserializers body ↔
    (∃ panic, firstFrame deserializers body = .error panic) ∨
      ∃ frame rest, firstFrame deserializers body = .ok (.ok (frame, rest)) ∧ frame.isLast = false ∧
        Truncated deserializers rest := by
  rw [firstFrame_panic]
  constructor
  · rintro ⟨rest, header, ahead, parsed, short⟩
    rcases ReflTransGen.cases_head ahead with rfl | ⟨next, leads, later⟩
    · exact .inl ⟨header, parsed, short⟩
    · obtain ⟨frame, first, more⟩ := leads_iff.mp leads
      exact .inr ⟨frame, next, first, more, rest, header, later, parsed, short⟩
  · rintro (⟨header, parsed, short⟩ | ⟨frame, next, first, more, rest, header, later, parsed, short⟩)
    · exact ⟨body, header, .refl, parsed, short⟩
    · exact ⟨rest, header, .head (leads_iff.mpr ⟨frame, first, more⟩) later, parsed, short⟩

/-- The client panics on the bodies that are cut short, and on no others. -/
theorem splitFrames_panic (body : Bytes) : (∃ panic, splitFrames deserializers body = .error panic) ↔
    Truncated deserializers body := by
  fun_induction splitFrames deserializers body with
  | case1 =>
    have first : firstFrame deserializers [] = .ok (.error (.frame "buffer too small for header")) := rfl
    rw [truncated_iff, first]
    simp
  | case2 body _ panic first =>
    exact iff_of_true ⟨panic, rfl⟩ (truncated_iff.mpr (.inl ⟨panic, first⟩))
  | case3 body _ e first =>
    rw [truncated_iff, first]
    simp
  | case4 body _ frame rest first last =>
    rw [truncated_iff, first]
    simp [last]
  | case5 body _ frame rest first more ih =>
    rw [truncated_iff, first]
    cases later : splitFrames deserializers rest with
    | error panic =>
      rw [later] at ih
      exact iff_of_true ⟨panic, rfl⟩
        (.inr ⟨frame, rest, rfl, Bool.eq_false_of_not_eq_true more, ih.mp ⟨panic, rfl⟩⟩)
    | ok answer =>
      rw [later] at ih
      have whole : ¬ Truncated deserializers rest := fun short => by
        obtain ⟨panic, panics⟩ := ih.mpr short
        cases panics
      simp [Except.map, whole]

end Bodies

section Encoded
variable (serializers : Serializers) (deserializers : Deserializers)

/-- A stream frame as it is encoded at some tier, with the libraries reading back what they wrote for
its dictionary. -/
structure EncodedFrame where
  frame : StreamFrame
  wire : Bytes
  maxPayload : Nat
  tier : EncodingTier
  isFinal : Bool
  encoded : NpsFrameCodec.encode serializers { registry := .createFull, maxPayload } .stream frame.toDict
    tier isFinal = .ok wire
  reads : ReadsText serializers deserializers frame.toDict

variable {serializers deserializers} in
/-- The payload has 4 GiB or more, so that the header announces less. -/
def EncodedFrame.Oversized (encoded : EncodedFrame serializers deserializers) : Prop :=
  ∃ payload, NpsFrameCodec.encodePayload serializers encoded.frame.toDict encoded.tier = .ok payload ∧
    2 ^ 32 ≤ payload.length

/-- The body is made of encoded frames, and one that is oversized comes before any other that is the
last. -/
def Overflows (body : Bytes) : Prop :=
  ∃ (before : List (EncodedFrame serializers deserializers))
    (large : EncodedFrame serializers deserializers)
    (after : List (EncodedFrame serializers deserializers)),
    body = (before ++ large :: after).flatMap EncodedFrame.wire ∧
      (∀ encoded ∈ before, encoded.frame.isLast = false) ∧ large.Oversized

/-- The frames up to the first that is the last. -/
def throughLast : List StreamFrame → List StreamFrame
  | [] => []
  | frame :: rest => if frame.isLast then [frame] else frame :: throughLast rest

variable {serializers deserializers}

theorem get_vectorSearch (frame : StreamFrame) : Json.get "vector_search" frame.toDict = none := by
  simp [StreamFrame.toDict, Json.get_insert_ne]

theorem extract_stream (frame : StreamFrame) :
    extractVectorSearchVector serializers frame.toDict = (frame.toDict, []) := by
  rw [extractVectorSearchVector, get_vectorSearch]

theorem delivered_stream (tier : EncodingTier) (frame : StreamFrame) :
    delivered deserializers tier frame.toDict = frame.toDict := by
  unfold delivered
  split
  · exact roundVector_absent fun _ _ found => by
      rw [get_vectorSearch] at found
      cases found
  · rfl

theorem carried_stream {frame : StreamFrame} {payload : Bytes} (short : payload.length < 2 ^ 32)
    (serialized : encodeBinaryVector serializers frame.toDict = .ok payload) :
    Carried serializers frame.toDict := by
  obtain ⟨bytes, written, rfl⟩ := encodeBinaryVector_ok serialized
  refine ⟨fun bytes' written' => ?_, fun _ _ found => ?_⟩
  · cases written.symm.trans written'
    simp only [List.length_append] at short
    omega
  · rw [get_vectorSearch] at found
    cases found

/-- What is left of a payload that is cut short is not decoded. -/
theorem decodePayload_cut {frame : StreamFrame} {tier : EncodingTier} {payload front : Bytes}
    (reads : ReadsText serializers deserializers frame.toDict)
    (serialized : NpsFrameCodec.encodePayload serializers frame.toDict tier = .ok payload)
    (shorter : front <+: payload) (cut : front ≠ payload) (dict : FrameDict) :
    decodePayload deserializers front tier ≠ .ok dict := by
  intro decoded
  cases tier with
  | json =>
    obtain ⟨e, refused⟩ := reads.refusesJson payload front (mapError_ok.mp serialized) shorter cut
    simp only [decodePayload, decodeJson, refused] at decoded
    cases decoded
  | msgPack =>
    obtain ⟨e, refused⟩ := reads.refusesMsgpack payload front (mapError_ok.mp serialized) shorter cut
    simp only [decodePayload, decodeMsgpack, refused] at decoded
    cases decoded
  | binaryVector =>
    change encodeBinaryVector serializers frame.toDict = .ok payload at serialized
    obtain ⟨bytes, written, rfl⟩ := encodeBinaryVector_ok serialized
    rw [extract_stream] at written shorter cut
    simp only [List.flatMap_nil, List.append_nil] at shorter cut
    generalize fixed : binaryVectorMagic ++ [binaryVectorVersion, 0] ++ Wire.bigEndian 2 _ ++
      Wire.bigEndian 4 bytes.length ++ Wire.bigEndian 4 0 = prefixed at shorter cut
    have size : prefixed.length = 16 := by
      rw [← fixed]
      rfl
    rcases Nat.lt_or_ge front.length 16 with early | late
    · change decodeBinaryVector deserializers front = .ok dict at decoded
      unfold decodeBinaryVector at decoded
      split at decoded
      · simp only [List.length_cons] at early
        omega
      · cases decoded
    · obtain ⟨rest, rfl⟩ :=
        List.prefix_of_prefix_length_le (List.prefix_append prefixed bytes) shorter (size ▸ late)
      have inner : rest <+: bytes := (List.prefix_append_right_inj prefixed).mp shorter
      rw [decodePayload, ← fixed, decodeBinaryVector_counts] at decoded
      refine decodeSections_cut _ reads.refusesMsgpack written ((List.take_prefix _ _).trans inner)
        (fun same => cut ?_) decoded
      rw [inner.eq_of_length_le (same ▸ List.length_take_le' _ _)]
  | reserved => cases serialized

theorem EncodedFrame.read (floats : Floats serializers deserializers)
    (encoded : EncodedFrame serializers deserializers) (fits : ¬ encoded.Oversized) :
    readFrame deserializers encoded.wire = .ok encoded.frame := by
  obtain ⟨frame, wire, maxPayload, tier, isFinal, encoded, reads⟩ := encoded
  obtain ⟨payload, serialized, law⟩ := frame_round_trip floats reads.json reads.msgpack
    (by rw [extract_stream]; exact reads.msgpack) encoded
  have short : payload.length < 2 ^ 32 := Nat.lt_of_not_le fun large => fits ⟨payload, serialized, large⟩
  have decoded : codec.decode deserializers wire = .ok (.stream, frame.toDict) := by
    rw [← delivered_stream tier frame]
    refine (law short).2 fun binary => ?_
    rw [binary] at serialized
    exact carried_stream short serialized
  rw [readFrame, decoded, ok_bind]
  exact frame.fromDict_toDict

theorem EncodedFrame.first (floats : Floats serializers deserializers)
    (encoded : EncodedFrame serializers deserializers) (fits : ¬ encoded.Oversized) (rest : Bytes) :
    firstFrame deserializers (encoded.wire ++ rest) = .ok (.ok (encoded.frame, rest)) := by
  have read := encoded.read floats fits
  obtain ⟨payload, serialized, -, made⟩ := NpsFrameCodec.encode_ok encoded.encoded
  have parsed := parse_encoded .stream encoded.tier encoded.isFinal
    (Nat.lt_of_not_le fun large => fits ⟨payload, serialized, large⟩) rest
  rw [← made] at parsed
  have length : frameLength (.new .stream encoded.tier encoded.isFinal payload.length) =
      encoded.wire.length := by
    rw [made, List.length_append, FrameHeader.toBytes_length]
    rfl
  unfold firstFrame
  rw [parsed]
  dsimp only
  rw [length, if_pos (by rw [List.length_append]; omega), List.take_left, List.drop_left, read]
  rfl

/-- Of a payload of 4 GiB or more only the front is taken, and that is not decoded. -/
theorem firstFrame_large {frame : StreamFrame} {tier : EncodingTier} {isFinal : Bool} {payload : Bytes}
    (reads : ReadsText serializers deserializers frame.toDict)
    (serialized : NpsFrameCodec.encodePayload serializers frame.toDict tier = .ok payload)
    (large : 2 ^ 32 ≤ payload.length) (rest : Bytes) :
    ∃ e, firstFrame deserializers
      ((FrameHeader.new .stream tier isFinal payload.length).toBytes ++ payload ++ rest) =
        .ok (.error e) := by
  -- The header says the length modulo 2^32.
  have parsed := FrameHeader.parse_toBytes_new .stream tier isFinal payload.length
  rw [if_pos (by omega)] at parsed
  have tiered : ({ FrameHeader.new .stream tier isFinal payload.length with
      payloadLength := payload.length % 2 ^ 32 } : FrameHeader).encodingTier = tier :=
    FrameHeader.encodingTier_new .stream tier isFinal payload.length
  have size : (FrameHeader.new .stream tier isFinal payload.length).toBytes.length =
      FrameHeader.headerSize { FrameHeader.new .stream tier isFinal payload.length with
        payloadLength := payload.length % 2 ^ 32 } := FrameHeader.toBytes_length _
  have announced : ({ FrameHeader.new .stream tier isFinal payload.length with
      payloadLength := payload.length % 2 ^ 32 } : FrameHeader).payloadLength =
        payload.length % 2 ^ 32 := rfl
  generalize ({ FrameHeader.new .stream tier isFinal payload.length with
      payloadLength := payload.length % 2 ^ 32 } : FrameHeader) = header at parsed tiered size announced
  generalize (FrameHeader.new .stream tier isFinal payload.length).toBytes = front at parsed size ⊢
  have less : payload.length % 2 ^ 32 < payload.length := (Nat.mod_lt _ (by decide)).trans_le large
  have taken : (front ++ (payload ++ rest)).take (frameLength header) =
      front ++ payload.take (payload.length % 2 ^ 32) := by
    rw [frameLength, ← size, announced, List.take_length_add_append,
      List.take_append_of_le_length less.le]
  have unread : ∀ dict, codec.decode deserializers (front ++ payload.take (payload.length % 2 ^ 32)) ≠
      .ok dict := by
    intro dict decoded
    have enough : ¬ (front ++ payload.take (payload.length % 2 ^ 32)).length <
        header.headerSize + header.payloadLength := by
      rw [← size, announced, List.length_append, List.length_take]
      omega
    simp only [NpsFrameCodec.decode, parsed, ok_bind, if_neg enough] at decoded
    obtain ⟨_, read, -⟩ := bind_ok.mp decoded
    rw [← size, List.drop_left, announced, List.take_take, Nat.min_self, tiered] at read
    refine decodePayload_cut reads serialized (List.take_prefix _ _) (fun same => ?_) _ read
    have := congrArg List.length same
    rw [List.length_take] at this
    omega
  have whole : frameLength header ≤ (front ++ (payload ++ rest)).length := by
    rw [frameLength, ← size, announced]
    simp only [List.length_append]
    omega
  unfold firstFrame
  rw [List.append_assoc, parsed]
  dsimp only
  rw [if_pos whole, taken]
  cases read : readFrame deserializers (front ++ payload.take (payload.length % 2 ^ 32)) with
  | error e => exact ⟨e, rfl⟩
  | ok found =>
    obtain ⟨dict, decoded, -⟩ := bind_ok.mp read
    exact absurd decoded (unread dict)

theorem EncodedFrame.first_oversized (encoded : EncodedFrame serializers deserializers)
    (large : encoded.Oversized) (rest : Bytes) :
    ∃ e, firstFrame deserializers (encoded.wire ++ rest) = .ok (.error e) := by
  obtain ⟨payload, serialized, -, made⟩ := NpsFrameCodec.encode_ok encoded.encoded
  obtain ⟨payload', serialized', large⟩ := large
  cases serialized.symm.trans serialized'
  rw [made]
  exact firstFrame_large encoded.reads serialized large rest

theorem EncodedFrame.nonempty (encoded : EncodedFrame serializers deserializers) (rest : Bytes) :
    encoded.wire ++ rest ≠ [] := by
  obtain ⟨payload, -, -, made⟩ := NpsFrameCodec.encode_ok encoded.encoded
  have size := FrameHeader.toBytes_length (.new .stream encoded.tier encoded.isFinal payload.length)
  rw [made]
  intro none
  rw [(List.append_eq_nil_iff.mp (List.append_eq_nil_iff.mp none).1).1] at size
  have := frameLength_pos (.new .stream encoded.tier encoded.isFinal 0)
  unfold FrameHeader.headerSize at size
  split at size <;> cases size

/-- A first frame that is read is returned before the frames after it. -/
theorem splitFrames_first {body rest : Bytes} {frame : StreamFrame} (some : body ≠ [])
    (first : firstFrame deserializers body = .ok (.ok (frame, rest))) :
    splitFrames deserializers body = if frame.isLast then .ok (.ok [frame])
      else (splitFrames deserializers rest).map fun others => others.map (frame :: ·) := by
  rw [splitFrames, if_neg some]
  split
  · rename_i panic panics
    cases first.symm.trans panics
  · rename_i e failed
    cases first.symm.trans failed
  · rename_i found later again
    cases first.symm.trans again
    rfl

theorem splitFrames_encoded (floats : Floats serializers deserializers)
    (frames : List (EncodedFrame serializers deserializers))
    (fits : ¬ Overflows serializers deserializers (frames.flatMap EncodedFrame.wire)) :
    splitFrames deserializers (frames.flatMap EncodedFrame.wire) =
      .ok (.ok (throughLast (frames.map EncodedFrame.frame))) := by
  induction frames with
  | nil => rw [splitFrames]; rfl
  | cons encoded frames ih =>
    have first := encoded.first floats
      (fun large => fits ⟨[], encoded, frames, rfl, by simp, large⟩) (frames.flatMap EncodedFrame.wire)
    rw [List.flatMap_cons, List.map_cons, throughLast, splitFrames_first (encoded.nonempty _) first]
    split_ifs with last
    · rfl
    · rw [ih]
      · rfl
      · rintro ⟨before, large, after, same, more, oversized⟩
        refine fits ⟨encoded :: before, large, after, ?_, ?_, oversized⟩
        · rw [List.flatMap_cons, same]
          rfl
        · exact List.forall_mem_cons.mpr ⟨Bool.eq_false_of_not_eq_true last, more⟩

/-- An oversized frame that is reached ends in an error. -/
theorem splitFrames_overflows (floats : Floats serializers deserializers)
    (before : List (EncodedFrame serializers deserializers))
    (more : ∀ encoded ∈ before, encoded.frame.isLast = false)
    (large : EncodedFrame serializers deserializers) (oversized : large.Oversized)
    (after : List (EncodedFrame serializers deserializers)) :
    ∃ e, splitFrames deserializers ((before ++ large :: after).flatMap EncodedFrame.wire) =
      .ok (.error e) := by
  have fails : ∀ (encoded : EncodedFrame serializers deserializers) rest, encoded.Oversized →
      ∃ e, splitFrames deserializers (encoded.wire ++ rest) = .ok (.error e) := by
    intro encoded rest oversized
    obtain ⟨e, first⟩ := encoded.first_oversized oversized rest
    refine ⟨e, ?_⟩
    rw [splitFrames, if_neg (encoded.nonempty rest)]
    split
    · rename_i panic panics
      cases first.symm.trans panics
    · rename_i found failed
      cases first.symm.trans failed
      rfl
    · rename_i frame later again
      cases first.symm.trans again
  induction before with
  | nil => exact fails large _ oversized
  | cons encoded before ih =>
    rw [List.cons_append, List.flatMap_cons]
    by_cases early : encoded.Oversized
    · exact fails encoded _ early
    · obtain ⟨e, later⟩ := ih (List.forall_mem_cons.mp more).2
      have open' := (List.forall_mem_cons.mp more).1
      rw [splitFrames_first (encoded.nonempty _) (encoded.first floats early _), open', later]
      exact ⟨e, rfl⟩

variable (serializers deserializers) in
/-- A body is read within its bounds, and its frames are returned if it is made of frames. -/
structure Splits (body : Bytes) : Prop where
  safe : ∃ answer, splitFrames deserializers body = .ok answer
  whole : ∀ frames : List (EncodedFrame serializers deserializers),
    body = frames.flatMap EncodedFrame.wire →
      splitFrames deserializers body = .ok (.ok (throughLast (frames.map EncodedFrame.frame)))

/-- A body is split as it should be unless it is cut short in a frame that is reached, or a frame that
is reached is longer than its header can say. -/
theorem splits_iff (floats : Floats serializers deserializers) (body : Bytes) :
    Splits serializers deserializers body ↔
      ¬ Truncated deserializers body ∧ ¬ Overflows serializers deserializers body := by
  rw [← splitFrames_panic]
  constructor
  · rintro ⟨⟨answer, done⟩, whole⟩
    constructor
    · rintro ⟨panic, panics⟩
      cases done.symm.trans panics
    · rintro ⟨before, large, after, rfl, more, oversized⟩
      obtain ⟨e, failed⟩ := splitFrames_overflows floats before more large oversized after
      cases (whole _ rfl).symm.trans failed
  · rintro ⟨safe, fits⟩
    constructor
    · cases done : splitFrames deserializers body with
      | error panic => exact absurd ⟨panic, done⟩ safe
      | ok answer => exact ⟨answer, rfl⟩
    · rintro frames rfl
      exact splitFrames_encoded floats frames fits

theorem Overflows.long {body : Bytes} (overflows : Overflows serializers deserializers body) :
    2 ^ 32 ≤ body.length := by
  obtain ⟨before, large, after, rfl, -, payload, serialized, long⟩ := overflows
  obtain ⟨payload', serialized', -, made⟩ := NpsFrameCodec.encode_ok large.encoded
  cases serialized.symm.trans serialized'
  rw [List.flatMap_append, List.flatMap_cons, made]
  simp only [List.length_append]
  omega

end Encoded

namespace Parts

def part : StreamFrame := ⟨"a", 0, .array [Json.integer 1], false⟩

def last : StreamFrame := ⟨"a", 1, .array [Json.integer 2], true⟩

def text (frame : StreamFrame) : Bytes := Text.utf8 (Json.Value.object frame.toDict).text

/-- The MessagePack form of such a frame, sequence number `n` and item `n + 1`. -/
def msgpack (isLast n : UInt8) : Bytes :=
  [0x84, 0xA9] ++ Text.utf8 "anchor_id" ++ [0xA1, 0x61, 0xA7] ++ Text.utf8 "is_last" ++ [isLast, 0xA7] ++
    Text.utf8 "payload" ++ [0x91, n + 1, 0xA3] ++ Text.utf8 "seq" ++ [n]

def serializers : Serializers where
  toVec value := .ok (Text.utf8 value.text)
  toVecNamed value := match (value.asObject.bind (Json.get "is_last")) with
    | some (.bool true) => .ok (msgpack 0xC3 1)
    | _ => .ok (msgpack 0xC2 0)
  float32 := Json.Number.single

/-- A reader of two documents. -/
def reads (one two bytes : Bytes) : Except String Json.Value :=
  if bytes = one then .ok (.object part.toDict)
  else if bytes = two then .ok (.object last.toDict)
  else .error "unexpected end of file"

def deserializers : Deserializers where
  fromJson := reads (text part) (text last)
  fromMsgpack := reads (msgpack 0xC2 0) (msgpack 0xC3 1)
  fromF64 negative magnitude := .float (Json.exactLiteral negative magnitude)

theorem floats : Floats serializers deserializers where
  narrows _ := rfl
  widens negative _ magnitude := Json.asF64_exactLiteral magnitude negative

theorem reads_one (one two : Bytes) : reads one two one = .ok (.object part.toDict) := if_pos rfl

theorem reads_two (one two : Bytes) (other : two ≠ one) :
    reads one two two = .ok (.object last.toDict) := by
  rw [reads, if_neg other, if_pos rfl]

theorem reads_cut {one two bytes front : Bytes} (first : ¬ one <+: bytes ∨ bytes = one)
    (second : ¬ two <+: bytes ∨ bytes = two) (shorter : front <+: bytes) (cut : front ≠ bytes) :
    ∃ e, reads one two front = .error e := by
  unfold reads
  rw [if_neg, if_neg]
  · exact ⟨_, rfl⟩
  · rintro rfl
    exact second.elim (· shorter) fun same => cut same.symm
  · rintro rfl
    exact first.elim (· shorter) fun same => cut same.symm

theorem part_reads : ReadsText serializers deserializers part.toDict where
  json := by
    rintro _ ⟨⟩
    exact reads_one (text part) (text last)
  msgpack := by
    rintro _ ⟨⟩
    exact reads_one (msgpack 0xC2 0) (msgpack 0xC3 1)
  refusesJson := by
    rintro _ front ⟨⟩ shorter cut
    exact reads_cut (.inr rfl) (.inl (by decide +kernel)) shorter cut
  refusesMsgpack := by
    rintro _ front ⟨⟩ shorter cut
    exact reads_cut (.inr rfl) (.inl (by decide +kernel)) shorter cut

theorem last_reads : ReadsText serializers deserializers last.toDict where
  json := by
    rintro _ ⟨⟩
    exact reads_two (text part) (text last) (by decide +kernel)
  msgpack := by
    rintro _ ⟨⟩
    exact reads_two (msgpack 0xC2 0) (msgpack 0xC3 1) (by decide +kernel)
  refusesJson := by
    rintro _ front ⟨⟩ shorter cut
    exact reads_cut (.inl (by decide +kernel)) (.inr rfl) shorter cut
  refusesMsgpack := by
    rintro _ front ⟨⟩ shorter cut
    exact reads_cut (.inl (by decide +kernel)) (.inr rfl) shorter cut

/-- A part as JSON, the last frame as MessagePack, and the part once more in the binary tier. -/
def opening : EncodedFrame serializers deserializers where
  frame := part
  wire := [0x03, 0x04, 0x00, 0x37] ++ text part
  maxPayload := 10 * 1024 * 1024
  tier := .json
  isFinal := true
  encoded := by decide +kernel
  reads := part_reads

def closing : EncodedFrame serializers deserializers where
  frame := last
  wire := [0x03, 0x05, 0x00, 0x25] ++ msgpack 0xC3 1
  maxPayload := 10 * 1024 * 1024
  tier := .msgPack
  isFinal := true
  encoded := by decide +kernel
  reads := last_reads

def late : EncodedFrame serializers deserializers where
  frame := part
  wire := [0x03, 0x06, 0x00, 0x35] ++ binaryVectorMagic ++ [binaryVectorVersion, 0] ++
    [0, 0, 0, 0, 0, 0x25, 0, 0, 0, 0] ++ msgpack 0xC2 0
  maxPayload := 10 * 1024 * 1024
  tier := .binaryVector
  isFinal := true
  encoded := by decide +kernel
  reads := part_reads

theorem not_truncated :
    ¬ Truncated deserializers (opening.wire ++ (closing.wire ++ late.wire)) := by
  have fits : ∀ encoded : EncodedFrame serializers deserializers, encoded.wire.length < 2 ^ 32 →
      ¬ encoded.Oversized := by
    intro encoded short large
    have := Overflows.long ⟨[], encoded, [], rfl, by simp, large⟩
    simp only [List.nil_append, List.flatMap_cons, List.flatMap_nil, List.append_nil] at this
    omega
  have first := opening.first floats (fits opening (by decide +kernel)) (closing.wire ++ late.wire)
  have second := closing.first floats (fits closing (by decide +kernel)) late.wire
  rw [truncated_iff, first]
  rintro (⟨panic, panics⟩ | ⟨frame, rest, found, -, short⟩)
  · cases panics
  · cases found
    rw [truncated_iff, second] at short
    obtain ⟨panic, panics⟩ | ⟨frame, rest, found, more, -⟩ := short
    · cases panics
    · cases found
      cases more

/-- The frames up to the last one are returned, and the one behind it is not. -/
theorem parts_split : Splits serializers deserializers (opening.wire ++ (closing.wire ++ late.wire)) ∧
    splitFrames deserializers (opening.wire ++ (closing.wire ++ late.wire)) = .ok (.ok [part, last]) := by
  have short : (opening.wire ++ (closing.wire ++ late.wire)).length < 2 ^ 32 := by decide +kernel
  have splits := (splits_iff floats (opening.wire ++ (closing.wire ++ late.wire))).mpr
    ⟨not_truncated, fun overflows => (overflows.long.trans_lt short).false⟩
  exact ⟨splits, splits.whole [opening, closing, late] (by simp)⟩

end Parts

namespace Headers

/-- A header announces 16 bytes, and none follow. -/
theorem short_panics : Floats (writes [0x80]) (readsBack [0x80] []) ∧
    ¬ ∀ body, Splits (writes [0x80]) (readsBack [0x80] []) body := by
  refine ⟨floats_table _ _, fun splits => ?_⟩
  obtain ⟨answer, done⟩ := (splits [0x03, 0x00, 0x00, 0x10]).safe
  have panics : splitFrames (readsBack [0x80] []) [0x03, 0x00, 0x00, 0x10] = .error .rangeEnd := by
    rw [splitFrames]
    rfl
  cases done.symm.trans panics

end Headers

end NwpClient
end Nps.Nwp
