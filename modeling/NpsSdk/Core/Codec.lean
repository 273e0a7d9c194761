import NpsSdk.Core.Frames
import NpsSdk.Lib.JsonNumber

/-! `NpsFrameCodec`: serialize the dictionary at the requested tier, check the payload
limit and put the header in front; and back. -/
namespace Nps.Core
open Wire (Bytes bigEndian number)

abbrev FrameDict := Json.Fields

/-- The third-party serializers: `serde_json::to_vec`, `rmp_serde::to_vec_named` and the
IEEE-754 single of a JSON number (`as_f64`, finite, `as f32`). -/
structure Serializers where
  toVec : Json.Value → Except String Bytes
  toVecNamed : Json.Value → Except String Bytes
  float32 : Json.Number → Option UInt32

section
variable (serializers : Serializers)

def encodeJson (dict : FrameDict) : NpsResult Bytes :=
  (serializers.toVec (.object dict)).mapError .codec

def encodeMsgpack (dict : FrameDict) : NpsResult Bytes :=
  (serializers.toVecNamed (.object dict)).mapError .codec

def binaryVectorMagic : Bytes := [0x4E, 0x50, 0x42, 0x56]
def binaryVectorVersion : UInt8 := 1
def binaryVectorMarker : String := "$nps_binary_vector"

def vectorElements : List Json.Value → Option (List UInt32)
  | [] => some []
  | .number value :: rest => do
    let bits ← serializers.float32 value
    let others ← vectorElements rest
    return bits :: others
  | _ => none

/-- Move `vector_search.vector` out of the metadata, leaving a marker in its place. -/
def extractVectorSearchVector (metadata : FrameDict) : FrameDict × List (List UInt32) :=
  match Json.get "vector_search" metadata with
  | some (.object vectorSearch) =>
    match Json.get "vector" vectorSearch with
    | some (.array values) =>
      match vectorElements serializers values with
      | some vector =>
        let marker := Json.insert "dim" (.number (.int vector.length))
          (Json.insert "dtype" (.string "float32")
            (Json.insert binaryVectorMarker (.number (.int 0)) []))
        (Json.insert "vector_search" (.object (Json.insert "vector" (.object marker) vectorSearch))
          metadata, [vector])
      | none => (metadata, [])
    | _ => (metadata, [])
  | _ => (metadata, [])

def segment (vector : List UInt32) : Bytes :=
  bigEndian 4 vector.length ++ vector.flatMap (fun bits => (bigEndian 4 bits.toNat).reverse)

def encodeBinaryVector (dict : FrameDict) : NpsResult Bytes := do
  let (metadata, vectors) := extractVectorSearchVector serializers dict
  if vectors.length > 0xFFFF then
    throw (.codec "binary vector supports at most 65535 vectors per frame")
  let metadataBytes ← (serializers.toVecNamed (.object metadata)).mapError .codec
  return binaryVectorMagic ++ [binaryVectorVersion, 0] ++ bigEndian 2 vectors.length ++
    bigEndian 4 metadataBytes.length ++ bigEndian 4 0 ++ metadataBytes ++ vectors.flatMap segment

end

/-- `serde_json::from_slice`, `rmp_serde::from_slice` and `Number::from_f64` of a finite value,
given by its sign and its magnitude. -/
structure Deserializers where
  fromJson : Bytes → Except String Json.Value
  fromMsgpack : Bytes → Except String Json.Value
  fromF64 : Bool → ℚ → Json.Number

section
variable (deserializers : Deserializers)

def decodeJson (payload : Bytes) : NpsResult FrameDict := do
  match ← (deserializers.fromJson payload).mapError .codec with
  | .object dict => return dict
  | _ => throw (.codec "expected JSON object")

def decodeMsgpack (payload : Bytes) : NpsResult FrameDict := do
  match ← (deserializers.fromMsgpack payload).mapError .codec with
  | .object dict => return dict
  | _ => throw (.codec "expected MsgPack map")

def readSingles : Nat → Bytes → List UInt32
  | dim + 1, b0 :: b1 :: b2 :: b3 :: rest =>
    .ofNat (number [b3, b2, b1, b0]) :: readSingles dim rest
  | _, _ => []

def readSegments : Nat → Bytes → NpsResult (List (List UInt32) × Bytes)
  | 0, rest => return ([], rest)
  | count + 1, d0 :: d1 :: d2 :: d3 :: rest => do
    let dim := number [d0, d1, d2, d3]
    if rest.length < dim * 4 then throw (.codec "binary vector segment is truncated")
    let (vectors, rest') ← readSegments count (rest.drop (dim * 4))
    return (readSingles dim rest :: vectors, rest')
  | _ + 1, _ => throw (.codec "binary vector segment missing dimension")

def singleNumber (bits : UInt32) : Option Json.Number :=
  (Binary32.value (bits.toNat % 2 ^ 31)).map (deserializers.fromF64 (2 ^ 31 ≤ bits.toNat))

def restoreValues : List UInt32 → NpsResult (List Json.Value)
  | [] => return []
  | bits :: rest => do
    match singleNumber deserializers bits with
    | some value => return .number value :: (← restoreValues rest)
    | none => throw (.codec "binary vector values must be finite float32")

/-- Put the vector that the marker refers to back in its place. -/
def restoreVectorSearchVector (metadata : FrameDict) (vectors : List (List UInt32)) :
    NpsResult FrameDict :=
  match Json.get "vector_search" metadata with
  | some (.object vectorSearch) =>
    match Json.get "vector" vectorSearch with
    | none => return metadata
    | some (.object marker) =>
      match (Json.get binaryVectorMarker marker).bind Json.Value.asU64 with
      | none => throw (.codec "binary vector marker missing vector index")
      | some index =>
        match vectors[index]? with
        | none => throw (.codec (s!"binary vector marker references vector {index}, but only " ++
            s!"{vectors.length} vectors are present"))
        | some vector => do
          if (Json.get "dtype" marker).bind Json.Value.asStr ≠ some "float32" then
            throw (.codec "binary vector v1 only supports dtype=float32")
          if (Json.get "dim" marker).bind Json.Value.asU64 ≠ some vector.length then
            throw (.codec "binary vector marker dimension does not match vector segment")
          let values ← restoreValues deserializers vector
          return Json.insert "vector_search"
            (.object (Json.insert "vector" (.array values) vectorSearch)) metadata
    | some _ => throw (.codec "binary vector marker must be an object")
  | _ => return metadata

def decodeSections (vectorCount metadataLen : Nat) (rest : Bytes) : NpsResult FrameDict := do
  if metadataLen > rest.length then
    throw (.codec "binary vector metadata length exceeds payload length")
  match ← (deserializers.fromMsgpack (rest.take metadataLen)).mapError .codec with
  | .object metadata =>
    let (vectors, trailing) ← readSegments vectorCount (rest.drop metadataLen)
    if trailing ≠ [] then throw (.codec "binary vector payload has trailing bytes")
    restoreVectorSearchVector deserializers metadata vectors
  | _ => throw (.codec "binary vector metadata root must be a map")

def decodeBinaryVector (payload : Bytes) : NpsResult FrameDict :=
  match payload with
  | m0 :: m1 :: m2 :: m3 :: version :: flags :: c0 :: c1 :: l0 :: l1 :: l2 :: l3 ::
      r0 :: r1 :: r2 :: r3 :: rest => do
    if [m0, m1, m2, m3] ≠ binaryVectorMagic then
      throw (.codec "binary vector payload magic mismatch")
    if version ≠ binaryVectorVersion then
      throw (.codec s!"unsupported binary vector version: {version}")
    if flags ≠ 0 ∨ number [r0, r1, r2, r3] ≠ 0 then
      throw (.codec "binary vector reserved fields must be zero")
    decodeSections deserializers (number [c0, c1]) (number [l0, l1, l2, l3]) rest
  | _ => throw (.codec s!"binary vector payload too short: {payload.length} bytes")

def decodePayload (payload : Bytes) : EncodingTier → NpsResult FrameDict
  | .json => decodeJson deserializers payload
  | .msgPack => decodeMsgpack deserializers payload
  | .binaryVector => decodeBinaryVector deserializers payload
  | .reserved => throw (.codec "reserved encoding tier 0x03")

end

structure NpsFrameCodec where
  registry : FrameRegistry
  maxPayload : Nat := 10 * 1024 * 1024

section
variable (serializers : Serializers) (deserializers : Deserializers)

namespace NpsFrameCodec

def encodePayload (dict : FrameDict) : EncodingTier → NpsResult Bytes
  | .json => encodeJson serializers dict
  | .msgPack => encodeMsgpack serializers dict
  | .binaryVector => encodeBinaryVector serializers dict
  | .reserved => .error (.codec "reserved encoding tier 0x03")

def encode (codec : NpsFrameCodec) (frameType : FrameType) (dict : FrameDict)
    (tier : EncodingTier) (isFinal : Bool) : NpsResult Bytes := do
  let payload ← encodePayload serializers dict tier
  if payload.length > codec.maxPayload then
    throw (.codec s!"payload {payload.length} exceeds max {codec.maxPayload}")
  let header := FrameHeader.new frameType tier isFinal payload.length
  return header.toBytes ++ payload

def decode (codec : NpsFrameCodec) (wire : Bytes) : NpsResult (FrameType × FrameDict) := do
  let header ← FrameHeader.parse wire
  if wire.length < header.headerSize + header.payloadLength then
    throw (.codec "wire too short for declared payload")
  let payload := (wire.drop header.headerSize).take header.payloadLength
  let dict ← decodePayload deserializers payload header.encodingTier
  if ¬ codec.registry.isRegistered header.frameType then
    throw (.frame ("unregistered frame type 0x" ++ Text.upperHex 2 header.frameType.asU8.toNat))
  return (header.frameType, dict)

variable {serializers} {codec : NpsFrameCodec} {frameType : FrameType} {dict : FrameDict}
variable {tier : EncodingTier} {isFinal : Bool} {wire : Bytes}

theorem encode_ok (encoded : codec.encode serializers frameType dict tier isFinal = .ok wire) :
    ∃ payload, encodePayload serializers dict tier = .ok payload ∧
      payload.length ≤ codec.maxPayload ∧
      wire = (FrameHeader.new frameType tier isFinal payload.length).toBytes ++ payload := by
  obtain ⟨payload, serialized, encoded⟩ := Outcome.bind_ok.mp encoded
  refine ⟨payload, serialized, ?_⟩
  split at encoded
  · contradiction
  · cases encoded
    exact ⟨by omega, rfl⟩

end NpsFrameCodec
end
end Nps.Core
