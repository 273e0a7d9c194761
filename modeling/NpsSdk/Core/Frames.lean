import NpsSdk.Lib.Outcome
import NpsSdk.Lib.Text
import NpsSdk.Lib.Wire

/-! Errors shared by every layer of the SDK, frame types, encoding tiers and the wire header: four
bytes, or eight when the EXT flag is set. -/
namespace Nps.Core

inductive NpsError where
  | frame (message : String)
  | codec (message : String)
  | anchorNotFound (message : String)
  | anchorPoison (message : String)
  | identity (message : String)
  | io (message : String)
deriving DecidableEq, Repr

abbrev NpsResult (α : Type) := Except NpsError α

end Nps.Core

namespace Nps.Core
open Wire (Bytes bigEndian number)

inductive FrameType where
  | anchor | diff | stream | caps | hello | nop | query | action | ident | trust | revoke
  | announce | resolve | graph | task | delegate | sync | alignStream | error
deriving DecidableEq, Repr

namespace FrameType

def asU8 : FrameType → UInt8
  | anchor => 0x01
  | diff => 0x02
  | stream => 0x03
  | caps => 0x04
  | hello => 0x06
  | nop => 0x07
  | query => 0x10
  | action => 0x11
  | ident => 0x20
  | trust => 0x21
  | revoke => 0x22
  | announce => 0x30
  | resolve => 0x31
  | graph => 0x32
  | task => 0x40
  | delegate => 0x41
  | sync => 0x42
  | alignStream => 0x43
  | error => 0xFE

def fromU8 (v : UInt8) : NpsResult FrameType :=
  match v with
  | 0x01 => .ok anchor
  | 0x02 => .ok diff
  | 0x03 => .ok stream
  | 0x04 => .ok caps
  | 0x06 => .ok hello
  | 0x07 => .ok nop
  | 0x10 => .ok query
  | 0x11 => .ok action
  | 0x20 => .ok ident
  | 0x21 => .ok trust
  | 0x22 => .ok revoke
  | 0x30 => .ok announce
  | 0x31 => .ok resolve
  | 0x32 => .ok graph
  | 0x40 => .ok task
  | 0x41 => .ok delegate
  | 0x42 => .ok sync
  | 0x43 => .ok alignStream
  | 0xFE => .ok error
  | v => .error (.frame ("unknown frame type: 0x" ++ Text.upperHex 2 v.toNat))

@[simp] theorem fromU8_asU8 (type : FrameType) : fromU8 type.asU8 = .ok type := by
  cases type <;> rfl

end FrameType

inductive EncodingTier where
  | json | msgPack | binaryVector | reserved
deriving DecidableEq, Repr

def EncodingTier.asU8 : EncodingTier → UInt8
  | json => 0
  | msgPack => 1
  | binaryVector => 2
  | reserved => 3

/-- Flags: bits 0–1 tier, bit 2 FINAL, bit 3 ENC, bit 7 EXT. -/
structure FrameHeader where
  frameType : FrameType
  flags : UInt8
  payloadLength : Nat
  isExtended : Bool
deriving DecidableEq, Repr

namespace FrameHeader

def flagsFor (tier : EncodingTier) (isFinal isExtended : Bool) : UInt8 :=
  let flags := tier.asU8 &&& 0x03
  let flags := if isFinal then flags ||| 0x04 else flags
  if isExtended then flags ||| 0x80 else flags

def new (frameType : FrameType) (tier : EncodingTier) (isFinal : Bool) (payloadLength : Nat) :
    FrameHeader :=
  let isExtended := decide (payloadLength > 0xFFFF)
  { frameType, flags := flagsFor tier isFinal isExtended, payloadLength, isExtended }

def encodingTier (header : FrameHeader) : EncodingTier :=
  match header.flags &&& 0x03 with
  | 0 => .json
  | 1 => .msgPack
  | 2 => .binaryVector
  | _ => .reserved

def isFinal (header : FrameHeader) : Bool := header.flags &&& 0x04 != 0

def headerSize (header : FrameHeader) : Nat :=
  if header.isExtended then 8 else 4

def parse (wire : Bytes) : NpsResult FrameHeader :=
  match wire with
  | type :: flags :: b2 :: b3 :: rest => do
    let frameType ← FrameType.fromU8 type
    if flags &&& 0x80 != 0 then
      match rest with
      | b4 :: b5 :: b6 :: b7 :: _ =>
        return { frameType, flags, payloadLength := number [b4, b5, b6, b7], isExtended := true }
      | _ => throw (.frame "buffer too small for extended header")
    else
      return { frameType, flags, payloadLength := number [b2, b3], isExtended := false }
  | _ => throw (.frame "buffer too small for header")

/-- The length is narrowed to the width of its field. -/
def toBytes (header : FrameHeader) : Bytes :=
  if header.isExtended then
    [header.frameType.asU8, header.flags, 0, 0] ++ bigEndian 4 header.payloadLength
  else
    [header.frameType.asU8, header.flags] ++ bigEndian 2 header.payloadLength

def extBit (flags : UInt8) : Bool := flags &&& 0x80 != 0

theorem extBit_flagsFor (tier : EncodingTier) (isFinal isExtended : Bool) :
    extBit (flagsFor tier isFinal isExtended) = isExtended := by
  cases tier <;> cases isFinal <;> cases isExtended <;> rfl

theorem tier_flagsFor (tier : EncodingTier) (final extended : Bool) :
    flagsFor tier final extended &&& 0x03 = tier.asU8 := by
  cases tier <;> cases final <;> cases extended <;> rfl

@[simp] theorem encodingTier_new (type : FrameType) (tier : EncodingTier) (final : Bool)
    (length : Nat) : (new type tier final length).encodingTier = tier := by
  simp only [encodingTier, new, tier_flagsFor]
  cases tier <;> rfl

theorem final_flagsFor (tier : EncodingTier) (final extended : Bool) :
    (flagsFor tier final extended &&& 0x04 != 0) = final := by
  cases tier <;> cases final <;> cases extended <;> rfl

@[simp] theorem isFinal_new (type : FrameType) (tier : EncodingTier) (final : Bool)
    (length : Nat) : (new type tier final length).isFinal = final :=
  final_flagsFor tier final (decide (length > 0xFFFF))

@[simp] theorem toBytes_length (header : FrameHeader) :
    header.toBytes.length = header.headerSize := by
  unfold toBytes headerSize
  split <;> simp

/-- A header is parsed back from any bytes it starts, up to the width of its length field. -/
theorem parse_toBytes_new (type : FrameType) (tier : EncodingTier) (isFinal : Bool) (length : Nat)
    (rest : Bytes) :
    parse ((new type tier isFinal length).toBytes ++ rest) =
      .ok { new type tier isFinal length with
        payloadLength := if length > 0xFFFF then length % 2 ^ 32 else length } := by
  by_cases extended : length > 0xFFFF
  · have flag := extBit_flagsFor tier isFinal true
    have size := Wire.number_bigEndian 4 length
    simp only [bigEndian, List.nil_append, List.cons_append, Nat.reducePow] at size
    simp only [extBit] at flag
    simp [new, toBytes, extended, bigEndian, parse, flag, size, bind, Except.bind, pure, Except.pure]
  · have flag := extBit_flagsFor tier isFinal false
    have size : number (bigEndian 2 length) = length := Wire.number_fits (by omega)
    simp only [bigEndian, List.nil_append, List.cons_append] at size
    simp only [extBit] at flag
    simp [new, toBytes, extended, bigEndian, parse, flag, size, bind, Except.bind, pure, Except.pure]

theorem parse_half {type flags b2 b3 : UInt8} (extended : extBit flags = true)
    {header : FrameHeader} : parse [type, flags, b2, b3] ≠ .ok header := by
  intro parsed
  obtain ⟨_, -, parsed⟩ := Outcome.bind_ok.mp parsed
  simp only [extBit] at extended
  simp [extended, throw, throwThe, MonadExceptOf.throw] at parsed

end FrameHeader

/-- The types a codec lets through when it decodes. -/
structure FrameRegistry where
  registered : List UInt8 := []
deriving DecidableEq, Repr

namespace FrameRegistry

def register (registry : FrameRegistry) (type : FrameType) : FrameRegistry :=
  { registry with registered := registry.registered.insert type.asU8 }

def isRegistered (registry : FrameRegistry) (type : FrameType) : Bool :=
  registry.registered.contains type.asU8

def createDefault : FrameRegistry :=
  [.anchor, .diff, .stream, .caps, .hello, .error].foldl register {}

def createFull : FrameRegistry :=
  [.query, .action, .ident, .trust, .revoke, .announce, .resolve, .graph, .task, .delegate, .sync,
    .alignStream].foldl register createDefault

end FrameRegistry
end Nps.Core
