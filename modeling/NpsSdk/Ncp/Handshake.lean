import NpsSdk.Ncp.Frames
import Mathlib.Data.Prod.Lex

/-! The portable handshake decisions: preamble admission, the hello header and the negotiation
of a decoded hello against the server's profile; and the encoding policy of a session. -/
namespace Nps.Ncp
open Nps.Core
open Wire (Bytes)

def binaryVectorToken : String := "binary_vector.v1"

structure NcpEncodingPolicy where
  /-- The stable default encoding tier of ordinary session frames. -/
  defaultTier : EncodingTier
  binaryVectorEnabled : Bool
deriving DecidableEq, Repr

namespace NcpEncodingPolicy

def encodingToken : EncodingTier → String
  | .json => "json"
  | .msgPack => "msgpack"
  | .binaryVector => binaryVectorToken
  | .reserved => "unknown:3"

def enabledEncodings (policy : NcpEncodingPolicy) : List String :=
  if policy.binaryVectorEnabled then [encodingToken policy.defaultTier, binaryVectorToken]
  else [encodingToken policy.defaultTier]

def isBinaryVectorFrame (frameType : FrameType) : Bool := frameType == .query

def allows (policy : NcpEncodingPolicy) (tier : EncodingTier) (frameType : FrameType) : Bool :=
  tier == policy.defaultTier ||
    (tier == .binaryVector && policy.binaryVectorEnabled && isBinaryVectorFrame frameType)

def ensureAllows (policy : NcpEncodingPolicy) (header : FrameHeader) : NpsResult Unit :=
  if policy.allows header.encodingTier header.frameType then return ()
  else
    let enabled := String.intercalate ", " policy.enabledEncodings
    let used := encodingToken header.encodingTier
    let type := Text.upperHex 2 header.frameType.asU8.toNat
    throw (.codec (s!"Frame type 0x{type} used {used}, " ++
      s!"but the negotiated session policy allows {enabled}."))

/-- The policy a peer derives from the list that a capability frame advertises. -/
def fromEnabledEncodings (defaultTier : EncodingTier) (enabled : Option (List String)) :
    NcpEncodingPolicy where
  defaultTier
  binaryVectorEnabled := (enabled.getD []).contains binaryVectorToken

end NcpEncodingPolicy

/-- Major and minor, compared in this order. -/
abbrev Version := ℕ ×ₗ ℕ

def dropPlus : List Char → List Char
  | '+' :: rest => rest
  | chars => chars

/-- `u64::from_str`: an optional plus sign and decimal digits. -/
def parseU64 (text : String) : Option ℕ :=
  let digits := dropPlus text.toList
  if digits ≠ [] ∧ digits.all Char.isDigit then
    let n := Nat.ofDigitChars 10 digits 0
    if n < 2 ^ 64 then some n else none
  else none

def parseVersion (value : String) : Option Version :=
  match Text.split '.' value with
  | [major, minor] => do
    let major ← parseU64 major
    let minor ← parseU64 minor
    return toLex (major, minor)
  | _ => none

def Version.text (version : Version) : String :=
  String.ofList (Nat.toDigits 10 (ofLex version).1 ++ '.' :: Nat.toDigits 10 (ofLex version).2)

structure NcpHandshakeProfile where
  minVersion : String := "0.1"
  npsVersion : String := "0.11"
  supportedEncodings : List String := ["msgpack", "json", "binary_vector.v1"]
  supportedProtocols : List String := ["ncp", "nwp", "nip", "ndp", "nop"]
  maxFramePayload : UInt64 := 0xFFFF
  extSupport : Bool := false
  maxConcurrentStreams : UInt64 := 32
deriving DecidableEq

inductive NcpHandshakeAction where
  | continue_ | accept | silentClose | errorClose
deriving DecidableEq, Repr

structure NcpHandshakeDecision where
  action : NcpHandshakeAction
  status : Option String := none
  error : Option String := none
  diagnosticError : Option String := none
  sessionVersion : Option String := none
  negotiatedEncoding : Option String := none
  enabledEncodings : Option (List String) := none
  supportedProtocols : Option (List String) := none
  maxFramePayload : Option UInt64 := none
  extSupport : Option Bool := none
  maxConcurrentStreams : Option UInt64 := none
deriving DecidableEq

def NcpHandshakeDecision.versionError : NcpHandshakeDecision where
  action := .errorClose
  status := some "NPS-PROTO-VERSION-INCOMPATIBLE"
  error := some "NCP-VERSION-INCOMPATIBLE"

def NcpHandshakeDecision.encodingError : NcpHandshakeDecision where
  action := .errorClose
  status := some "NPS-SERVER-ENCODING-UNSUPPORTED"
  error := some "NCP-ENCODING-UNSUPPORTED"

def preamble : Bytes := Text.utf8 "NPS/1.0\n"

def versionRanges (server : NcpHandshakeProfile) (client : HelloFrame) :
    Option (Version × Version × Version × Version) := do
  let serverMin ← parseVersion server.minVersion
  let serverMax ← parseVersion server.npsVersion
  let clientMin ← parseVersion (client.minVersion.getD client.npsVersion)
  let clientMax ← parseVersion client.npsVersion
  return (serverMin, serverMax, clientMin, clientMax)

def overlapMax (server : NcpHandshakeProfile) (client : HelloFrame) : Option Version := do
  let (serverMin, serverMax, clientMin, clientMax) ← versionRanges server client
  if serverMin > serverMax ∨ clientMin > clientMax then none
  else if max serverMin clientMin > min serverMax clientMax then none
  else some (min serverMax clientMax)

def stableEncoding (server : NcpHandshakeProfile) (client : HelloFrame) : Option String :=
  client.supportedEncodings.find? fun token =>
    (token == "msgpack" || token == "json") && server.supportedEncodings.contains token

def commonProtocols (server : NcpHandshakeProfile) (client : HelloFrame) : List String :=
  (client.supportedProtocols.filter server.supportedProtocols.contains).eraseDups

def negotiateHandshake (server : NcpHandshakeProfile) (client : HelloFrame) :
    NcpHandshakeDecision :=
  match overlapMax server client with
  | none => .versionError
  | some version =>
    match stableEncoding server client with
    | none => .encodingError
    | some stable =>
      let protocols := commonProtocols server client
      if ¬ protocols.contains "ncp" ∨ client.maxFramePayload = 0 ∨ server.maxFramePayload = 0 ∨
          client.maxConcurrentStreams = 0 ∨ server.maxConcurrentStreams = 0 then .versionError
      else
        let extension := server.supportedEncodings.contains "binary_vector.v1" &&
          client.supportedEncodings.contains "binary_vector.v1"
        { action := .accept
          sessionVersion := some (Version.text version)
          negotiatedEncoding := some stable
          enabledEncodings := some (stable :: if extension then ["binary_vector.v1"] else [])
          supportedProtocols := some protocols
          maxFramePayload := some (min server.maxFramePayload client.maxFramePayload)
          extSupport := some (server.extSupport && client.extSupport)
          maxConcurrentStreams :=
            some (min server.maxConcurrentStreams client.maxConcurrentStreams) }

end Nps.Ncp
