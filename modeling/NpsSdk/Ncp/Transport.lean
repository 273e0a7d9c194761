import NpsSdk.Core.RoundTrip
import NpsSdk.Ncp.Handshake

/-! The native transport: the client and the server of the three-step handshake and the live
session, each over its end of a byte stream. -/
namespace Nps.Ncp
open Nps.Core
open Wire (Bytes)

structure Stream where
  incoming : Bytes
  outgoing : Bytes := []
  room : ℕ
  shut : Bool := false

abbrev Transfer (ε α : Type) := ExceptT ε (StateM Stream) α

namespace Transfer
variable {ε α β : Type}

theorem ok_bind {x : Transfer ε α} {s s' : Stream} {value : α} (done : x s = (.ok value, s'))
    (next : α → Transfer ε β) : (x >>= next) s = next value s' := by
  change StateT.bind (m := Id) x (ExceptT.bindCont next) s = _
  simp only [StateT.bind, done]
  rfl

theorem error_bind {x : Transfer ε α} {s s' : Stream} {e : ε} (failed : x s = (.error e, s'))
    (next : α → Transfer ε β) : (x >>= next) s = (.error e, s') := by
  change StateT.bind (m := Id) x (ExceptT.bindCont next) s = _
  simp only [StateT.bind, failed]
  rfl

theorem bind_ok {x : Transfer ε α} {next : α → Transfer ε β} {s t : Stream} {result : β} :
    (x >>= next) s = (.ok result, t) ↔
      ∃ value s', x s = (.ok value, s') ∧ next value s' = (.ok result, t) := by
  cases read : x s with
  | mk outcome s' =>
    cases outcome with
    | ok value =>
      rw [ok_bind read]
      constructor
      · intro rest
        exact ⟨value, s', rfl, rest⟩
      · rintro ⟨_, _, same, rest⟩
        cases same
        exact rest
    | error e =>
      rw [error_bind read]
      constructor
      · intro failed
        cases failed
      · rintro ⟨_, _, same, -⟩
        cases same

end Transfer

def lift {ε α : Type} (result : Except ε α) : Transfer ε α := fun s => (result, s)

def readExact (count : ℕ) : Transfer NpsError Bytes := fun s =>
  if count ≤ s.incoming.length then
    (.ok (s.incoming.take count), { s with incoming := s.incoming.drop count })
  else (.error (.io "early eof"), { s with incoming := [] })

def writeAll (bytes : Bytes) : Transfer NpsError Unit := fun s =>
  if bytes.length ≤ s.room then
    (.ok (), { s with outgoing := s.outgoing ++ bytes, room := s.room - bytes.length })
  else
    (.error (.io "Broken pipe (os error 32)"),
      { s with outgoing := s.outgoing ++ bytes.take s.room, room := 0 })

def shutdown : Transfer NpsError Unit := fun s => (.ok (), { s with room := 0, shut := true })

def headerRest (second : UInt8) : ℕ := if second &&& 0x80 != 0 then 6 else 2

def readFrameHeader : Transfer NpsError (FrameHeader × Bytes) := do
  let peek ← readExact 2
  let rest ← readExact (headerRest (peek.getD 1 0))
  let raw := peek ++ rest
  let header ← lift (FrameHeader.parse raw)
  return (header, raw)

section Codecs
variable (serializers : Serializers) (deserializers : Deserializers)

def decodeHandshakePayload (header : FrameHeader) (payload : Bytes) : NpsResult FrameDict :=
  match header.encodingTier with
  | .json => decodeJson deserializers payload
  | .msgPack => decodeMsgpack deserializers payload
  | .binaryVector => decodeBinaryVector deserializers payload
  | .reserved => throw (.codec "Unsupported handshake encoding tier: reserved (0x03).")

def encodeFrame (frameType : FrameType) (dict : FrameDict) (tier : EncodingTier) :
    NpsResult Bytes := do
  let payload ← NpsFrameCodec.encodePayload serializers dict tier
  return (FrameHeader.new frameType tier true payload.length).toBytes ++ payload

structure NcpSession where
  serverCaps : CapsFrame
  policy : NcpEncodingPolicy

namespace NcpSession

def sendFrame (session : NcpSession) (frameType : FrameType) (dict : FrameDict)
    (tier : EncodingTier) : Transfer NpsError Unit := do
  let wire ← lift (encodeFrame serializers frameType dict tier)
  let header ← lift (FrameHeader.parse wire)
  lift (session.policy.ensureAllows header)
  writeAll wire

def recvFrame (session : NcpSession) : Transfer NpsError (Option (FrameType × FrameDict)) := fun s =>
  match readExact 1 s with
  | (.error _, s) => (.ok none, s)
  | (.ok first, s) => (do
      let second ← readExact 1
      let rest ← readExact (headerRest (second.getD 0 0))
      let header ← lift (FrameHeader.parse (first ++ second ++ rest))
      lift (session.policy.ensureAllows header)
      let payload ← readExact header.payloadLength
      let dict ← lift (decodeHandshakePayload deserializers header payload)
      return some (header.frameType, dict) : Transfer NpsError _) s

end NcpSession

structure NcpHandshakeError where
  errorCode : String
  message : String

inductive ConnectError where
  | handshake (error : NcpHandshakeError)
  | nps (error : NpsError)

/-- Transport and codec failures of the handshake. -/
def orNps {α : Type} (transfer : Transfer NpsError α) : Transfer ConnectError α := fun s =>
  let (result, s) := transfer s
  (result.mapError .nps, s)

def sendHello (hello : HelloFrame) : Transfer ConnectError Unit := do
  orNps (writeAll preamble)
  let wire ← orNps (lift (encodeFrame serializers .hello hello.toDict .json))
  orNps (writeAll wire)

/-- The server's answer, which decides the session's parameters or rejects it. -/
def receiveCaps : Transfer ConnectError NcpSession := do
  let (header, _) ← orNps readFrameHeader
  let payload ← orNps (readExact header.payloadLength)
  if header.frameType = .error then
    let dict ← orNps (lift (decodeHandshakePayload deserializers header payload))
    let err ← orNps (lift (ErrorFrame.fromDict dict))
    lift (.error (.handshake ⟨err.errorCode, err.message⟩))
  else if header.frameType ≠ .caps then
    let expected := Text.upperHex 2 FrameType.caps.asU8.toNat
    let got := Text.upperHex 2 header.frameType.asU8.toNat
    lift (.error (.handshake ⟨"NCP-HANDSHAKE-UNEXPECTED-FRAME",
      s!"Expected CapsFrame (0x{expected}), got 0x{got}."⟩))
  else
    let negotiatedTier := header.encodingTier
    let dict ← orNps (lift (decodeHandshakePayload deserializers header payload))
    let caps ← orNps (lift (CapsFrame.fromDict dict))
    return ⟨caps, .fromEnabledEncodings negotiatedTier caps.enabledEncodings⟩

def connectDetailed (hello : HelloFrame) : Transfer ConnectError NcpSession := do
  sendHello serializers hello
  receiveCaps deserializers

structure NcpServerConnection where
  clientHello : HelloFrame
  handshakeProfile : NcpHandshakeProfile

namespace NcpServerConnection

def reject (error : ErrorFrame) : Transfer NpsError Unit := do
  let wire ← lift (encodeFrame serializers .error error.toDict .json)
  fun s =>
    let (result, s) := writeAll wire s
    (result, (shutdown s).2)

def negotiated (caps : CapsFrame) (decision : NcpHandshakeDecision) : CapsFrame :=
  { caps with
    sessionVersion := decision.sessionVersion
    negotiatedEncoding := decision.negotiatedEncoding
    enabledEncodings := decision.enabledEncodings
    supportedProtocols := decision.supportedProtocols
    maxFramePayload := decision.maxFramePayload
    extSupport := decision.extSupport
    maxConcurrentStreams := decision.maxConcurrentStreams }

def serverPolicy (decision : NcpHandshakeDecision) : NcpEncodingPolicy where
  defaultTier := if decision.negotiatedEncoding = some "msgpack" then .msgPack else .json
  binaryVectorEnabled := (decision.enabledEncodings.getD []).contains "binary_vector.v1"

def accept (connection : NcpServerConnection) (serverCaps : CapsFrame) :
    Transfer NpsError NcpSession := do
  let negotiation := negotiateHandshake connection.handshakeProfile connection.clientHello
  if negotiation.action ≠ .accept then
    let errorCode := negotiation.error.getD "NCP-VERSION-INCOMPATIBLE"
    let status := negotiation.status.getD "NPS-PROTO-VERSION-INCOMPATIBLE"
    reject serializers {
      errorCode
      message := "Native NCP handshake negotiation failed."
      detail := some (.object [("status", .string status)]) }
    lift (.error (.frame s!"[{errorCode}] Native NCP handshake negotiation failed."))
  else
    let policy := serverPolicy negotiation
    let serverCaps := negotiated serverCaps negotiation
    let wire ← lift (encodeFrame serializers .caps serverCaps.toDict policy.defaultTier)
    writeAll wire
    return ⟨serverCaps, policy⟩

end NcpServerConnection
end Codecs
end Nps.Ncp
