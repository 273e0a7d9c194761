import NpsSdk.Lib.Rely
import NpsSdk.Nip.Acme.Steps

/-! The ACME client with the `agent-01` challenge. It signs each message with the nonce that the
server gave it last, and goes on with the URLs that the answers name. -/
namespace Nps.Nip.Acme
open Json
open Wire (Bytes)

def Jwk.toValue (jwk : Jwk) : Value :=
  .object [("kty", .string jwk.kty), ("crv", .string jwk.crv), ("x", .string jwk.x)]

def ProtectedHeader.toValue (header : ProtectedHeader) : Value :=
  .object ([("alg", .string header.alg), ("nonce", .string header.nonce), ("url", .string header.url)] ++
    skipNone "jwk" (header.jwk.map Jwk.toValue) ++ skipNone "kid" (header.kid.map .string))

def Envelope.toValue (env : Envelope) : Value :=
  .object [("protected", .string env.protectedHeader), ("payload", .string env.payload),
    ("signature", .string env.signature)]

def newAccountPayload : Value := .object [("termsOfServiceAgreed", .bool true)]

def newOrderPayload (identifiers : List Identifier) : Value :=
  .object [("identifiers", .array (identifiers.map Identifier.toValue))]

def challengeRespondPayload (agentSignature : String) : Value :=
  .object [("agent_signature", .string agentSignature)]

def finalizePayload (csr : String) : Value := .object [("csr", .string csr)]

structure Directory where
  newNonce : String
  newAccount : String
  newOrder : String

structure OrderMessage where
  authorizations : List String
  finalize : String
  certificate : Option String

structure ChallengeMessage where
  type : String
  url : String
  token : String

structure AuthorizationMessage where
  challenges : List ChallengeMessage

structure CsrParams where
  commonName : String
  sanUris : List String

/-- The derived readers of the answers, the parts of the certificate library that requests are made
with, and the display of a status code. -/
class ClientLibrary [Ed25519] where
  directory : String → Except String Directory
  order : String → Except String OrderMessage
  authorization : String → Except String AuthorizationMessage
  keyPair : Ed25519.SigningKey → Except String Unit
  checkNames : List String → Except String Unit
  checkUri : String → Except String Unit
  serializeRequest : CsrParams → Ed25519.SigningKey → Except String Bytes
  displayStatus : Nat → String

structure HttpCall where
  method : Method
  url : String
  contentType : Option String := none
  body : String := ""

abbrev HttpAnswer (_ : HttpCall) : Type := Except String Response

def visible (c : Char) : Bool := (32 ≤ c.toNat && c.toNat < 127) || c == '\t'

namespace Response
variable (response : Response)

def header (name : String) : Option String :=
  ((response.headers.find? fun header => Text.lowerAscii header.1 == Text.lowerAscii name).map
    Prod.snd).filter fun value => value.toList.all visible

def isSuccess : Bool := 200 ≤ response.status && response.status < 300

end Response

/-- What stops the client: an `unwrap` or an index without a value, or an error. -/
inductive Failure where
  | panicked
  | message (text : String)

section
variable [Ed25519]

structure AcmeClient where
  directoryUrl : String
  signingKey : Ed25519.SigningKey
  verifyingKey : Ed25519.VerifyingKey
  directory : Option Directory
  accountUrl : Option String
  lastNonce : Option String

abbrev ClientM := Rely.Task HttpAnswer Failure AcmeClient

abbrev send (call : HttpCall) : ClientM (Except String Response) := Rely.ask call

def jwkFromPublicKey (raw : Key32) : Jwk := ⟨"OKP", "Ed25519", b64uEncode raw.val⟩

/-- There is no payload where a message only reads. -/
def sign (header : ProtectedHeader) (payload : Option Value) (key : Ed25519.SigningKey) : Envelope :=
  let headerB64u := b64uEncode (Text.utf8 header.toValue.text)
  let payloadB64u := match payload with
    | some value => b64uEncode (Text.utf8 value.text)
    | none => ""
  { protectedHeader := headerB64u
    payload := payloadB64u
    signature := b64uEncode (Ed25519.sign key (Text.utf8 (headerB64u ++ "." ++ payloadB64u))).val }

def okOrMessage {α : Type} (message : String) : Option α → ClientM α
  | some value => return value
  | none => throw (.message message)

def unwrap {α : Type} : Option α → ClientM α
  | some value => return value
  | none => throw .panicked

def orMessage {α : Type} : Except String α → ClientM α
  | .ok value => return value
  | .error e => throw (.message e)

/-- The text goes in front of what went wrong. -/
def context {α : Type} (label : String) (result : Except String α) : ClientM α :=
  orMessage (result.mapError ((label ++ ": ") ++ ·))

@[simp] theorem context_ok {α : Type} (label : String) (value : α) :
    context label (.ok value) = pure value := rfl

@[simp] theorem okOrMessage_some {α : Type} (message : String) (value : α) :
    okOrMessage message (some value) = pure value := rfl

@[simp] theorem unwrap_some {α : Type} (value : α) : unwrap (some value) = pure value := rfl

def AcmeClient.new (directoryUrl : String) (key : Ed25519.SigningKey) : AcmeClient where
  directoryUrl := directoryUrl
  signingKey := key
  verifyingKey := Ed25519.verifyingKey key
  directory := none
  accountUrl := none
  lastNonce := none

namespace AcmeClient

/-- The nonce stays with the client until an answer brings the next one. -/
def consumeLastNonce : ClientM String := do
  okOrMessage "no nonce available" (← get).lastNonce

def captureNonce (response : Response) : ClientM Unit :=
  match response.header "Replay-Nonce" with
  | some nonce => modify fun client => { client with lastNonce := some nonce }
  | none => return ()

def postJose (url : String) (env : Envelope) : ClientM Response := do
  let sent ← send
    { method := .post, url, contentType := some "application/jose+json", body := env.toValue.text }
  context ("POST " ++ url) sent

def refreshNonce : ClientM Unit := do
  let directory ← unwrap (← get).directory
  let sent ← send { method := .head, url := directory.newNonce }
  let response ← context "HEAD newNonce" sent
  let nonce ← okOrMessage "server omitted Replay-Nonce" (response.header "Replay-Nonce")
  modify fun client => { client with lastNonce := some nonce }

variable [ClientLibrary]

def checkStatus (label : String) (response : Response) : ClientM Unit :=
  if response.isSuccess then return ()
  else throw (.message (label ++ ": HTTP " ++ ClientLibrary.displayStatus response.status))

def ensureDirectory : ClientM Unit := do
  if (← get).directory.isSome then return ()
  let sent ← send { method := .get, url := (← get).directoryUrl }
  let response ← context "get directory" sent
  checkStatus "get directory" response
  let directory ← context "decode directory" (ClientLibrary.directory response.body)
  modify fun client => { client with directory := some directory }
  refreshNonce

/-- What every signed message does: it is signed with the nonce and posted, and its answer has to be a
success. -/
def postSigned (nonce label url : String) (jwk : Option Jwk) (kid : Option String) (payload : Option Value) :
    ClientM Response := do
  let client ← get
  let response ← postJose url (sign { alg := "EdDSA", nonce, url, jwk, kid } payload client.signingKey)
  checkStatus label response
  return response

def newAccount : ClientM Unit := do
  let jwk := jwkFromPublicKey (Ed25519.asBytes (← get).verifyingKey)
  let nonce ← consumeLastNonce
  let directory ← unwrap (← get).directory
  let response ← postSigned nonce "newAccount" directory.newAccount (some jwk) none (some newAccountPayload)
  let accountUrl ← okOrMessage "server omitted account Location header" (response.header "Location")
  captureNonce response
  modify fun client => { client with accountUrl := some accountUrl }

def newOrder (nid : String) : ClientM OrderMessage := do
  let nonce ← consumeLastNonce
  let directory ← unwrap (← get).directory
  let kid := (← get).accountUrl
  let response ← postSigned nonce "newOrder" directory.newOrder none kid
    (some (newOrderPayload [⟨"nid", nid⟩]))
  captureNonce response
  context "decode order" (ClientLibrary.order response.body)

def fetchAuthz (url : String) : ClientM AuthorizationMessage := do
  let nonce ← consumeLastNonce
  let response ← postSigned nonce "fetch authz" url none (← get).accountUrl none
  captureNonce response
  context "decode authz" (ClientLibrary.authorization response.body)

def respondAgent01 (authz : AuthorizationMessage) : ClientM Unit := do
  let challenge ← okOrMessage "authz has no agent-01 challenge"
    (authz.challenges.find? fun challenge => challenge.type == "agent-01")
  let agentSig := Ed25519.sign (← get).signingKey (Text.utf8 challenge.token)
  let nonce ← consumeLastNonce
  let response ← postSigned nonce "challenge" challenge.url none (← get).accountUrl
    (some (challengeRespondPayload (b64uEncode agentSig.val)))
  captureNonce response

def buildCsr (key : Ed25519.SigningKey) (nid : String) : Except String Bytes := do
  (ClientLibrary.keyPair key).mapError ("dalek→rcgen: " ++ ·)
  (ClientLibrary.checkNames [nid]).mapError ("CSR params: " ++ ·)
  (ClientLibrary.checkUri nid).mapError ("SAN URI: " ++ ·)
  (ClientLibrary.serializeRequest { commonName := nid, sanUris := [nid] } key).mapError
    ("serialize_request: " ++ ·)

def finalizeOrder (order : OrderMessage) (nid : String) : ClientM OrderMessage := do
  let csrDer ← orMessage (buildCsr (← get).signingKey nid)
  let nonce ← consumeLastNonce
  let response ← postSigned nonce "finalize" order.finalize none (← get).accountUrl
    (some (finalizePayload (b64uEncode csrDer)))
  captureNonce response
  context "decode finalized order" (ClientLibrary.order response.body)

def downloadPem (certUrl : String) : ClientM String := do
  let nonce ← consumeLastNonce
  let response ← postSigned nonce "download cert" certUrl none (← get).accountUrl none
  captureNonce response
  return response.body

/-- The whole flow for one identifier; an account is made once. -/
def issueAgentCert (nid : String) : ClientM String := do
  ensureDirectory
  if (← get).accountUrl.isNone then newAccount
  let order ← newOrder nid
  let authz ← fetchAuthz (← unwrap order.authorizations.head?)
  respondAgent01 authz
  let finalized ← finalizeOrder order nid
  let certUrl ← okOrMessage "finalized order has no certificate URL" finalized.certificate
  downloadPem certUrl

end AcmeClient
end
end Nps.Nip.Acme
