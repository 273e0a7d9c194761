import NpsSdk.Lib.Assoc
import NpsSdk.Lib.JsonMaps
import NpsSdk.Nip.Ca.Signer
import NpsSdk.Nip.X509.Builder

/-! The ACME server with the `agent-01` challenge: accounts, orders and what it takes to get a
certificate. Requests are answered one after the other, and each draws its nonce and its ids. -/
namespace Nps.Nip.Acme
open Json
open Wire (Bytes)

inductive Status where
  | pending | ready | valid | invalid
deriving DecidableEq

def Status.text : Status → String
  | pending => "pending" | ready => "ready" | valid => "valid" | invalid => "invalid"

structure Jwk where
  kty : String
  crv : String
  x : String
deriving DecidableEq

structure ProtectedHeader where
  alg : String
  nonce : String
  url : String
  jwk : Option Jwk := none
  kid : Option String := none

structure Envelope where
  protectedHeader : String
  payload : String
  signature : String

structure Identifier where
  type : String
  value : String
deriving DecidableEq

def Identifier.toValue (identifier : Identifier) : Value :=
  .object [("type", .string identifier.type), ("value", .string identifier.value)]

structure Order where
  status : Status
  identifiers : List Identifier
  authorizations : List String
  finalize : String
  certificate : Option String

/-- The members in the order in which the structure declares them. -/
def Order.toValue (order : Order) : Value :=
  .object ([("status", .string order.status.text),
    ("identifiers", .array (order.identifiers.map Identifier.toValue)),
    ("authorizations", stringArray order.authorizations), ("finalize", .string order.finalize)] ++
    skipNone "certificate" (order.certificate.map .string))

structure Challenge where
  type : String
  url : String
  status : Status
  token : String

def Challenge.toValue (challenge : Challenge) : Value :=
  .object [("type", .string challenge.type), ("url", .string challenge.url),
    ("status", .string challenge.status.text), ("token", .string challenge.token)]

structure Authorization where
  status : Status
  identifier : Identifier
  challenges : List Challenge

def Authorization.toValue (authorization : Authorization) : Value :=
  .object [("status", .string authorization.status.text),
    ("identifier", authorization.identifier.toValue),
    ("challenges", .array (authorization.challenges.map Challenge.toValue))]

structure Problem where
  status : Nat
  type : String
  detail : String
deriving DecidableEq

def Problem.body (problem : Problem) : String :=
  (Value.object [("type", .string problem.type), ("detail", .string problem.detail),
    ("status", integer problem.status)]).text

structure Response where
  status : Nat
  body : String
  headers : List (String × String)

def jsonResponse (status : Nat) (body : Value) (headers : List (String × String)) : Response :=
  { status, body := body.text, headers := ("Content-Type", "application/json") :: headers }

def malformed (detail : String) : Problem := ⟨400, "urn:ietf:params:acme:error:malformed", detail⟩
def notFound (detail : String) : Problem := ⟨404, "urn:ietf:params:acme:error:malformed", detail⟩
def unauthorized (detail : String) : Problem := ⟨401, "urn:ietf:params:acme:error:unauthorized", detail⟩
def unknownAccount (detail : String) : Problem :=
  ⟨401, "urn:ietf:params:acme:error:accountDoesNotExist", detail⟩
def badCsr (detail : String) : Problem := ⟨400, "urn:ietf:params:acme:error:badCSR", detail⟩
def challengeFailed (detail : String) : Problem := ⟨400, "NIP-ACME-CHALLENGE-FAILED", detail⟩
def subjectMismatch (detail : String) : Problem := ⟨400, "NIP-CERT-SUBJECT-NID-MISMATCH", detail⟩
def badNonce : Problem := ⟨400, "urn:ietf:params:acme:error:badNonce", "invalid nonce"⟩

structure Csr where
  commonName : Option String
  publicKey : Bytes

/-- The derived readers of JSON, the reader of certificate requests and the PEM writer. -/
class Library where
  envelope : String → Except String Envelope
  header : Bytes → Except String ProtectedHeader
  newOrder : Bytes → Except String (List Identifier)
  challengeRespond : Bytes → Except String String
  finalize : Bytes → Except String String
  csr : Bytes → Except String Csr
  pem : Bytes → String

def okOr {α : Type} (problem : Problem) : Option α → Except Problem α
  | some value => .ok value
  | none => .error problem

def b64uEncode (bytes : Bytes) : String := Base64.encode .urlSafe .none bytes

def b64uDecode (text : String) : Except String Bytes :=
  match Base64.decode .urlSafe .none text with
  | .ok bytes => .ok bytes
  | .error _ => (Base64.decode .urlSafe .canonical text).mapError Base64.DecodeError.describe

section
variable [Ed25519]

def publicKeyFromJwk (jwk : Jwk) : Except String Ed25519.VerifyingKey :=
  if jwk.kty ≠ "OKP" ∨ jwk.crv ≠ "Ed25519" then
    .error ("JWK is not OKP/Ed25519: kty=" ++ jwk.kty ++ " crv=" ++ jwk.crv)
  else
    match b64uDecode jwk.x with
    | .error e => .error ("jwk x: " ++ e)
    | .ok raw =>
      match Signer.sized 32 raw with
      | none => .error s!"JWK x decodes to {raw.length} bytes, want 32"
      | some arr => (Ed25519.fromBytes arr).mapError ("Ed25519 pubkey: " ++ ·)

def signingInput (env : Envelope) : Bytes := Text.utf8 (env.protectedHeader ++ "." ++ env.payload)

def signatureFromSlice (bytes : Bytes) : Except String Signature64 :=
  match Signer.sized 64 bytes with
  | some signature => .ok signature
  | none => .error Ed25519.sizeMessage

def verifyMessage (key : Ed25519.VerifyingKey) (message : Bytes) (signature : Signature64) :
    Except String Unit :=
  if Ed25519.verify key message signature then .ok () else .error Ed25519.mismatchMessage

variable [Library]

def verify (env : Envelope) (key : Ed25519.VerifyingKey) : Except String ProtectedHeader := do
  let bytes ← (b64uDecode env.signature).mapError ("sig b64u: " ++ ·)
  let signature ← (signatureFromSlice bytes).mapError ("sig parse: " ++ ·)
  (verifyMessage key (signingInput env) signature).mapError ("JWS sig verify: " ++ ·)
  let header ← (b64uDecode env.protectedHeader).mapError ("header b64u: " ++ ·)
  (Library.header header).mapError ("header parse: " ++ ·)

omit [Ed25519] [Library] in
def decodePayload {α : Type} (read : Bytes → Except String α) (env : Envelope) :
    Except String (Option α) :=
  if env.payload = "" then .ok none
  else do
    let bytes ← (b64uDecode env.payload).mapError ("payload b64u: " ++ ·)
    let value ← (read bytes).mapError ("payload parse: " ++ ·)
    return some value

end

structure OrderState where
  identifier : Identifier
  status : Status
  authzId : String
  finalizeUrl : String
  accountUrl : String
  certificateUrl : Option String
deriving DecidableEq

structure AuthzState where
  identifier : Identifier
  status : Status
  challengeIds : List String
  accountUrl : String
deriving DecidableEq

structure ChallengeState where
  id : String
  type : String
  status : Status
  token : String
  authzId : String
  accountUrl : String
deriving DecidableEq

structure State where
  nonces : List String := []
  accountJwks : Assoc String Jwk := ∅
  orders : Assoc String OrderState := ∅
  authzs : Assoc String AuthzState := ∅
  challenges : Assoc String ChallengeState := ∅
  certs : Assoc String String := ∅
deriving DecidableEq

/-- The random bytes of one request, each for its own use. -/
structure Draws where
  nonce : Bytes
  accountId : Bytes
  orderId : Bytes
  authzId : Bytes
  challId : Bytes
  token : Bytes
  serial : Bytes
  certId : Bytes

inductive Method where
  | get | head | post | other
deriving DecidableEq

/-- The body may not be text. -/
structure Request where
  method : Method
  path : String
  body : Except String String

structure AcmeServerOptions [Ed25519] where
  caSigningKey : Ed25519.SigningKey
  caRootCert : X509.Certificate
  certValidity : Duration

structure AcmeServer [Ed25519] where
  baseUrl : String
  opts : AcmeServerOptions

namespace State

def mintNonce (state : State) (nonce : String) : State :=
  { state with nonces := nonce :: state.nonces.filter (· ≠ nonce) }

def consumeNonce (state : State) (nonce : String) : Option State :=
  if nonce ∈ state.nonces then some { state with nonces := state.nonces.filter (· ≠ nonce) } else none

def markChallengeInvalid (state : State) (id : String) : State :=
  { state with challenges := state.challenges.modify id fun challenge => { challenge with status := .invalid } }

/-- An order is opened, with its authorization and the challenge of that. -/
def opened (state : State) (identifier : Identifier)
    (accountUrl orderId authzId challId token finalizeUrl : String) : State :=
  { state with
    challenges := state.challenges.insert challId
      { id := challId, type := "agent-01", status := .pending, token, authzId, accountUrl }
    authzs := state.authzs.insert authzId
      { identifier, status := .pending, challengeIds := [challId], accountUrl }
    orders := state.orders.insert orderId
      { identifier, status := .pending, authzId, finalizeUrl, accountUrl, certificateUrl := none } }

def answered (state : State) (ch : ChallengeState) : State :=
  { state with
    challenges := state.challenges.modify ch.id fun challenge => { challenge with status := .valid }
    authzs := state.authzs.modify ch.authzId fun authz => { authz with status := .valid }
    orders := state.orders.mapValues fun order =>
      if order.authzId = ch.authzId then { order with status := .ready } else order }

def certified (state : State) (orderId certId certUrl pem : String) : State :=
  { state with
    certs := state.certs.insert certId pem
    orders := state.orders.modify orderId fun order =>
      { order with status := .valid, certificateUrl := some certUrl } }

end State

/-- What follows all repetitions of the prefix. -/
def trimStartMatches (start : List Char) : Nat → List Char → List Char
  | 0, text => text
  | fuel + 1, text =>
    if start.isPrefixOf text then trimStartMatches start fuel (text.drop start.length) else text

def idIn (start path : String) : String :=
  String.ofList (trimStartMatches start.toList path.toList.length path.toList)

section
variable [Ed25519] [X509.CertificateLibrary] [Library]

omit [Ed25519] [X509.CertificateLibrary] in
def readEnvelope (body : Except String String) : Except Problem Envelope := do
  let text ← body.mapError fun e => malformed ("body read: " ++ e)
  (Library.envelope text).mapError fun e => malformed ("body parse: " ++ e)

omit [Ed25519] [X509.CertificateLibrary] in
def parseHeader (env : Envelope) : Except Problem ProtectedHeader := do
  let bytes ← (b64uDecode env.protectedHeader).mapError fun e =>
    malformed ("malformed protected header: " ++ e)
  (Library.header bytes).mapError fun e => malformed ("protected header parse: " ++ e)

omit [X509.CertificateLibrary] in
def verifyAccount (state : State) (env : Envelope) (header : ProtectedHeader) : Bool :=
  (do
    let kid ← header.kid
    let jwk ← state.accountJwks.lookup kid
    let key ← (publicKeyFromJwk jwk).toOption
    return (verify env key).toOption.isSome).getD false

abbrev Served := Except Problem Response × State

omit [Ed25519] [X509.CertificateLibrary] in
def withNonce (state : State) (body : Except String String)
    (serve : State → Envelope → ProtectedHeader → Served) : Served :=
  match readEnvelope body with
  | .error problem => (.error problem, state)
  | .ok env =>
    match parseHeader env with
    | .error problem => (.error problem, state)
    | .ok header =>
      match state.consumeNonce header.nonce with
      | none => (.error badNonce, state)
      | some state => serve state env header

namespace AcmeServer
variable (server : AcmeServer)

omit [X509.CertificateLibrary] in
def checkJwk (env : Envelope) (jwk : Jwk) : Except Problem Unit := do
  let key ← (publicKeyFromJwk jwk).mapError fun e => malformed ("jwk parse: " ++ e)
  let _ ← (verify env key).mapError fun _ => malformed "JWS signature verify failed"
  return ()

omit [X509.CertificateLibrary] in
def handleNewAccount (state : State) (draws : Draws) (body : Except String String) : Served :=
  match readEnvelope body with
  | .error problem => (.error problem, state)
  | .ok env =>
    match parseHeader env with
    | .error problem => (.error problem, state)
    | .ok header =>
      match header.jwk with
      | none => (.error (malformed "newAccount must include a 'jwk' member"), state)
      | some jwk =>
        match state.consumeNonce header.nonce with
        | none => (.error badNonce, state)
        | some state =>
          match checkJwk env jwk with
          | .error problem => (.error problem, state)
          | .ok () =>
            let accountUrl := server.baseUrl ++ "/account/" ++ b64uEncode draws.accountId
            let nonce := b64uEncode draws.nonce
            (.ok (jsonResponse 201 (.object [("status", .string Status.valid.text)])
              [("Location", accountUrl), ("Replay-Nonce", nonce)]),
              { state with accountJwks := state.accountJwks.insert accountUrl jwk }.mintNonce nonce)

omit [X509.CertificateLibrary] in
def orderedIdentifier (state : State) (env : Envelope) (header : ProtectedHeader) :
    Except Problem Identifier :=
  if verifyAccount state env header = false then
    .error (unknownAccount ("unknown kid: " ++ header.kid.getD "<missing>"))
  else
    match decodePayload Library.newOrder env with
    | .error e => .error (malformed e)
    | .ok none => .error (malformed "missing payload")
    | .ok (some []) => .error (malformed "missing identifiers")
    | .ok (some (ident :: _)) => .ok ident

omit [X509.CertificateLibrary] in
def handleNewOrder (state : State) (draws : Draws) (body : Except String String) : Served :=
  withNonce state body fun state env header =>
    match orderedIdentifier state env header with
    | .error problem => (.error problem, state)
    | .ok ident =>
      let orderId := b64uEncode draws.orderId
      let authzId := b64uEncode draws.authzId
      let challId := b64uEncode draws.challId
      let orderUrl := server.baseUrl ++ "/order/" ++ orderId
      let authzUrl := server.baseUrl ++ "/authz/" ++ authzId
      let finalizeUrl := server.baseUrl ++ "/finalize/" ++ orderId
      let state := state.opened ident (header.kid.getD "") orderId authzId challId
        (b64uEncode draws.token) finalizeUrl
      let nonce := b64uEncode draws.nonce
      (.ok (jsonResponse 201 (Order.toValue
        { status := .pending, identifiers := [ident], authorizations := [authzUrl]
          finalize := finalizeUrl, certificate := none })
        [("Location", orderUrl), ("Replay-Nonce", nonce)]), state.mintNonce nonce)

def challengeView (ch : ChallengeState) (status : Status) : Challenge :=
  { type := ch.type, url := server.baseUrl ++ "/chall/" ++ ch.id, status, token := ch.token }

omit [X509.CertificateLibrary] in
def handleAuthz (state : State) (draws : Draws) (path : String) (body : Except String String) : Served :=
  withNonce state body fun state env header =>
    if verifyAccount state env header = false then (.error (unauthorized "bad sig"), state)
    else
      match state.authzs.lookup (idIn "/authz/" path) with
      | none => (.error (notFound "no authz"), state)
      | some az =>
        if az.accountUrl ≠ header.kid.getD "" then
          (.error (unauthorized "authorization does not belong to this account"), state)
        else
          let challenges := (az.challengeIds.filterMap state.challenges.lookup).map fun ch =>
            server.challengeView ch ch.status
          let nonce := b64uEncode draws.nonce
          (.ok (jsonResponse 200 (Authorization.toValue
            { status := az.status, identifier := az.identifier, challenges })
            [("Replay-Nonce", nonce)]), state.mintNonce nonce)

omit [X509.CertificateLibrary] in
/-- The challenge that an account answers, the account's key, and what it answers. -/
def answeredChallenge (state : State) (env : Envelope) (header : ProtectedHeader) (path : String) :
    Except Problem (ChallengeState × Ed25519.VerifyingKey × Option String) :=
  match state.accountJwks.lookup (header.kid.getD "") with
  | none => .error (unknownAccount "unknown kid")
  | some jwk =>
    match publicKeyFromJwk jwk with
    | .error e => .error (malformed e)
    | .ok key =>
      match verify env key with
      | .error _ => .error (malformed "JWS sig fail")
      | .ok _ =>
        match state.challenges.lookup (idIn "/chall/" path) with
        | none => .error (notFound "no chall")
        | some ch =>
          if ch.accountUrl ≠ header.kid.getD "" then
            .error (unauthorized "challenge does not belong to this account")
          else
            match decodePayload Library.challengeRespond env with
            | .error e => .error (malformed e)
            | .ok payload => .ok (ch, key, payload)

omit [X509.CertificateLibrary] [Library] in
def checkAgent (ch : ChallengeState) (key : Ed25519.VerifyingKey) (payload : Option String) :
    Except Problem Unit :=
  match payload.filter (· ≠ "") with
  | none => .error (challengeFailed "missing agent_signature in challenge response")
  | some encoded => do
    let bytes ← (b64uDecode encoded).mapError fun e =>
      challengeFailed ("agent-01 verification error: " ++ e)
    let signature ← (signatureFromSlice bytes).mapError fun e =>
      challengeFailed ("agent-01 verification error: " ++ e)
    (verifyMessage key (Text.utf8 ch.token) signature).mapError fun _ =>
      challengeFailed "agent-01 signature did not verify"

omit [X509.CertificateLibrary] in
def handleChallenge (state : State) (draws : Draws) (path : String) (body : Except String String) :
    Served :=
  withNonce state body fun state env header =>
    match answeredChallenge state env header path with
    | .error problem => (.error problem, state)
    | .ok (ch, key, payload) =>
      match checkAgent ch key payload with
      | .error problem => (.error problem, state.markChallengeInvalid ch.id)
      | .ok () =>
        let nonce := b64uEncode draws.nonce
        (.ok (jsonResponse 200 (server.challengeView ch .valid).toValue [("Replay-Nonce", nonce)]),
          (state.answered ch).mintNonce nonce)

omit [X509.CertificateLibrary] in
def readyOrder (state : State) (env : Envelope) (header : ProtectedHeader) (orderId : String) :
    Except Problem OrderState :=
  if verifyAccount state env header = false then .error (unauthorized "bad sig")
  else
    match state.orders.lookup orderId with
    | none => .error (notFound "no order")
    | some os =>
      if os.accountUrl ≠ header.kid.getD "" then
        .error (unauthorized "order does not belong to this account")
      else if os.status ≠ .ready then
        .error ⟨403, "urn:ietf:params:acme:error:orderNotReady",
          "order is in state '" ++ os.status.text ++ "', not 'ready'"⟩
      else .ok os

omit [X509.CertificateLibrary] in
def requestedKey (env : Envelope) (identifier : Identifier) : Except Problem Key32 := do
  let payload ← (decodePayload Library.finalize env).mapError malformed
  let encoded ← okOr (malformed "missing csr") (payload.filter (· ≠ ""))
  let der ← (b64uDecode encoded).mapError fun e => badCsr ("CSR base64url: " ++ e)
  let csr ← (Library.csr der).mapError fun e => badCsr ("CSR parse: " ++ e)
  if csr.commonName ≠ some identifier.value then
    .error (subjectMismatch ("CSR subject CN '" ++ csr.commonName.getD "" ++
      "' does not match order identifier '" ++ identifier.value ++ "'"))
  let raw ← okOr (badCsr "CSR public key is not 32 bytes (Ed25519)") (Signer.sized 32 csr.publicKey)
  let _ ← (Ed25519.fromBytes raw).mapError fun e => badCsr ("CSR pubkey: " ++ e)
  return raw

omit [Library] in
def leafOptions (identifier : Identifier) (raw : Key32) (serial : Bytes) (now : Instant) :
    X509.IssueLeafOptions where
  subjectNid := identifier.value
  subjectPubRaw := raw
  caSigningKey := server.opts.caSigningKey
  caRootCert := server.opts.caRootCert
  role := .agent
  assuranceLevel := .anonymous
  notBefore := now - Duration.seconds 60
  notAfter := now + server.opts.certValidity
  serialNumber := serial
  attestedNodeRoles := none
  attestedCapabilities := none

def issued (state : State) (env : Envelope) (header : ProtectedHeader) (orderId : String)
    (serial : Bytes) (now : Instant) : Except Problem (OrderState × X509.Certificate) := do
  let os ← readyOrder state env header orderId
  let raw ← requestedKey env os.identifier
  let leaf ← (X509.issueLeaf (server.leafOptions os.identifier raw serial now)).mapError fun e =>
    badCsr ("issue leaf: " ++ e)
  return (os, leaf)

def orderView (os : OrderState) : Order :=
  { status := os.status, identifiers := [os.identifier]
    authorizations := [server.baseUrl ++ "/authz/" ++ os.authzId]
    finalize := os.finalizeUrl, certificate := os.certificateUrl }

def handleFinalize (state : State) (draws : Draws) (now : Instant) (path : String)
    (body : Except String String) : Served :=
  withNonce state body fun state env header =>
    let orderId := idIn "/finalize/" path
    match server.issued state env header orderId draws.serial now with
    | .error problem => (.error problem, state)
    | .ok (os, leaf) =>
      let pem := Library.pem leaf.der ++ Library.pem server.opts.caRootCert.der
      let certId := b64uEncode draws.certId
      let certUrl := server.baseUrl ++ "/cert/" ++ certId
      let nonce := b64uEncode draws.nonce
      (.ok (jsonResponse 200 (server.orderView
        { os with status := .valid, certificateUrl := some certUrl }).toValue
        [("Replay-Nonce", nonce)]), (state.certified orderId certId certUrl pem).mintNonce nonce)

omit [X509.CertificateLibrary] in
def handleCert (state : State) (draws : Draws) (path : String) (body : Except String String) : Served :=
  withNonce state body fun state env header =>
    if verifyAccount state env header = false then (.error (unauthorized "bad sig"), state)
    else
      match state.certs.lookup (idIn "/cert/" path) with
      | none => (.error (notFound "no cert"), state)
      | some pem =>
        let nonce := b64uEncode draws.nonce
        (.ok { status := 200, body := pem
               headers := [("Content-Type", "application/pem-certificate-chain"),
                 ("Replay-Nonce", nonce)] }, state.mintNonce nonce)

omit [X509.CertificateLibrary] in
def handleOrder (state : State) (draws : Draws) (path : String) (body : Except String String) : Served :=
  withNonce state body fun state env header =>
    if verifyAccount state env header = false then (.error (unauthorized "bad sig"), state)
    else
      match state.orders.lookup (idIn "/order/" path) with
      | none => (.error (notFound "no order"), state)
      | some os =>
        if os.accountUrl ≠ header.kid.getD "" then
          (.error (unauthorized "order does not belong to this account"), state)
        else
          let nonce := b64uEncode draws.nonce
          (.ok (jsonResponse 200 (server.orderView os).toValue [("Replay-Nonce", nonce)]),
            state.mintNonce nonce)

def directory : Value :=
  .object [("newNonce", .string (server.baseUrl ++ "/new-nonce")),
    ("newAccount", .string (server.baseUrl ++ "/new-account")),
    ("newOrder", .string (server.baseUrl ++ "/new-order"))]

def route (state : State) (request : Request) (draws : Draws) (now : Instant) : Served :=
  let path := request.path
  let posted (start : String) : Bool := request.method = .post && Text.startsWith start path
  if request.method = .get && path = "/directory" then
    (.ok (jsonResponse 200 server.directory []), state)
  else if path = "/new-nonce" then
    let nonce := b64uEncode draws.nonce
    (.ok { status := if request.method = .head then 200 else 204, body := ""
           headers := [("Replay-Nonce", nonce), ("Cache-Control", "no-store")] }, state.mintNonce nonce)
  else if request.method = .post && path = "/new-account" then
    server.handleNewAccount state draws request.body
  else if request.method = .post && path = "/new-order" then
    server.handleNewOrder state draws request.body
  else if posted "/authz/" then server.handleAuthz state draws path request.body
  else if posted "/chall/" then server.handleChallenge state draws path request.body
  else if posted "/finalize/" then server.handleFinalize state draws now path request.body
  else if posted "/cert/" then handleCert state draws path request.body
  else if posted "/order/" then server.handleOrder state draws path request.body
  else (.error (notFound "no such resource"), state)

def handleRequest (state : State) (request : Request) (draws : Draws) (now : Instant) :
    Response × State :=
  match server.route state request draws now with
  | (.ok response, after) => (response, after)
  | (.error problem, after) =>
    ({ status := problem.status, body := problem.body
       headers := [("Content-Type", "application/problem+json")] }, after)

end AcmeServer
end
end Nps.Nip.Acme
