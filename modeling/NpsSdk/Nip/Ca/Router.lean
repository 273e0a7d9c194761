import NpsSdk.Nip.Ca.Ra

/-! The HTTP surface of the CA: routes by method and path, the operator's bearer token, and a
handler for each endpoint; and the flattened JWS objects by which a group's key asks for a session. -/
namespace Nps.Nip.GroupJws
open Json
open Wire (Bytes)

structure FlattenedJws where
  protectedHeader : Option String := none
  payload : Option String := none
  signature : Option String := none

structure JwsHeader where
  alg : Option String
  kid : Option String
  npsPurpose : Option String

structure JwsVerified where
  payloadJson : String
  kid : String

def expectedAlg : String := "EdDSA"
def expectedPurpose : String := "session-issue"

/-- An optional string field: missing, null or a string. -/
def readOptString : Option Value → Option (Option String)
  | none | some .null => some none
  | some (.string text) => some (some text)
  | some _ => none

/-- A derived reader takes the fields by name or, from an array, by position. -/
def FlattenedJws.fromValue : Value → Option FlattenedJws
  | .object fields => do
    let protectedHeader ← readOptString (get "protected" fields)
    let payload ← readOptString (get "payload" fields)
    let signature ← readOptString (get "signature" fields)
    return { protectedHeader, payload, signature }
  | .array items => do
    let protectedHeader ← readOptString items[0]?
    let payload ← readOptString items[1]?
    let signature ← readOptString items[2]?
    if items.length ≤ 3 then return { protectedHeader, payload, signature } else none
  | _ => none

def JwsHeader.fromValue : Value → Option JwsHeader
  | .object fields => do
    let alg ← readOptString (get "alg" fields)
    let kid ← readOptString (get "kid" fields)
    let npsPurpose ← readOptString (get "nps-purpose" fields)
    return { alg, kid, npsPurpose }
  | .array items => do
    let alg ← readOptString items[0]?
    let kid ← readOptString items[1]?
    let npsPurpose ← readOptString items[2]?
    if items.length = 3 then return { alg, kid, npsPurpose } else none
  | _ => none

section
variable [Ed25519] [Serde]

/-- The signature covers the two encoded parts, joined by a dot. Every refusal is the same code. -/
def tryVerify (jws : FlattenedJws) (groupPubKey : Ed25519.VerifyingKey) :
    Except ErrorCode JwsVerified := do
  let refuse {α : Type} : Option α → Except ErrorCode α
    | some value => .ok value
    | none => .error .caJwsInvalid
  let protectedHeader := jws.protectedHeader.getD ""
  let payload := jws.payload.getD ""
  let signature := jws.signature.getD ""
  if protectedHeader = "" ∨ payload = "" ∨ signature = "" then .error .caJwsInvalid
  else do
    let headerBytes ← refuse (Base64.decode .urlSafe .none protectedHeader).toOption
    let payloadBytes ← refuse (Base64.decode .urlSafe .none payload).toOption
    let sigBytes ← refuse (Base64.decode .urlSafe .none signature).toOption
    let header ← refuse ((Serde.fromSlice headerBytes).toOption.bind JwsHeader.fromValue)
    match header.kid with
    | none | some "" => .error .caJwsInvalid
    | some kid =>
      if header.alg ≠ some expectedAlg ∨ header.npsPurpose ≠ some expectedPurpose then
        .error .caJwsInvalid
      else do
        let sig ← refuse (Signer.sized 64 sigBytes)
        if Ed25519.verify groupPubKey (Text.utf8 (protectedHeader ++ "." ++ payload)) sig then do
          let payloadJson ← refuse (Text.ofUtf8? payloadBytes)
          return { payloadJson, kid }
        else .error .caJwsInvalid

end
end Nps.Nip.GroupJws

namespace Nps.Nip.Ca
open Interaction Interaction.Prog Json
open Wire (Bytes)

structure CaRequest where
  method : String
  path : String
  /-- Header names are kept in lower case. -/
  headers : List (String × String) := []
  body : Bytes := []

/-- Every answer is a JSON document under the content type `application/json`. -/
structure CaResponse where
  status : Nat
  body : Value

namespace CaRequest

def header (request : CaRequest) (name : String) : Option String := request.headers.lookup name

def jsonValue [Serde] (request : CaRequest) : Option Value :=
  if request.body = [] then none else (Serde.fromSlice request.body).toOption

end CaRequest

def fieldOf (body : Value) (key : String) : Option Value := body.asObject.bind (get key)

def optStringField (body : Value) (key : String) : Option String :=
  (fieldOf body key).bind Value.asStr

def stringListField (body : Value) (key : String) : Option (List String) :=
  ((fieldOf body key).bind Value.asArray).map fun items => items.filterMap Value.asStr

/-- Integers that fit 64 bits with a sign. -/
def optIntField (body : Value) (key : String) : Option Int :=
  match fieldOf body key with
  | some (.number (.int value)) => if -2 ^ 63 ≤ value ∧ value < 2 ^ 63 then some value else none
  | _ => none

def scopeJson (body : Value) : String :=
  match fieldOf body "scope_json" with
  | some (.string text) => text
  | some value => value.text
  | none => "\x7b\x7d"

def parseAssurance (raw : Option String) : AssuranceLevel :=
  match raw.map Text.lowerAscii with
  | some "attested" => .attested
  | some "verified" => .verified
  | _ => .anonymous

def validIdentifier (id : String) : Bool :=
  decide (id ≠ "") && decide ((Text.utf8 id).length ≤ 256) &&
    id.toList.all fun c => (c.toNat < 128 && c.isAlphanum) || c == '.' || c == '_' || c == ':' ||
      c == '@' || c == '/' || c == '-'

def validPubKey (key : String) : Bool :=
  Text.startsWith "ed25519:" key && decide ((Text.utf8 key).length > 8)

def identifierCharacters : String :=
  "identifier contains invalid characters. Allowed: a-z A-Z 0-9 . _ : @ / -"

def validateRegister (body : Value) : Except String (String × String) :=
  let identifier := (optStringField body "identifier").getD ""
  let pubKey := (optStringField body "pub_key").getD ""
  if identifier = "" ∨ pubKey = "" then .error "identifier and pub_key are required."
  else if validIdentifier identifier = false then .error identifierCharacters
  else if validPubKey pubKey = false then .error "pub_key must be 'ed25519:<base64url>'."
  else .ok (identifier, pubKey)

def validRevocationReasons : List String :=
  ["key_compromise", "ca_compromise", "affiliation_changed", "superseded",
    "cessation_of_operation", "parent_revoked"]

def refusal (status : Nat) (code message : String) : CaResponse :=
  ⟨status, document [("error_code", .string code), ("message", .string message)]⟩

def badRequest (message : String) : CaResponse := refusal 400 "NIP-CA-BAD-REQUEST" message

def unauthorized : CaResponse :=
  refusal 401 "NIP-CA-UNAUTHORIZED" "Valid operator Bearer token required."

def pendingDisabled : CaResponse :=
  badRequest "Pending-queue enrollment is not enabled on this CA."

def statusOf : ErrorCode → Nat
  | .caNidNotFound | .caParentNotFound => 404
  | .caNidAlreadyExists | .caSerialDuplicate => 409
  | .caRenewalTooEarly | .caSessionValidityInvalid | .caParentNotGroup => 400
  | .caScopeExpansionDenied | .certCapabilityMissing | .caGroupRevoked => 403
  | .caJwsInvalid | .caJwsExpired | .certExpired | .certRevoked | .certParentRevoked => 401
  | .raTokenInvalid | .raTokenExpired => 401
  | .raNidNotAllowed | .raPendingRejected => 403
  | _ => 400

def errorResult (e : NipCaError) : CaResponse := refusal (statusOf e.code) e.code.wire e.message

def frameResponse (status : Nat) (frame : IdentFrame) : CaResponse := ⟨status, .object frame.toDict⟩

def issuedResponse (status : Nat) : Except NipCaError IdentFrame → CaResponse
  | .ok frame => frameResponse status frame
  | .error e => errorResult e

def RevokeFrame.toDict (frame : RevokeFrame) : Nps.Core.FrameDict :=
  let m := insert "frame" (.string "0x22") []
  let m := insert "target_nid" (.string frame.targetNid) m
  let m := insert "reason" (.string frame.reason) m
  let m := insert "revoked_at" (.string frame.revokedAt) m
  let m := insert "signer_nid" (.string frame.signerNid) m
  let m := insertSome "serial" (frame.serial.map .string) m
  let m := insertSome "parent_nid" (frame.parentNid.map .string) m
  insert "signature" (.string frame.signature) m

def segBetween (rel start ending : String) : Option String := do
  let rest ← Text.stripPrefix? start rel
  let seg ← Text.stripSuffix? ending rest
  if seg = "" then none else some seg

def unescapeBytes : Bytes → Bytes
  | 0x25 :: high :: low :: rest =>
    match Hex.valueOf high, Hex.valueOf low with
    | some h, some l => UInt8.ofNat (h * 16 + l) :: unescapeBytes rest
    | _, _ => 0x25 :: unescapeBytes (high :: low :: rest)
  | byte :: rest => byte :: unescapeBytes rest
  | [] => []

/-- Percent-decoding, undone when the result is no text. -/
def unescape (text : String) : String :=
  (Text.ofUtf8? (unescapeBytes (Text.utf8 text))).getD text

def constantTimeEq (a b : Bytes) : Bool :=
  decide (a.length = b.length) &&
    (List.zipWith (· ^^^ ·) a b).foldl (· ||| ·) 0 == (0 : UInt8)

def bearerToken (request : CaRequest) : Option String :=
  let header := (request.header "authorization").getD ""
  ((Text.stripPrefix? "Bearer " header).or (Text.stripPrefix? "bearer " header)).map Text.trim

def authorized (operatorApiKey : Option String) (request : CaRequest) : Bool :=
  match operatorApiKey with
  | none => true
  | some key =>
    match bearerToken request with
    | some provided => constantTimeEq (Text.utf8 provided) (Text.utf8 key)
    | none => false

section
variable [Ed25519]

structure NipCaRouter where
  ca : NipCaService
  policy : EnrollmentPolicy
  /-- Whether the optional stores are configured. -/
  bootstrapStore : Bool := false
  pendingStore : Bool := false

end

section
variable [TimeText]

def timestamp (instant : Instant) : Value := .string (TimeText.format instant)

def optTimestamp (instant : Option Instant) : Value := (instant.map timestamp).getD .null

def crlLess (a b : NipCertRecord) : Bool :=
  ((compare a.revokedAt b.revokedAt).then
    ((compare a.serial b.serial).then (compare a.nid b.nid))).isLE

def crlEntry (record : NipCertRecord) : Value := document [
  ("nid", .string record.nid), ("serial", .string record.serial),
  ("revoked_at", optTimestamp record.revokedAt), ("reason", optional record.revokeReason)]

def certificateLess (a b : NipCertRecord) : Bool :=
  ((compare a.issuedAt b.issuedAt).then (compare a.serial b.serial)).isLE

def sessionEntry (record : NipCertRecord) : Value := document [
  ("nid", .string record.nid), ("serial", .string record.serial),
  ("issued_at", timestamp record.issuedAt), ("expires_at", timestamp record.expiresAt),
  ("revoked_at", optTimestamp record.revokedAt), ("revoke_reason", optional record.revokeReason)]

def pendingEntry (record : PendingRegistration) : Value := document [
  ("id", .string record.id), ("entity_type", .string record.entityType),
  ("identifier", .string record.identifier), ("pub_key", .string record.pubKey),
  ("capabilities", stringArray record.capabilities), ("scope_json", .string record.scopeJson),
  ("requested_at", timestamp record.requestedAt), ("status", .string record.status.asWire),
  ("reject_reason", optional record.rejectReason)]

def ocspResult (result : NipVerifyResult) : CaResponse :=
  match result.valid, result.record with
  | true, some record => ⟨200, document [
      ("valid", .bool true), ("nid", .string record.nid),
      ("expires_at", timestamp record.expiresAt), ("serial", .string record.serial)]⟩
  | _, _ =>
    let code := result.errorCode.getD .caNidNotFound
    ⟨if code = .caNidNotFound then 404 else 200, document [
      ("valid", .bool false), ("error_code", .string code.wire),
      ("message", optional result.message)]⟩

variable [Serde]

def certificateEntry (record : NipCertRecord) : Value := document [
  ("nid", .string record.nid), ("entity_type", .string record.entityType),
  ("serial", .string record.serial), ("pub_key", .string record.pubKey),
  ("capabilities", stringArray record.capabilities),
  ("scope", (Serde.fromStr record.scopeJson).toOption.getD .null),
  ("issued_by", .string record.issuedBy), ("issued_at", timestamp record.issuedAt),
  ("expires_at", timestamp record.expiresAt), ("revoked_at", optTimestamp record.revokedAt),
  ("revoke_reason", optional record.revokeReason), ("nid_role", optional record.nidRole),
  ("parent_nid", optional record.parentNid)]

end

def EnrollmentTier.number : EnrollmentTier → Nat
  | allowlist => 1
  | bootstrapToken => 2
  | pendingQueue => 3

structure SessionRequest where
  sessionPubKey : String
  purpose : Option String
  validitySeconds : Option Int
  capabilities : Option (List String)
  scopeJson : Option String
  metadataJson : Option String

def SessionRequest.fromBody (body : Value) : SessionRequest where
  sessionPubKey := (optStringField body "session_pub_key").getD ""
  purpose := optStringField body "purpose"
  validitySeconds := optIntField body "validity_seconds"
  capabilities := stringListField body "capabilities"
  scopeJson := optStringField body "scope_json"
  metadataJson := optStringField body "metadata_json"

/-- The distance of two 64-bit times, with the wrapping of 64-bit arithmetic. -/
def clockDistance (now iat : Int) : Int :=
  let difference := Int.bmod (now - iat) (2 ^ 64)
  Int.bmod |difference| (2 ^ 64)

namespace NipCaRouter
variable [Ed25519] (router : NipCaRouter)

def pfx : String := Text.trimEnd (· == '/') router.ca.opts.routePrefix

def rel (request : CaRequest) : String :=
  (Text.stripPrefix? router.pfx request.path).getD request.path

def authorized (request : CaRequest) : Bool := Ca.authorized router.ca.opts.operatorApiKey request

def discovery : CaResponse :=
  let opts := router.ca.opts
  let endpoint (path : String) : Value := .string (opts.baseUrl ++ router.pfx ++ path)
  ⟨200, document [
    ("nps_ca", .string "0.1"), ("issuer", .string opts.caNid),
    ("display_name", optional opts.displayName), ("public_key", .string router.ca.getCaPublicKey),
    ("algorithms", stringArray opts.algorithms),
    ("endpoints", document [
      ("register", endpoint "/v1/agents/register"),
      ("verify", endpoint "/v1/agents/\x7bnid\x7d/verify"),
      ("ocsp", endpoint "/v1/agents/\x7bnid\x7d/verify"),
      ("node_ocsp", endpoint "/v1/nodes/\x7bnid\x7d/verify"),
      ("crl", endpoint "/v1/crl")]),
    ("capabilities", stringArray ["agent", "node", "orchestrator-group",
      s!"ra-tier-{opts.enrollmentTier.number}"]),
    ("max_cert_validity_days", integer opts.agentCertValidityDays)]⟩

def caCert : CaResponse := ⟨200, document [
  ("public_key", .string router.ca.getCaPublicKey), ("algorithm", .string "ed25519")]⟩

section
variable [TimeText]

def crl : CaProg CaResponse := do
  let revoked ← NipCaService.getCrl
  let entries := (revoked.mergeSort crlLess).map crlEntry
  let now ← Ask.now
  let body := sortEntries [
    ("issued_by", .string router.ca.opts.caNid), ("issued_at", timestamp now),
    ("entries", .array entries)]
  let signature := Signer.sign router.ca.signingKey (.object body)
  return ⟨200, .object (insert "signature" (.string signature) body)⟩

variable [Serde]

def certificates (request : CaRequest) : CaProg CaResponse :=
  if router.authorized request then do
    let records ← Ask.list
    return ⟨200, document [
      ("entries", .array ((records.mergeSort certificateLess).map certificateEntry))]⟩
  else return unauthorized

/-- Registration of agents and nodes; a node's capabilities have a default. -/
def register (request : CaRequest) (entityType : String) (nodeDefaultCaps : List String) :
    CaProg CaResponse :=
  if router.authorized request then
    match request.jsonValue with
    | none => return badRequest "Invalid JSON body."
    | some body =>
      match validateRegister body with
      | .error e => return badRequest e
      | .ok (identifier, pubKey) => do
        let enrollment : EnrollmentRequest := {
          entityType, identifier, pubKey
          capabilities := (stringListField body "capabilities").getD nodeDefaultCaps
          scopeJson := scopeJson body, metadataJson := optStringField body "metadata_json"
          enrollmentToken := request.header "x-nps-enrollment-token" }
        match ← router.ca.registerWithRa enrollment router.policy with
        | .ok frame => return frameResponse 201 frame
        | .error (.pending id) =>
          return ⟨202, document [("pending_id", .string id), ("status", .string "queued")]⟩
        | .error (.ca e) => return errorResult e
  else return unauthorized

def registerX509 [X509.CertificateLibrary] (request : CaRequest) (entityType : String)
    (nodeDefaultCaps : List String) : CaProg CaResponse :=
  if router.authorized request then
    match request.jsonValue with
    | none => return badRequest "Invalid JSON body."
    | some body =>
      match validateRegister body with
      | .error e => return badRequest e
      | .ok (identifier, pubKey) => do
        let result ← router.ca.registerX509 entityType identifier pubKey
          ((stringListField body "capabilities").getD nodeDefaultCaps) (scopeJson body)
          (some (parseAssurance (optStringField body "assurance_level")))
          (optStringField body "metadata_json")
        return issuedResponse 201 result
  else return unauthorized

def registerGroup (request : CaRequest) : CaProg CaResponse :=
  if router.authorized request then
    match request.jsonValue with
    | none => return badRequest "Invalid JSON body."
    | some body =>
      let identifier := optStringField body "identifier"
      let pubKey := (optStringField body "pub_key").getD ""
      if identifier.any fun id => !validIdentifier id then return badRequest identifierCharacters
      else if validPubKey pubKey = false then
        return badRequest "pub_key must be 'ed25519:<base64url>'."
      else do
        let result ← router.ca.registerGroup identifier pubKey
          ((stringListField body "capabilities").getD []) (scopeJson body)
          (optStringField body "owner_user_id") (optStringField body "owner_key_id")
          (optStringField body "metadata_json")
        return issuedResponse 201 result
  else return unauthorized

def renew (request : CaRequest) (nid : String) : CaProg CaResponse :=
  if router.authorized request then do
    let result ← router.ca.renew (unescape nid)
    return issuedResponse 200 result
  else return unauthorized

def revoke (request : CaRequest) (nid : String) : CaProg CaResponse :=
  if router.authorized request then
    let reason := (request.jsonValue.bind (optStringField · "reason")).getD "cessation_of_operation"
    if validRevocationReasons.contains reason then do
      match ← router.ca.revoke (unescape nid) reason with
      | .ok frame => return ⟨200, .object (RevokeFrame.toDict frame)⟩
      | .error e => return errorResult e
    else return badRequest (s!"Invalid revocation reason '{reason}'. Allowed: " ++
      ", ".intercalate validRevocationReasons ++ ".")
  else return unauthorized

omit [Ed25519] [Serde] in
def verify (nid : String) : CaProg CaResponse := do
  let result ← NipCaService.verify (unescape nid)
  return ocspResult result

/-- The JWS of a group's key stands in for the operator's token. -/
def jwsRequest (request : CaRequest) (groupNid : String) :
    CaProg (Except CaResponse SessionRequest) :=
  match request.jsonValue.bind GroupJws.FlattenedJws.fromValue with
  | none => return .error (badRequest "Invalid JWS body.")
  | some jws => do
    match ← Ask.getByNid groupNid with
    | none => return .error (errorResult
        { message := s!"Group {groupNid} not found.", code := .caParentNotFound })
    | some group =>
      if group.nidRole ≠ some roleGroup then
        return .error (errorResult
          { message := s!"NID {groupNid} is not a group.", code := .caParentNotGroup })
      else if group.revokedAt.isSome then
        return .error (errorResult { message := s!"Group {groupNid} revoked.", code := .caGroupRevoked })
      else match Signer.decodePublicKey group.pubKey with
        | none => return .error (refusal 401 ErrorCode.caJwsInvalid.wire
            "Group public key could not be decoded.")
        | some key =>
          match GroupJws.tryVerify jws key with
          | .error code => return .error (refusal 401 code.wire "Group-JWS verification failed.")
          | .ok verified =>
            if verified.kid ≠ groupNid then
              return .error (refusal 401 ErrorCode.caJwsInvalid.wire
                s!"JWS kid '{verified.kid}' does not match URL group_nid '{groupNid}'.")
            else match Serde.fromStr verified.payloadJson with
              | .error _ => return .error (refusal 401 ErrorCode.caJwsInvalid.wire
                  "JWS payload is not valid JSON.")
              | .ok payload => do
                let iat := (optIntField payload "iat").getD 0
                let skew := router.ca.opts.sessionJwsClockSkew.wholeSeconds
                let now ← Ask.now
                if iat = 0 ∨ clockDistance (unixTimestamp now) iat > skew then
                  return .error (refusal 401 ErrorCode.caJwsExpired.wire
                    s!"JWS iat outside ±{skew}s window.")
                else return .ok (.fromBody payload)

def operatorRequest (request : CaRequest) : Except CaResponse SessionRequest :=
  if router.authorized request then
    match request.jsonValue with
    | none => .error (badRequest "Invalid JSON body.")
    | some body => .ok (.fromBody body)
  else .error unauthorized

def usesJws (request : CaRequest) : Bool :=
  Text.contains "jose+json" (Text.lowerAscii ((request.header "content-type").getD ""))

def sessionRequest (request : CaRequest) (groupNid : String) :
    CaProg (Except CaResponse SessionRequest) :=
  if usesJws request then router.jwsRequest request groupNid
  else return router.operatorRequest request

def issueSession (request : CaRequest) (groupSegment : String) : CaProg CaResponse := do
  let groupNid := unescape groupSegment
  match ← router.sessionRequest request groupNid with
  | .error response => return response
  | .ok session =>
    if validPubKey session.sessionPubKey = false then
      return badRequest "session_pub_key must be 'ed25519:<base64url>'."
    else do
      let validity := (session.validitySeconds.filter fun s => decide (s > 0)).map Duration.seconds
      let result ← router.ca.issueSession groupNid session.sessionPubKey {
        validity, purpose := session.purpose, capabilities := session.capabilities
        scopeJson := session.scopeJson, metadataJson := session.metadataJson }
      return issuedResponse 201 result

def listGroupSessions (groupSegment : String) : CaProg CaResponse := do
  let groupNid := unescape groupSegment
  let sessions ← Ask.getByParentNid groupNid
  return ⟨200, document [
    ("group_nid", .string groupNid), ("count", integer sessions.length),
    ("sessions", .array (sessions.map sessionEntry))]⟩

def createToken (request : CaRequest) : CaProg CaResponse :=
  if router.authorized request then
    if router.bootstrapStore then do
      let body := request.jsonValue
      let requested := ((body.bind (optIntField · "ttl_seconds")).filter
        fun s => decide (s > 0)).map Duration.seconds
      let ttl := clampBootstrapTtl router.ca.opts requested
      let label := body.bind (optStringField · "label")
      let now ← Ask.now
      let raw ← Ask.createToken label (now + ttl)
      return ⟨201, document [
        ("token", .string raw), ("expires_at", timestamp (now + ttl)), ("label", optional label)]⟩
    else return badRequest "Bootstrap token enrollment is not enabled on this CA."
  else return unauthorized

def listPending (request : CaRequest) : CaProg CaResponse :=
  if router.authorized request then
    if router.pendingStore then do
      let records ← Ask.listPending
      return ⟨200, document [
        ("count", integer records.length), ("items", .array (records.map pendingEntry))]⟩
    else return pendingDisabled
  else return unauthorized

def alreadySettled (id : String) (record : PendingRegistration) : CaResponse :=
  refusal 409 "NIP-CA-BAD-REQUEST" (s!"Record '{id}' is already " ++ record.status.asWire ++ ".")

def approvePending (id : String) : CaProg CaResponse :=
  if router.pendingStore then do
    match ← Ask.getPending id with
    | none => return refusal 404 ErrorCode.caNidNotFound.wire s!"Pending registration '{id}' not found."
    | some record =>
      if record.status ≠ .pending then return alreadySettled id record
      else
        match ← router.ca.register record.entityType record.identifier record.pubKey
          record.capabilities record.scopeJson record.metadataJson with
        | .ok frame =>
          let _ ← Ask.approve id
          return frameResponse 201 frame
        | .error e => return errorResult e
  else return pendingDisabled

def rejectPending (request : CaRequest) (id : String) : CaProg CaResponse :=
  if router.pendingStore then do
    let reason := (request.jsonValue.bind (optStringField · "reason")).getD "rejected_by_operator"
    let rejected ← Ask.reject id reason
    if rejected then
      return ⟨200, document [
        ("id", .string id), ("status", .string "rejected"), ("reason", .string reason)]⟩
    else
      match ← Ask.getPending id with
      | none => return refusal 404 "NIP-CA-BAD-REQUEST" s!"Pending registration '{id}' not found."
      | some record => return alreadySettled id record
  else return pendingDisabled

/-- A route with a parameter is taken under its method only. -/
def onPath (segment : Option String) (method expected : String)
    (handler : String → CaProg CaResponse) (otherwise : CaProg CaResponse) : CaProg CaResponse :=
  match segment with
  | some id => if method = expected then handler id else otherwise
  | none => otherwise

def notFound : CaResponse := refusal 404 "NIP-CA-NOT-FOUND" "No route matches."

/-- Agents and nodes have the same routes. -/
def entitySegment (rel ending : String) : Option String :=
  (segBetween rel "/v1/agents/" ending).or (segBetween rel "/v1/nodes/" ending)

def nodeDefaultCaps : List String := ["nwp:query", "nwp:stream"]

def handlePath (request : CaRequest) (m rel : String) : CaProg CaResponse :=
  onPath (entitySegment rel "/renew") m "POST" (router.renew request) <|
  onPath (entitySegment rel "/revoke") m "POST" (router.revoke request) <|
  onPath (entitySegment rel "/verify") m "GET" verify <|
  onPath (segBetween rel "/v1/orchestrators/groups/" "/sessions/issue") m "POST"
    (router.issueSession request) <|
  onPath (segBetween rel "/v1/orchestrators/groups/" "/sessions") m "GET" listGroupSessions <|
  onPath (segBetween rel "/v1/orchestrators/groups/" "/revoke") m "POST" (router.revoke request) <|
  onPath (segBetween rel "/v1/enrollment/pending/" "/approve") m "POST" router.approvePending <|
  onPath (segBetween rel "/v1/enrollment/pending/" "/reject") m "POST"
    (router.rejectPending request) <|
  return notFound

def handle [X509.CertificateLibrary] (request : CaRequest) : CaProg CaResponse :=
  let rel := router.rel request
  let m := request.method
  if m = "GET" ∧ request.path = "/.well-known/nps-ca" then return router.discovery
  else if m = "GET" ∧ rel = "/v1/ca/cert" then return router.caCert
  else if m = "GET" ∧ rel = "/v1/crl" then router.crl
  else if m = "GET" ∧ rel = "/v1/certificates" then router.certificates request
  else if m = "POST" ∧ rel = "/v1/agents/register" then router.register request "agent" []
  else if m = "POST" ∧ rel = "/v1/nodes/register" then
    router.register request "node" nodeDefaultCaps
  else if m = "POST" ∧ rel = "/v1/agents/register-x509" then
    router.registerX509 request "agent" []
  else if m = "POST" ∧ rel = "/v1/nodes/register-x509" then
    router.registerX509 request "node" nodeDefaultCaps
  else if m = "POST" ∧ rel = "/v1/orchestrators/groups/register" then router.registerGroup request
  else if m = "POST" ∧ rel = "/v1/enrollment/tokens" then router.createToken request
  else if m = "GET" ∧ rel = "/v1/enrollment/pending" then router.listPending request
  else router.handlePath request m rel

end
end NipCaRouter
end Nps.Nip.Ca
