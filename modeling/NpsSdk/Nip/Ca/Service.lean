import NpsSdk.Lib.Interaction
import NpsSdk.Nip.Ca.Signer
import NpsSdk.Nip.Ca.Store
import NpsSdk.Nip.X509.Builder

/-! The CA service as programs over its certificate store, its clock and its random
source. Every store call is one operation. -/
namespace Nps.Nip.Ca
open Interaction Interaction.Prog Json
open Wire (Bytes)

structure NipCaError where
  message : String
  code : ErrorCode
deriving DecidableEq

inductive PendingStatus where
  | pending | approved | rejected
deriving DecidableEq, Repr

def PendingStatus.asWire : PendingStatus → String
  | pending => "pending"
  | approved => "approved"
  | rejected => "rejected"

structure PendingRegistration where
  id : String
  entityType : String
  identifier : String
  pubKey : String
  capabilities : List String
  scopeJson : String
  metadataJson : Option String := none
  requestedAt : Instant
  status : PendingStatus
  rejectReason : Option String := none
deriving DecidableEq

/-- Everything the service, its enrollment policies and the router ask their surroundings. -/
inductive CaOp where
  | getByNid (nid : String)
  | getByParentNid (nid : String)
  | list
  | getRevoked
  | save (record : NipCertRecord)
  | revoke (nid reason : String) (revokedAt : Instant)
  | nextSerial
  | now
  | randomBytes (count : Nat)
  | createToken (label : Option String) (expiresAt : Instant)
  | validateAndConsume (token : String)
  | revokeToken (tokenId : String)
  | enqueue (request : PendingRegistration)
  | listPending
  | getPending (id : String)
  | approve (id : String)
  | reject (id reason : String)
  | pendingCount

abbrev CaOp.Answer : CaOp → Type
  | getByNid _ => Option NipCertRecord
  | getByParentNid _ => List NipCertRecord
  | list => List NipCertRecord
  | getRevoked => List NipCertRecord
  | save _ => Except StoreError Unit
  | revoke _ _ _ => Bool
  | nextSerial => String
  | now => Instant
  | randomBytes count => { bytes : Bytes // bytes.length = count }
  | createToken _ _ => String
  | validateAndConsume _ => Bool
  | revokeToken _ => Bool
  | enqueue _ => Unit
  | listPending => List PendingRegistration
  | getPending _ => Option PendingRegistration
  | approve _ => Bool
  | reject _ _ => Bool
  | pendingCount => Nat

abbrev CaProg (α : Type) := Prog CaOp.Answer α

namespace Ask
abbrev getByNid (nid : String) : CaProg (Option NipCertRecord) := perform (CaOp.getByNid nid)
abbrev getByParentNid (nid : String) : CaProg (List NipCertRecord) :=
  perform (CaOp.getByParentNid nid)
abbrev list : CaProg (List NipCertRecord) := perform CaOp.list
abbrev getRevoked : CaProg (List NipCertRecord) := perform CaOp.getRevoked
abbrev save (record : NipCertRecord) : CaProg (Except StoreError Unit) :=
  perform (CaOp.save record)
abbrev revoke (nid reason : String) (revokedAt : Instant) : CaProg Bool :=
  perform (CaOp.revoke nid reason revokedAt)
abbrev nextSerial : CaProg String := perform CaOp.nextSerial
abbrev now : CaProg Instant := perform CaOp.now
abbrev randomBytes (count : Nat) : CaProg { bytes : Bytes // bytes.length = count } :=
  perform (CaOp.randomBytes count)
abbrev createToken (label : Option String) (expiresAt : Instant) : CaProg String :=
  perform (CaOp.createToken label expiresAt)
abbrev validateAndConsume (token : String) : CaProg Bool :=
  perform (CaOp.validateAndConsume token)
abbrev revokeToken (tokenId : String) : CaProg Bool := perform (CaOp.revokeToken tokenId)
abbrev enqueue (request : PendingRegistration) : CaProg Unit := perform (CaOp.enqueue request)
abbrev listPending : CaProg (List PendingRegistration) := perform CaOp.listPending
abbrev getPending (id : String) : CaProg (Option PendingRegistration) :=
  perform (CaOp.getPending id)
abbrev approve (id : String) : CaProg Bool := perform (CaOp.approve id)
abbrev reject (id reason : String) : CaProg Bool := perform (CaOp.reject id reason)
abbrev pendingCount : CaProg Nat := perform CaOp.pendingCount
end Ask

inductive EnrollmentTier where
  | allowlist | bootstrapToken | pendingQueue
deriving DecidableEq, Repr

structure NipCaOptions where
  caNid : String
  displayName : Option String := none
  agentCertValidityDays : Int := 30
  nodeCertValidityDays : Int := 90
  renewalWindowDays : Int := 7
  groupCertValidityDays : Int := 365
  sessionDefaultValidity : Duration := .seconds 3600
  sessionMaxValidity : Duration := .seconds 86400
  sessionMinValidity : Duration := .seconds 60
  sessionJwsClockSkew : Duration := .seconds 300
  baseUrl : String
  routePrefix : String := ""
  algorithms : List String := ["ed25519"]
  operatorApiKey : Option String := none
  allowedCapabilities : Option (List String) := none
  enrollmentTier : EnrollmentTier := .allowlist
  enrollmentAllowlistPatterns : List String := ["*"]
  bootstrapTokenMaxTtl : Duration := .seconds 86400
  pendingQueueMaxSize : Nat := 1000

structure NipCaService [Ed25519] where
  opts : NipCaOptions
  signingKey : Ed25519.SigningKey

structure IssueSessionParams where
  validity : Option Duration := none
  purpose : Option String := none
  capabilities : Option (List String) := none
  scopeJson : Option String := none
  metadataJson : Option String := none

structure NipVerifyResult where
  valid : Bool
  errorCode : Option ErrorCode
  message : Option String
  record : Option NipCertRecord

def NipVerifyResult.ok (record : NipCertRecord) : NipVerifyResult :=
  { valid := true, errorCode := none, message := none, record := some record }

def NipVerifyResult.fail (code : ErrorCode) (message : String) : NipVerifyResult :=
  { valid := false, errorCode := some code, message := some message, record := none }

structure RevokeFrame where
  targetNid : String
  serial : Option String
  reason : String
  revokedAt : String
  parentNid : Option String
  signerNid : String
  signature : String

section
variable [Ed25519] [Serde] [TimeText] (ca : NipCaService)

namespace NipCaService

def getCaPublicKey : String :=
  Signer.encodeVerifyingKey (Ed25519.verifyingKey ca.signingKey)

/-- The issuer's domain is the fourth part of its NID, or the whole NID. -/
def buildNid (entityType identifier : String) : String :=
  let domain := ((Text.split ':' ca.opts.caNid)[3]?).getD ca.opts.caNid
  s!"urn:nps:{entityType}:{domain}:{identifier}"

def checkCapabilities (capabilities : List String) : Except NipCaError Unit :=
  match ca.opts.allowedCapabilities with
  | none => .ok ()
  | some allowed =>
    let disallowed := capabilities.filter fun c => !allowed.contains c
    if disallowed = [] then .ok ()
    else .error {
      message := "Capabilities not permitted by this CA: " ++ ", ".intercalate disallowed
      code := .certCapabilityMissing }

def validDays (entityType : String) : Int :=
  if entityType = "node" then ca.opts.nodeCertValidityDays else ca.opts.agentCertValidityDays

structure Issuance where
  nid : String
  pubKey : String
  capabilities : List String
  scopeJson : String
  issuedAt : Instant
  expiresAt : Instant
  serial : String
  metadataJson : Option String
  assuranceLevel : Option AssuranceLevel := none
  lineage : Option Value := none

def Issuance.payload (issuance : Issuance) (scope : Value) : Fields :=
  let m := insert "capabilities" (stringArray issuance.capabilities) []
  let m := insert "expires_at" (.string (TimeText.format issuance.expiresAt)) m
  let m := insert "frame" (.string "0x20") m
  let m := insert "issued_at" (.string (TimeText.format issuance.issuedAt)) m
  let m := insert "issued_by" (.string ca.opts.caNid) m
  let m := insert "nid" (.string issuance.nid) m
  let m := insert "pub_key" (.string issuance.pubKey) m
  let m := insert "scope" scope m
  let m := insert "serial" (.string issuance.serial) m
  let m := insertSome "assurance_level"
    (issuance.assuranceLevel.map fun level => .string level.wire) m
  insertSome "lineage" issuance.lineage m

def issueFrame (issuance : Issuance) : Except NipCaError IdentFrame :=
  match Serde.fromStr issuance.scopeJson with
  | .error e => .error { message := "invalid scope_json: " ++ e, code := .caNidAlreadyExists }
  | .ok scope =>
    .ok {
      nid := issuance.nid
      pubKey := issuance.pubKey
      metadata := issuance.metadataJson.bind fun m =>
        (Serde.fromStr m).toOption.bind Value.asObject
      signature := some (Signer.sign ca.signingKey (.object (issuance.payload ca scope)))
      capabilities := issuance.capabilities
      scope := some scope
      issuedBy := some ca.opts.caNid
      issuedAt := some (TimeText.format issuance.issuedAt)
      expiresAt := some (TimeText.format issuance.expiresAt)
      serial := some issuance.serial
      assuranceLevel := issuance.assuranceLevel }

def recordOf (issuance : Issuance) (entityType : String) : NipCertRecord where
  nid := issuance.nid
  entityType := entityType
  serial := issuance.serial
  pubKey := issuance.pubKey
  capabilities := issuance.capabilities
  scopeJson := issuance.scopeJson
  issuedBy := ca.opts.caNid
  issuedAt := issuance.issuedAt
  expiresAt := issuance.expiresAt
  metadataJson := issuance.metadataJson

def storeError : StoreError → NipCaError
  | .nidExists n => { message := s!"NID already exists: {n}", code := .caNidAlreadyExists }
  | .serialExists s => { message := s!"Serial already exists: {s}", code := .caSerialDuplicate }

def nidExists (nid : String) : NipCaError :=
  { message := s!"NID already exists: {nid}", code := .caNidAlreadyExists }

def nidNotFound (nid : String) : NipCaError :=
  { message := s!"NID not found: {nid}", code := .caNidNotFound }

def buildLineageGroup (ownerUserId ownerKeyId : Option String) : Value :=
  let m := insert "role" (.string "group") []
  let m := insertSome "owner_user_id" (ownerUserId.map .string) m
  .object (insertSome "owner_key_id" (ownerKeyId.map .string) m)

def buildLineageSession (groupNid sessionId : String)
    (purpose ownerUserId ownerKeyId : Option String) : Value :=
  let m := insert "role" (.string "session") []
  let m := insert "parent_nid" (.string groupNid) m
  let m := insert "group_nid" (.string groupNid) m
  let m := insert "session_id" (.string sessionId) m
  let m := insertSome "purpose" (purpose.map .string) m
  let m := insertSome "owner_user_id" (ownerUserId.map .string) m
  .object (insertSome "owner_key_id" (ownerKeyId.map .string) m)

def extractLineageStr (lineageJson : Option String) (field : String) : Option String := do
  let text ← lineageJson
  let value ← (Serde.fromStr text).toOption
  let fields ← value.asObject
  (get field fields).bind Value.asStr

def persist (record : NipCertRecord) (frame : IdentFrame) : CaProg (Except NipCaError IdentFrame) := do
  match ← Ask.save record with
  | .ok () => return .ok frame
  | .error e => return .error (storeError e)

def register (entityType identifier pubKey : String) (capabilities : List String)
    (scopeJson : String) (metadataJson : Option String) : CaProg (Except NipCaError IdentFrame) := do
  let nid := ca.buildNid entityType identifier
  let existing ← Ask.getByNid nid
  if existing.isSome then return .error (nidExists nid)
  match ca.checkCapabilities capabilities with
  | .error e => return .error e
  | .ok () =>
    let now ← Ask.now
    let expiresAt := now + Duration.days (ca.validDays entityType)
    let serial ← Ask.nextSerial
    let issuance : Issuance :=
      { nid, pubKey, capabilities, scopeJson, issuedAt := now, expiresAt, serial, metadataJson }
    match ca.issueFrame issuance with
    | .error e => return .error e
    | .ok frame => persist (ca.recordOf issuance entityType) frame

/-- Serial digits as bytes, with a leading zero where the first would read as negative. -/
def parseSerialBytes (serial : String) : Bytes :=
  let hex := ((Text.stripPrefix? "0x" serial).or (Text.stripPrefix? "0X" serial)).getD serial
  let hex := if (Text.utf8 hex).length % 2 = 1 then "0" ++ hex else hex
  let bytes := ((Hex.decode hex).toOption).getD [0x01]
  let bytes := if bytes = [] then [0x01] else bytes
  if bytes.headD 0 &&& 0x80 != 0 then 0x00 :: bytes else bytes

def extractEd25519Raw (encoded : String) : Except NipCaError Key32 :=
  match Text.stripPrefix? "ed25519:" encoded with
  | none => .error {
      message := s!"X.509 issuance requires an ed25519:* pubkey; got '{encoded}'."
      code := .certFormatInvalid }
  | some b64 =>
    match Base64.decode .urlSafe .none b64 with
    | .error _ =>
      .error { message := "ed25519 pubkey is not valid base64url.", code := .certFormatInvalid }
    | .ok raw =>
      match Signer.sized 32 raw with
      | some key => .ok key
      | none => .error {
          message := s!"Ed25519 pubkey must be 32 bytes; got {raw.length}."
          code := .certFormatInvalid }

/-- The leaf and root certificates a frame is layered on, as unpadded base64url. -/
def buildChain [X509.CertificateLibrary] (nid pubKey entityType serial : String)
    (capabilities : List String) (level : AssuranceLevel) (now expiresAt : Instant) :
    Except NipCaError (List String) := do
  let subjectRaw ← extractEd25519Raw pubKey
  let root ← (X509.issueRoot {
      caNid := ca.opts.caNid, caSigningKey := ca.signingKey, notBefore := now
      notAfter := now + Duration.days 3650, serialNumber := [0x01] }).mapError
    fun message => { message, code := .certFormatInvalid }
  let leaf ← (X509.issueLeaf {
      subjectNid := nid, subjectPubRaw := subjectRaw, caSigningKey := ca.signingKey
      caRootCert := root, role := if entityType = "node" then .node else .agent
      assuranceLevel := level, notBefore := now, notAfter := expiresAt
      serialNumber := parseSerialBytes serial, attestedNodeRoles := none
      attestedCapabilities := some capabilities }).mapError
    fun message => { message, code := .certFormatInvalid }
  return [Base64.encode .urlSafe .none leaf.der, Base64.encode .urlSafe .none root.der]

def registerX509 [X509.CertificateLibrary] (entityType identifier pubKey : String)
    (capabilities : List String) (scopeJson : String) (assuranceLevel : Option AssuranceLevel)
    (metadataJson : Option String) : CaProg (Except NipCaError IdentFrame) := do
  let nid := ca.buildNid entityType identifier
  let existing ← Ask.getByNid nid
  if existing.isSome then return .error (nidExists nid)
  match ca.checkCapabilities capabilities with
  | .error e => return .error e
  | .ok () =>
    let now ← Ask.now
    let expiresAt := now + Duration.days (ca.validDays entityType)
    let serial ← Ask.nextSerial
    let level := assuranceLevel.getD .anonymous
    let issuance : Issuance :=
      { nid, pubKey, capabilities, scopeJson, issuedAt := now, expiresAt, serial, metadataJson
        assuranceLevel := some level }
    match ca.issueFrame issuance with
    | .error e => return .error e
    | .ok v1 =>
      match ca.buildChain nid pubKey entityType serial capabilities level now expiresAt with
      | .error e => return .error e
      | .ok chain =>
        persist (ca.recordOf issuance entityType)
          { v1 with certFormat := some "v2-x509", certChain := some chain }

/-- A group is registered under a reserved prefix; without an identifier it gets a random one. -/
def groupIdentifier (identifier : Option String) : CaProg (Except NipCaError String) := do
  match identifier with
  | none | some "" =>
    let random ← Ask.randomBytes 16
    return .ok ("group-" ++ Hex.encode random.1)
  | some id =>
    if Text.startsWith "group-" id then return .ok id
    else return .error {
      message := s!"Group identifier MUST start with reserved prefix 'group-' (got '{id}'). NPS-3 §3.1."
      code := .caNidAlreadyExists }

def registerNamedGroup (identifier : Except NipCaError String) (pubKey : String)
    (capabilities : List String) (scopeJson : String)
    (ownerUserId ownerKeyId metadataJson : Option String) :
    CaProg (Except NipCaError IdentFrame) := do
  match identifier with
  | .error e => return .error e
  | .ok identifier =>
    let nid := ca.buildNid "agent" identifier
    let existing ← Ask.getByNid nid
    if existing.isSome then return .error (nidExists nid)
    match ca.checkCapabilities capabilities with
    | .error e => return .error e
    | .ok () =>
      let now ← Ask.now
      let expiresAt := now + Duration.days ca.opts.groupCertValidityDays
      let serial ← Ask.nextSerial
      let lineage := buildLineageGroup ownerUserId ownerKeyId
      let issuance : Issuance :=
        { nid, pubKey, capabilities, scopeJson, issuedAt := now, expiresAt, serial, metadataJson
          lineage := some lineage }
      match ca.issueFrame issuance with
      | .error e => return .error e
      | .ok frame =>
        persist { ca.recordOf issuance "agent" with
          nidRole := some roleGroup, lineageJson := some lineage.text } frame

def registerGroup (identifier : Option String) (pubKey : String) (capabilities : List String)
    (scopeJson : String) (ownerUserId ownerKeyId metadataJson : Option String) :
    CaProg (Except NipCaError IdentFrame) := do
  let identifier ← groupIdentifier identifier
  ca.registerNamedGroup identifier pubKey capabilities scopeJson ownerUserId ownerKeyId metadataJson

/-- Sessions are issued under live groups only. -/
def checkGroup (group : NipCertRecord) (groupNid : String) : Except NipCaError Unit :=
  if group.nidRole ≠ some roleGroup then
    .error {
      message := s!"NID '{groupNid}' is not registered as a group (role='" ++
        group.nidRole.getD "<null>" ++ "')."
      code := .caParentNotGroup }
  else match group.revokedAt with
    | some revoked => .error {
        message := s!"Group {groupNid} was revoked at " ++ TimeText.format revoked ++
          "; cannot issue new sessions."
        code := .caGroupRevoked }
    | none => .ok ()

/-- The validity, capabilities and scope of a session, within its group's. -/
def checkSession (group : NipCertRecord) (groupNid : String) (params : IssueSessionParams)
    (now : Instant) : Except NipCaError (Duration × List String × String) :=
  if now > group.expiresAt then
    .error {
      message := s!"Group {groupNid} expired at " ++ TimeText.format group.expiresAt ++
        "; cannot issue new sessions."
      code := .certExpired }
  else
    let v := params.validity.getD ca.opts.sessionDefaultValidity
    if v < ca.opts.sessionMinValidity ∨ v > ca.opts.sessionMaxValidity then
      .error {
        message := "Session validity must be in [" ++
          TimeText.duration ca.opts.sessionMinValidity ++ ", " ++
          TimeText.duration ca.opts.sessionMaxValidity ++ "]; got " ++ TimeText.duration v ++ "."
        code := .caSessionValidityInvalid }
    else
      let sessionCaps := params.capabilities.getD group.capabilities
      let expansion := sessionCaps.filter fun c => !group.capabilities.contains c
      if params.capabilities.isSome ∧ expansion ≠ [] then
        .error {
          message := "Session capabilities not in parent group: " ++
            ", ".intercalate expansion ++ "."
          code := .caScopeExpansionDenied }
      else .ok (v, sessionCaps, params.scopeJson.getD group.scopeJson)

def issueSession (groupNid sessionPubKey : String) (params : IssueSessionParams) :
    CaProg (Except NipCaError IdentFrame) := do
  match ← Ask.getByNid groupNid with
  | none =>
    return .error { message := s!"Group NID not found: {groupNid}.", code := .caParentNotFound }
  | some group =>
    match checkGroup group groupNid with
    | .error e => return .error e
    | .ok () =>
      let checkedAt ← Ask.now
      match ca.checkSession group groupNid params checkedAt with
      | .error e => return .error e
      | .ok (v, sessionCaps, sessionScope) =>
        let named ← Ask.now
        let random ← Ask.randomBytes 8
        let sessionId := s!"session-{unixTimestamp named}-" ++ Hex.encode random.1
        let sessionNid := ca.buildNid "agent" sessionId
        let now ← Ask.now
        let expiresAt := now + v
        let serial ← Ask.nextSerial
        let lineage := buildLineageSession groupNid sessionId params.purpose
          (extractLineageStr group.lineageJson "owner_user_id")
          (extractLineageStr group.lineageJson "owner_key_id")
        let issuance : Issuance :=
          { nid := sessionNid, pubKey := sessionPubKey, capabilities := sessionCaps
            scopeJson := sessionScope, issuedAt := now, expiresAt, serial
            metadataJson := params.metadataJson, lineage := some lineage }
        match ca.issueFrame issuance with
        | .error e => return .error e
        | .ok frame =>
          persist { ca.recordOf issuance "agent" with
            nidRole := some roleSession, parentNid := some groupNid
            lineageJson := some lineage.text } frame

/-- Renewal reads the latest record and adds another under the same NID. -/
def renew (nid : String) : CaProg (Except NipCaError IdentFrame) := do
  match ← Ask.getByNid nid with
  | none => return .error (nidNotFound nid)
  | some record =>
    if record.revokedAt.isSome then
      return .error { message := s!"NID is revoked: {nid}", code := .certRevoked }
    let now ← Ask.now
    let renewWindowStart := record.expiresAt - Duration.days ca.opts.renewalWindowDays
    if now < renewWindowStart then
      return .error {
        message := "Renewal window opens " ++ TimeText.format renewWindowStart ++
          ". Too early to renew."
        code := .caRenewalTooEarly }
    let expiresAt := now + Duration.days (ca.validDays record.entityType)
    let serial ← Ask.nextSerial
    let issuance : Issuance :=
      { nid, pubKey := record.pubKey, capabilities := record.capabilities
        scopeJson := record.scopeJson, issuedAt := now, expiresAt, serial
        metadataJson := record.metadataJson }
    match ca.issueFrame issuance with
    | .error e => return .error e
    | .ok frame => persist (ca.recordOf issuance record.entityType) frame

def revokePayload (nid serial reason revokedAt : String) : Fields :=
  insert "signer_nid" (.string ca.opts.caNid) (insert "revoked_at" (.string revokedAt)
    (insert "reason" (.string reason) (insert "serial" (.string serial)
      (insert "target_nid" (.string nid) (insert "frame" (.string "0x22") [])))))

/-- The sessions of a revoked group that are still live are revoked with it. -/
def revokeChildren (now : Instant) : List NipCertRecord → CaProg Unit
  | [] => return ()
  | child :: rest =>
    if child.revokedAt.isSome then revokeChildren now rest
    else do
      let _ ← Ask.revoke child.nid "parent_revoked" now
      revokeChildren now rest

def cascade (record : NipCertRecord) (nid : String) (now : Instant) : CaProg Unit :=
  if record.nidRole = some roleGroup then do
    let children ← Ask.getByParentNid nid
    revokeChildren now children
  else return ()

def revoke (nid reason : String) : CaProg (Except NipCaError RevokeFrame) := do
  match ← Ask.getByNid nid with
  | none => return .error (nidNotFound nid)
  | some record =>
    let now ← Ask.now
    let marked ← Ask.revoke nid reason now
    if marked then
      cascade record nid now
      let revokedAt := TimeText.format now
      let signature := Signer.sign ca.signingKey
        (.object (ca.revokePayload nid record.serial reason revokedAt))
      return .ok {
        targetNid := nid, serial := some record.serial, reason, revokedAt, parentNid := none
        signerNid := ca.opts.caNid, signature }
    else return .error { message := s!"Failed to revoke {nid}.", code := .caNidNotFound }

/-- The parent of a session must be known, live and unexpired. -/
def verifyParent (record : NipCertRecord) (parentNid : String) : CaProg NipVerifyResult := do
  match ← Ask.getByNid parentNid with
  | none => return .fail .certParentRevoked s!"Parent NID {parentNid} not found."
  | some parent =>
    match parent.revokedAt with
    | some revoked =>
      return .fail .certParentRevoked (s!"Parent {parentNid} revoked at " ++
        TimeText.format revoked ++ ": " ++ parent.revokeReason.getD "")
    | none =>
      let now ← Ask.now
      if now > parent.expiresAt then
        return .fail .certParentRevoked
          (s!"Parent {parentNid} expired at " ++ TimeText.format parent.expiresAt ++ ".")
      else return .ok record

def verify (nid : String) : CaProg NipVerifyResult := do
  match ← Ask.getByNid nid with
  | none => return .fail .caNidNotFound "NID not found."
  | some record =>
    match record.revokedAt with
    | some revoked =>
      return .fail .certRevoked
        ("Revoked at " ++ TimeText.format revoked ++ ": " ++ record.revokeReason.getD "")
    | none =>
      let now ← Ask.now
      if now > record.expiresAt then
        return .fail .certExpired ("Expired at " ++ TimeText.format record.expiresAt ++ ".")
      else
        match record.parentNid with
        | none | some "" => return .ok record
        | some parentNid => verifyParent record parentNid

def getCrl : CaProg (List NipCertRecord) := Ask.getRevoked

end NipCaService
end
end Nps.Nip.Ca
