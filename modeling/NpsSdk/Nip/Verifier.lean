import NpsSdk.Nip.X509.Verifier

/-! The node-side verifier of identity frames: expiry, trusted issuer, signature and
certificate chain, revocation, capabilities and scope, in this order. -/
namespace Nps.Nip
open Json
open Wire (Bytes)

structure NipVerifyContext where
  requiredCapabilities : List String := []
  targetNodePath : Option String := none
  asOf : Option Instant := none

structure RevocationRecord where
  serial : String
  revokedAt : Option String := none
  revokeReason : Option String := none

structure NipIdentVerifyResult where
  valid : Bool
  stepFailed : Nat
  errorCode : Option ErrorCode
  message : Option String

def NipIdentVerifyResult.ok : NipIdentVerifyResult :=
  { valid := true, stepFailed := 0, errorCode := none, message := none }

structure Failure where
  step : Nat
  code : ErrorCode
  message : String

def NipIdentVerifyResult.fail (failure : Failure) : NipIdentVerifyResult :=
  { valid := false, stepFailed := failure.step, errorCode := some failure.code
    message := some failure.message }

inductive NipRevocationMode where
  | ifConfigured | required
deriving DecidableEq

inductive NipRevocationSource where
  | localCrl | callback | caStore | ocsp
deriving DecidableEq

def NipRevocationSource.debug : NipRevocationSource → String
  | localCrl => "LocalCrl"
  | callback => "Callback"
  | caStore => "CaStore"
  | ocsp => "Ocsp"

inductive NipRevocationOutcome where
  | good | revoked | unavailable
deriving DecidableEq

structure OcspResponse where
  valid : Bool := false
  errorCode : Option String := none

/-- What one request brings back: no answer, or a status with a body that may not parse. -/
inductive HttpReply where
  | transportError (message : String)
  | response (status : Nat) (body : Except String OcspResponse)

structure NipVerifierOptions where
  trustedCaPublicKeys : List (String × String) := []
  trustedX509RootsDer : List Bytes := []
  localRevokedSerials : List String := []
  localCrlConfigured : Bool := false
  revocationCheck : Option (IdentFrame → Option NipIdentVerifyResult) := none
  revocationStore : Option (String → Option RevocationRecord) := none
  ocspUrl : Option String := none
  ocspFailOpen : Bool := false
  revocationMode : NipRevocationMode := .ifConfigured
  minAssuranceLevel : Option AssuranceLevel := none
  phase3Enforcement : Bool := false

structure NipIdentVerifier where
  options : NipVerifierOptions
  /-- How requests of the HTTP client are answered. -/
  http : String → HttpReply := fun _ => .transportError "no client"
  /-- The clock, when the context sets none. -/
  clock : Instant := 0

structure NipRevocationPolicy where
  mode : NipRevocationMode
  ocspFailOpen : Bool
  consultedSources : List NipRevocationSource := []

namespace NipRevocationPolicy

def observe (policy : NipRevocationPolicy) (source : NipRevocationSource)
    (outcome : NipRevocationOutcome) : Except NipIdentVerifyResult NipRevocationPolicy :=
  let policy := { policy with consultedSources := policy.consultedSources ++ [source] }
  if source = .ocsp ∧ outcome = .unavailable ∧ policy.ocspFailOpen then .ok policy
  else match outcome with
    | .good => .ok policy
    | .revoked => .error (.fail ⟨4, .certRevoked,
        "Revocation source " ++ source.debug ++ " reports the certificate revoked."⟩)
    | .unavailable => .error (.fail ⟨4, .ocspUnavailable,
        "Revocation source " ++ source.debug ++ " is unavailable."⟩)

def complete (policy : NipRevocationPolicy) : Except NipIdentVerifyResult Unit :=
  if policy.mode = .required ∧ policy.consultedSources = [] then
    .error (.fail ⟨4, .ocspUnavailable,
      "Revocation mode is required, but no revocation source is configured."⟩)
  else .ok ()

end NipRevocationPolicy

def escape (value : String) : String :=
  "".intercalate ((Text.utf8 value).map fun byte =>
    let c := Char.ofNat byte.toNat
    if byte.toNat < 128 ∧ (c.isAlphanum ∨ c = '-' ∨ c = '_' ∨ c = '.' ∨ c = '~') then
      String.ofList [c]
    else "%" ++ Text.upperHex 2 byte.toNat)

section
variable (verifier : NipIdentVerifier)

def ocspCheck (ocspUrl nid : String) : NipIdentVerifyResult :=
  let transportFailure (error : String) : NipIdentVerifyResult :=
    .fail ⟨4, .ocspUnavailable, s!"OCSP call failed for NID {nid}: {error}"⟩
  match verifier.http (Text.trimEnd (· == '/') ocspUrl ++ "/" ++ escape nid) with
  | .transportError e => transportFailure e
  | .response status body =>
    if status < 200 ∨ 299 < status then
      .fail ⟨4, .ocspUnavailable, s!"OCSP endpoint returned {status}."⟩
    else match body with
      | .error e => transportFailure e
      | .ok body =>
        if body.valid then .ok
        else
          let code : ErrorCode :=
            if body.errorCode = some ErrorCode.certExpired.wire then .certExpired
            else if body.errorCode = some ErrorCode.ocspUnavailable.wire then .ocspUnavailable
            else .certRevoked
          .fail ⟨4, code, s!"OCSP check failed for NID {nid}."⟩

def crlCheck (policy : NipRevocationPolicy) (serial : String) :
    Except NipIdentVerifyResult NipRevocationPolicy :=
  let options := verifier.options
  if options.localCrlConfigured ∨ options.localRevokedSerials ≠ [] then
    let revoked := serial ≠ "" ∧ serial ∈ options.localRevokedSerials
    policy.observe .localCrl (if revoked then .revoked else .good)
  else .ok policy

/-- A callback refuses with the result it chooses. -/
def callbackCheck (policy : NipRevocationPolicy) (frame : IdentFrame) :
    Except NipIdentVerifyResult NipRevocationPolicy :=
  match verifier.options.revocationCheck with
  | none => .ok policy
  | some check =>
    match check frame with
    | some result => if result.valid then policy.observe .callback .good else .error result
    | none => policy.observe .callback .good

def storeCheck (policy : NipRevocationPolicy) (serial : String) :
    Except NipIdentVerifyResult NipRevocationPolicy :=
  match verifier.options.revocationStore with
  | none => .ok policy
  | some getBySerial =>
    let revoked := ((getBySerial serial).bind (·.revokedAt)).isSome
    policy.observe .caStore (if revoked then .revoked else .good)

def ocspStep (policy : NipRevocationPolicy) (nid : String) :
    Except NipIdentVerifyResult NipRevocationPolicy :=
  match verifier.options.ocspUrl with
  | none => .ok policy
  | some url =>
    let answer := ocspCheck verifier url nid
    let outcome : NipRevocationOutcome :=
      if answer.valid then .good
      else if answer.errorCode = some .certRevoked then .revoked
      else .unavailable
    policy.observe .ocsp outcome

def checkRevocation (frame : IdentFrame) : Except NipIdentVerifyResult Unit := do
  let serial := frame.serial.getD ""
  let policy : NipRevocationPolicy :=
    { mode := verifier.options.revocationMode, ocspFailOpen := verifier.options.ocspFailOpen }
  let policy ← crlCheck verifier policy serial
  let policy ← callbackCheck verifier policy frame
  let policy ← storeCheck verifier policy serial
  let policy ← ocspStep verifier policy frame.nid
  policy.complete

end

/-- Top-level keys sorted, compact text. -/
def canonicalJson (dict : Nps.Core.FrameDict) : String :=
  (Value.object (sortEntries dict)).text

/-- `ed25519:` and the 32 bytes in hexadecimal. -/
def parsePubKeyString (text : String) : Except String Key32 :=
  match Text.stripPrefix? "ed25519:" text with
  | none => .error ("unsupported public key format: " ++ text)
  | some hex =>
    match Hex.decode hex with
    | .error e => .error ("hex decode: " ++ e.describe)
    | .ok raw =>
      match Signer.sized 32 raw with
      | some key => .ok key
      | none => .error s!"public key wrong size: {raw.length}"

section
variable [Ed25519]

/-- The signature is read as padded standard base64, and covers the unsigned dictionary. -/
def verifySignature (frame : IdentFrame) (caPubKeyStr : String) : Except Failure Unit :=
  let refuse (message : String) : Except Failure Unit :=
    .error ⟨3, .certSignatureInvalid, message⟩
  match frame.signature with
  | none => refuse "missing signature"
  | some text =>
    match Text.stripPrefix? "ed25519:" text with
    | none => refuse "malformed signature prefix"
    | some encoded =>
      match parsePubKeyString caPubKeyStr with
      | .error e => refuse e
      | .ok key =>
        match Ed25519.fromBytes key with
        | .error e => refuse ("invalid Ed25519 pubkey: " ++ e)
        | .ok verifyingKey =>
          match Base64.decode .standard .canonical encoded with
          | .error e => refuse ("base64 decode: " ++ e.describe)
          | .ok bytes =>
            match Signer.sized 64 bytes with
            | none => refuse ("signature parse: " ++ Ed25519.sizeMessage)
            | some signature =>
              if Ed25519.verify verifyingKey (Text.utf8 (canonicalJson frame.unsignedDict)) signature
              then .ok ()
              else refuse "Certificate signature verification failed."

end

/-- `*` matches everything, a trailing `/*` a subtree, anything else itself, without case. -/
def nwpPathMatches (pattern path : String) : Bool :=
  if pattern = "*" then true
  else match Text.stripSuffix? "/*" pattern with
    | some start =>
      let size := (Text.utf8 start).length
      Text.startsWith (Text.lowerAscii start) (Text.lowerAscii path) &&
        ((Text.utf8 path).length == size || (Text.utf8 path)[size]? == some 0x2F)
    | none => Text.lowerAscii pattern == Text.lowerAscii path

def checkScope (frame : IdentFrame) (targetPath : String) : Except Failure Unit :=
  match ((frame.scope.bind Value.asObject).bind (get "nodes")).bind Value.asArray with
  | none => .error ⟨6, .certScopeViolation, "IdentFrame scope is missing 'nodes' field."⟩
  | some nodes =>
    if nodes.any fun pattern => (pattern.asStr.map (nwpPathMatches · targetPath)).getD false then .ok ()
    else .error ⟨6, .certScopeViolation,
      "Target path '" ++ targetPath ++ "' is not covered by the certificate scope."⟩

def excess (claimed attested : List String) : List String :=
  claimed.filter fun c => !attested.contains c

/-- Unpadded base64url, or padded, or the standard alphabet. -/
def stapleDecode (text : String) : Option Bytes :=
  ((Base64.decode .urlSafe .none text).toOption.or
    (Base64.decode .urlSafe .canonical text).toOption).or
      (Base64.decode .standard .canonical text).toOption

section
variable [TimeText]

/-- Roles, then capabilities, both only when attested, then an unexpired OCSP staple. -/
def enforce (frame : IdentFrame) (leafDer : Bytes) (now : Instant) :
    Except X509.Der.Panic (Except Failure Unit) := do
  if let some attested := X509.Der.readUtf8SequenceExtension leafDer X509.idNpsNodeRolesOid then
    let excess := excess (frame.nodeRoles.getD []) attested
    if excess ≠ [] then
      return .error ⟨3, .certNodeRolesMismatch,
        "IdentFrame.node_roles claims role(s) not attested by id-nps-node-roles: " ++
          ", ".intercalate excess ++ "."⟩
  if let some attested := X509.Der.readUtf8SequenceExtension leafDer X509.idNpsCapabilitiesOid then
    let excess := excess frame.capabilities attested
    if excess ≠ [] then
      return .error ⟨3, .certCapabilitiesExceeded,
        "IdentFrame.capabilities claims capabilit(ies) not attested by id-nps-capabilities: " ++
          ", ".intercalate excess ++ "."⟩
  let staple := frame.ocspStaple.getD ""
  if staple = "" then
    return .error ⟨3, .ocspStapleExpired,
      "Phase-3 enforcement requires ocsp_staple on v2-x509 IdentFrames; none was supplied."⟩
  let some der := stapleDecode staple
    | return .error ⟨3, .ocspStapleExpired, "ocsp_staple is not valid base64url."⟩
  let some nextUpdate ← X509.Der.tryGetOcspNextUpdate der
    | return .error ⟨3, .ocspStapleExpired,
        "ocsp_staple could not be parsed as a DER OCSPResponse with a nextUpdate."⟩
  if nextUpdate ≤ now then
    return .error ⟨3, .ocspStapleExpired,
      "ocsp_staple nextUpdate " ++ TimeText.format nextUpdate ++ " has elapsed."⟩
  return .ok ()

end

section
variable [Ed25519] [X509.CertificateParser] [TimeText] (verifier : NipIdentVerifier)

def checkExpiry (frame : IdentFrame) (now : Instant) : Except Failure Unit :=
  match frame.expiresAt with
  | none => .ok ()
  | some expiresAt =>
    match TimeText.parse expiresAt with
    | some exp =>
      if exp > now then .ok ()
      else .error ⟨1, .certExpired, s!"Certificate expired at {expiresAt}."⟩
    | none => .error ⟨1, .certExpired, s!"Certificate expired at {expiresAt}."⟩

def checkIssuer (frame : IdentFrame) (issuerNid : String) : Except Failure String :=
  let trusted : Except Failure String :=
    match verifier.options.trustedCaPublicKeys.lookup issuerNid with
    | some key => .ok key
    | none => .error ⟨2, .certUntrustedIssuer,
        s!"Issuer '{issuerNid}' is not in the trusted issuers list."⟩
  match frame.issuedBy with
  | some declared =>
    if declared ≠ issuerNid then
      .error ⟨2, .certUntrustedIssuer,
        s!"Issuer '{declared}' does not match expected issuer '{issuerNid}'."⟩
    else trusted
  | none => trusted

def checkAssurance (frame : IdentFrame) : Except Failure Unit :=
  match verifier.options.minAssuranceLevel with
  | none => .ok ()
  | some min =>
    let got := frame.assuranceLevel.getD .anonymous
    if got.meetsOrExceeds min then .ok ()
    else .error ⟨3, .assuranceMismatch, "assurance_level (" ++ got.wire ++
      ") below required minimum (" ++ min.wire ++ ")"⟩

/-- Only frames that declare themselves v2, and only with trust anchors configured. -/
def usesX509 (frame : IdentFrame) : Bool :=
  decide (verifier.options.trustedX509RootsDer ≠ []) && decide (frame.certFormat = some "v2-x509")

def checkPhase3 (frame : IdentFrame) (chain : List String) (now : Instant) :
    Except X509.Der.Panic (Except Failure Unit) :=
  match chain with
  | [] => .ok (.error ⟨3, .certFormatInvalid, "cert_chain is empty."⟩)
  | leaf :: _ =>
    match Base64.decode .urlSafe .none leaf with
    | .error _ =>
      .ok (.error ⟨3, .certFormatInvalid, "cert_chain[0] is not valid base64url DER."⟩)
    | .ok leafDer => enforce frame leafDer now

def checkX509 (frame : IdentFrame) (now : Instant) : Except X509.Der.Panic (Except Failure Unit) :=
  if usesX509 verifier frame then
    let chain := frame.certChain.getD []
    let result := X509.verify {
      certChainB64uDer := chain, assertedNid := frame.nid
      assertedAssuranceLevel := frame.assuranceLevel
      trustedRootCertsDer := verifier.options.trustedX509RootsDer }
    if !result.valid then
      .ok (.error ⟨3, result.errorCode.getD .certFormatInvalid,
        result.message.getD "X.509 chain validation failed"⟩)
    else if verifier.options.phase3Enforcement then checkPhase3 frame chain now
    else .ok (.ok ())
  else .ok (.ok ())

def checkCapabilitiesHeld (frame : IdentFrame) (context : NipVerifyContext) : Except Failure Unit :=
  let missing := context.requiredCapabilities.filter fun c => !frame.capabilities.contains c
  if missing = [] then .ok ()
  else .error ⟨5, .certCapabilityMissing,
    "Certificate is missing required capabilities: " ++ ", ".intercalate missing ++ "."⟩

def checkTarget (frame : IdentFrame) (context : NipVerifyContext) : Except Failure Unit :=
  match context.targetNodePath with
  | none => .ok ()
  | some target => checkScope frame target

/-- The pure steps before the certificate chain. -/
def checkSigned (frame : IdentFrame) (issuerNid : String) (now : Instant) : Except Failure Unit := do
  checkExpiry frame now
  let caPubKeyStr ← checkIssuer verifier frame issuerNid
  verifySignature frame caPubKeyStr
  checkAssurance verifier frame

/-- What a caller may rely on once the frame is known to be the CA's and not revoked. -/
def checkGranted (frame : IdentFrame) (context : NipVerifyContext) : Except Failure Unit := do
  checkCapabilitiesHeld frame context
  checkTarget frame context

def steps (frame : IdentFrame) (issuerNid : String) (context : NipVerifyContext) :
    Except X509.Der.Panic (Except NipIdentVerifyResult Unit) := do
  let now := context.asOf.getD verifier.clock
  let refuse (failure : Failure) : NipIdentVerifyResult := .fail failure
  match (checkSigned verifier frame issuerNid now).mapError refuse with
  | .error r => return .error r
  | .ok () =>
    match (← checkX509 verifier frame now).mapError refuse with
    | .error r => return .error r
    | .ok () =>
      return do
        checkRevocation verifier frame
        (checkGranted frame context).mapError refuse

def verify (frame : IdentFrame) (issuerNid : String) (context : NipVerifyContext) :
    Except X509.Der.Panic NipIdentVerifyResult := do
  match ← steps verifier frame issuerNid context with
  | .ok () => return .ok
  | .error r => return r

end
end Nps.Nip
