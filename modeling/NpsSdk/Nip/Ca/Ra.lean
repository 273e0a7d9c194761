import NpsSdk.Nip.Ca.Service

/-! The registration authority: the enrollment policy a registration passes before the CA
issues its frame, in three tiers. -/
namespace Nps.Nip.Ca
open Interaction Interaction.Prog

structure EnrollmentRequest where
  entityType : String
  identifier : String
  pubKey : String
  capabilities : List String
  scopeJson : String
  metadataJson : Option String
  enrollmentToken : Option String

inductive EnrollmentOutcome where
  | admitted
  | deny (error : NipCaError)
  | pending (pendingId : String)

abbrev EnrollmentPolicy := EnrollmentRequest → CaProg EnrollmentOutcome

/-- `*` stands for any run of bytes and `?` for one. -/
def globBytes : List UInt8 → List UInt8 → Bool
  | [], input => input.isEmpty
  | 0x2A :: pattern, [] => globBytes pattern []
  | 0x2A :: pattern, byte :: input =>
    globBytes pattern (byte :: input) || globBytes (0x2A :: pattern) input
  | _ :: _, [] => false
  | c :: pattern, byte :: input => (c == 0x3F || byte == c) && globBytes pattern input
termination_by pattern input => pattern.length + input.length

def globMatch (pattern input : String) : Bool :=
  pattern == "*" || globBytes (Text.utf8 pattern) (Text.utf8 input)

def allowlistPolicy (patterns : List String) : EnrollmentPolicy := fun request =>
  if patterns.any (globMatch · request.identifier) then return .admitted
  else return .deny {
    message := s!"Identifier '{request.identifier}' does not match any enrollment allowlist pattern."
    code := .raNidNotAllowed }

def bootstrapTokenPolicy : EnrollmentPolicy := fun request => do
  let token := request.enrollmentToken.getD ""
  if token = "" ∨ Text.startsWith "nps-bootstrap-" token = false then
    return .deny {
      message := "A bootstrap token (prefix 'nps-bootstrap-') is required for enrollment."
      code := .raTokenInvalid }
  let consumed ← Ask.validateAndConsume token
  if consumed then return .admitted
  else return .deny {
    message := "Bootstrap token is invalid, expired, or already consumed."
    code := .raTokenExpired }

/-- Every request is queued while there is room. -/
def pendingQueuePolicy (maxSize : Nat) : EnrollmentPolicy := fun request => do
  let count ← Ask.pendingCount
  if count ≥ maxSize then
    return .deny {
      message := s!"Pending enrollment queue is full (max {maxSize}). Retry later."
      code := .raTokenInvalid }
  let random ← Ask.randomBytes 16
  let id := Hex.encode random.1
  let requestedAt ← Ask.now
  let _ ← Ask.enqueue {
    id, entityType := request.entityType, identifier := request.identifier
    pubKey := request.pubKey, capabilities := request.capabilities
    scopeJson := request.scopeJson, metadataJson := request.metadataJson
    requestedAt, status := .pending }
  return .pending id

/-- The policy of the configured tier, when the store it needs is there. -/
def createEnrollmentPolicy (opts : NipCaOptions) (bootstrapStore pendingStore : Bool) :
    Except String EnrollmentPolicy :=
  match opts.enrollmentTier with
  | .allowlist => .ok (allowlistPolicy opts.enrollmentAllowlistPatterns)
  | .bootstrapToken =>
    if bootstrapStore then .ok bootstrapTokenPolicy
    else .error "EnrollmentTier::BootstrapToken requires a BootstrapTokenStore."
  | .pendingQueue =>
    if pendingStore then .ok (pendingQueuePolicy opts.pendingQueueMaxSize)
    else .error "EnrollmentTier::PendingQueue requires a PendingStore."

def clampBootstrapTtl (opts : NipCaOptions) (requested : Option Duration) : Duration :=
  let ttl := (requested.filter fun d => decide (d > 0)).getD opts.bootstrapTokenMaxTtl
  if ttl > opts.bootstrapTokenMaxTtl then opts.bootstrapTokenMaxTtl else ttl

inductive RegisterWithRaError where
  | ca (error : NipCaError)
  | pending (pendingId : String)

section
variable [Ed25519] [Serde] [TimeText]

def NipCaService.registerWithRa (ca : NipCaService) (request : EnrollmentRequest)
    (policy : EnrollmentPolicy) : CaProg (Except RegisterWithRaError IdentFrame) := do
  match ← policy request with
  | .deny e => return .error (.ca e)
  | .pending id => return .error (.pending id)
  | .admitted =>
    let result ← ca.register request.entityType request.identifier request.pubKey
      request.capabilities request.scopeJson request.metadataJson
    return result.mapError .ca

end
end Nps.Nip.Ca
