import NpsSdk.Core.Codec
import NpsSdk.Nip.Platform

/-! The identity frame, the dictionary its v1 signature covers and its wire dictionary. -/
namespace Nps.Nip
open Nps.Core Json

inductive ErrorCode where
  | certExpired | certRevoked | certSignatureInvalid | certUntrustedIssuer
  | certCapabilityMissing | certScopeViolation | caNidNotFound | caNidAlreadyExists
  | caSerialDuplicate | caRenewalTooEarly | caScopeExpansionDenied | raTokenInvalid
  | raTokenExpired | raNidNotAllowed | raPendingRejected | ocspUnavailable
  | assuranceMismatch | assuranceUnknown | certFormatInvalid | certEkuMissing
  | certSubjectNidMismatch | caGroupRevoked | caParentNotFound | caParentNotGroup
  | caSessionValidityInvalid | caJwsInvalid | caJwsExpired | certParentRevoked
  | ocspStapleExpired | certNodeRolesMismatch | certCapabilitiesExceeded
deriving DecidableEq, Repr

def ErrorCode.wire : ErrorCode → String
  | certExpired => "NIP-CERT-EXPIRED"
  | certRevoked => "NIP-CERT-REVOKED"
  | certSignatureInvalid => "NIP-CERT-SIGNATURE-INVALID"
  | certUntrustedIssuer => "NIP-CERT-UNTRUSTED-ISSUER"
  | certCapabilityMissing => "NIP-CERT-CAPABILITY-MISSING"
  | certScopeViolation => "NIP-CERT-SCOPE-VIOLATION"
  | caNidNotFound => "NIP-CA-NID-NOT-FOUND"
  | caNidAlreadyExists => "NIP-CA-NID-ALREADY-EXISTS"
  | caSerialDuplicate => "NIP-CA-SERIAL-DUPLICATE"
  | caRenewalTooEarly => "NIP-CA-RENEWAL-TOO-EARLY"
  | caScopeExpansionDenied => "NIP-CA-SCOPE-EXPANSION-DENIED"
  | raTokenInvalid => "NIP-RA-TOKEN-INVALID"
  | raTokenExpired => "NIP-RA-TOKEN-EXPIRED"
  | raNidNotAllowed => "NIP-RA-NID-NOT-ALLOWED"
  | raPendingRejected => "NIP-RA-PENDING-REJECTED"
  | ocspUnavailable => "NIP-OCSP-UNAVAILABLE"
  | assuranceMismatch => "NIP-ASSURANCE-MISMATCH"
  | assuranceUnknown => "NIP-ASSURANCE-UNKNOWN"
  | certFormatInvalid => "NIP-CERT-FORMAT-INVALID"
  | certEkuMissing => "NIP-CERT-EKU-MISSING"
  | certSubjectNidMismatch => "NIP-CERT-SUBJECT-NID-MISMATCH"
  | caGroupRevoked => "NIP-CA-GROUP-REVOKED"
  | caParentNotFound => "NIP-CA-PARENT-NOT-FOUND"
  | caParentNotGroup => "NIP-CA-PARENT-NOT-GROUP"
  | caSessionValidityInvalid => "NIP-CA-SESSION-VALIDITY-INVALID"
  | caJwsInvalid => "NIP-CA-JWS-INVALID"
  | caJwsExpired => "NIP-CA-JWS-EXPIRED"
  | certParentRevoked => "NIP-CERT-PARENT-REVOKED"
  | ocspStapleExpired => "NIP-OCSP-STAPLE-EXPIRED"
  | certNodeRolesMismatch => "NIP-CERT-NODE-ROLES-MISMATCH"
  | certCapabilitiesExceeded => "NIP-CERT-CAPABILITIES-EXCEEDED"

inductive AssuranceLevel where
  | anonymous | attested | verified
deriving DecidableEq, Repr

namespace AssuranceLevel

def wire : AssuranceLevel → String
  | anonymous => "anonymous"
  | attested => "attested"
  | verified => "verified"

def rank : AssuranceLevel → Nat
  | anonymous => 0
  | attested => 1
  | verified => 2

def meetsOrExceeds (level required : AssuranceLevel) : Bool := decide (level.rank ≥ required.rank)

/-- The empty text stands for the lowest level; any other text must be a level's own. -/
def fromWire (wire : String) : Option AssuranceLevel :=
  if wire = "" then some anonymous
  else [anonymous, attested, verified].find? fun level => level.wire == wire

theorem wire_injective {a b : AssuranceLevel} (same : a.wire = b.wire) : a = b := by
  cases a <;> cases b <;> first | rfl | exact absurd same (by decide)

end AssuranceLevel

structure IdentReputationPolicyHint where
  logSources : List String := []
  consent : Bool := false
deriving DecidableEq

namespace IdentReputationPolicyHint

def toValue (hint : IdentReputationPolicyHint) : Value :=
  let consent := insert "consent" (.bool hint.consent) []
  .object (if hint.logSources = [] then consent
    else insert "log_sources" (.array (hint.logSources.map .string)) consent)

def strings : List Value → Option (List String)
  | [] => some []
  | .string text :: rest => (strings rest).map (text :: ·)
  | _ => none

def readSources : Option Value → Option (List String)
  | none => some []
  | some (.array items) => strings items
  | some _ => none

def readConsent : Option Value → Option Bool
  | none => some false
  | some (.bool consent) => some consent
  | some _ => none

/-- A derived reader takes the fields by name or, from an array, by position. -/
def fromValue : Value → Option IdentReputationPolicyHint
  | .object fields => do
    let logSources ← readSources (get "log_sources" fields)
    let consent ← readConsent (get "consent" fields)
    return { logSources, consent }
  | .array items => do
    let logSources ← readSources items[0]?
    let consent ← readConsent items[1]?
    if items.length ≤ 2 then return { logSources, consent } else none
  | _ => none

end IdentReputationPolicyHint

structure IdentFrame where
  nid : String
  pubKey : String
  metadata : Option Fields := none
  signature : Option String := none
  capabilities : List String := []
  scope : Option Value := none
  issuedBy : Option String := none
  issuedAt : Option String := none
  expiresAt : Option String := none
  serial : Option String := none
  assuranceLevel : Option AssuranceLevel := none
  certFormat : Option String := none
  certChain : Option (List String) := none
  ocspStaple : Option String := none
  reputationPolicy : Option IdentReputationPolicyHint := none
  nodeRoles : Option (List String) := none

def getStr (dict : FrameDict) (key : String) : NpsResult String :=
  match (get key dict).bind Value.asStr with
  | some text => .ok text
  | none => .error (.frame s!"missing field: {key}")

def optStr (dict : FrameDict) (key : String) : Option String :=
  (get key dict).bind Value.asStr

def stringList (dict : FrameDict) (key : String) : Option (List String) :=
  ((get key dict).bind Value.asArray).map fun items => items.filterMap Value.asStr

namespace IdentFrame

/-- The dictionary the v1 signature covers. -/
def unsignedDict (frame : IdentFrame) : FrameDict :=
  insertSome "assurance_level" (frame.assuranceLevel.map fun level => .string level.wire)
    (insertSome "metadata" (frame.metadata.map .object)
      (insert "pub_key" (.string frame.pubKey) (insert "nid" (.string frame.nid) [])))

def toDict (frame : IdentFrame) : FrameDict :=
  let m := frame.unsignedDict
  let m := insertSome "capabilities"
    (if frame.capabilities = [] then none else some (stringArray frame.capabilities)) m
  let m := insertSome "scope" frame.scope m
  let m := insertSome "issued_by" (frame.issuedBy.map .string) m
  let m := insertSome "issued_at" (frame.issuedAt.map .string) m
  let m := insertSome "expires_at" (frame.expiresAt.map .string) m
  let m := insertSome "serial" (frame.serial.map .string) m
  let m := insertSome "signature" (frame.signature.map .string) m
  let m := insertSome "cert_format" (frame.certFormat.map .string) m
  let m := insertSome "cert_chain" (frame.certChain.map stringArray) m
  let m := insertSome "ocsp_staple" (frame.ocspStaple.map .string) m
  let m := insertSome "reputation_policy" (frame.reputationPolicy.map (·.toValue)) m
  insertSome "node_roles" (frame.nodeRoles.map stringArray) m

def fromDict (dict : FrameDict) : NpsResult IdentFrame := do
  let nid ← getStr dict "nid"
  let pubKey ← getStr dict "pub_key"
  return {
    nid, pubKey
    metadata := (get "metadata" dict).bind Value.asObject
    signature := optStr dict "signature"
    capabilities := (stringList dict "capabilities").getD []
    scope := get "scope" dict
    issuedBy := optStr dict "issued_by"
    issuedAt := optStr dict "issued_at"
    expiresAt := optStr dict "expires_at"
    serial := optStr dict "serial"
    assuranceLevel := (optStr dict "assurance_level").bind AssuranceLevel.fromWire
    certFormat := optStr dict "cert_format"
    certChain := stringList dict "cert_chain"
    ocspStaple := optStr dict "ocsp_staple"
    reputationPolicy :=
      (get "reputation_policy" dict).bind IdentReputationPolicyHint.fromValue
    nodeRoles := stringList dict "node_roles" }

end IdentFrame

theorem filterMap_asStr (texts : List String) :
    (texts.map Value.string).filterMap Value.asStr = texts := by
  induction texts with
  | nil => rfl
  | cons text texts ih => simp [Value.asStr, ih]

theorem AssuranceLevel.fromWire_wire (level : AssuranceLevel) :
    fromWire level.wire = some level := by
  cases level <;> decide

theorem IdentReputationPolicyHint.strings_map (texts : List String) :
    strings (texts.map Value.string) = some texts := by
  induction texts with
  | nil => rfl
  | cons text texts ih => simp [strings, ih]

theorem IdentReputationPolicyHint.fromValue_toValue (hint : IdentReputationPolicyHint) :
    fromValue hint.toValue = some hint := by
  obtain ⟨sources, consent⟩ := hint
  by_cases empty : sources = []
  · subst empty
    rfl
  · have other : ("consent" : String) ≠ "log_sources" := by decide
    simp [toValue, fromValue, empty, get_insert_ne other, readSources, readConsent, strings_map]

theorem optStr_of_get {dict : FrameDict} {key : String} {field : Option String}
    (stored : get key dict = field.map .string) : optStr dict key = field := by
  rw [optStr, stored]
  cases field <;> rfl

theorem stringList_of_get {dict : FrameDict} {key : String} {field : Option (List String)}
    (stored : get key dict = field.map stringArray) : stringList dict key = field := by
  rw [stringList, stored]
  cases field with
  | none => rfl
  | some texts =>
    simp only [stringArray, Option.map_some, Option.bind_some, Value.asArray, filterMap_asStr]

namespace IdentFrame

theorem get_toDict (frame : IdentFrame) :
    get "nid" frame.toDict = some (.string frame.nid) ∧
    get "pub_key" frame.toDict = some (.string frame.pubKey) ∧
    get "metadata" frame.toDict = frame.metadata.map .object ∧
    get "assurance_level" frame.toDict = frame.assuranceLevel.map (fun level => .string level.wire) ∧
    get "capabilities" frame.toDict =
      (if frame.capabilities = [] then none else some (stringArray frame.capabilities)) ∧
    get "scope" frame.toDict = frame.scope ∧
    get "issued_by" frame.toDict = frame.issuedBy.map .string ∧
    get "issued_at" frame.toDict = frame.issuedAt.map .string ∧
    get "expires_at" frame.toDict = frame.expiresAt.map .string ∧
    get "serial" frame.toDict = frame.serial.map .string ∧
    get "signature" frame.toDict = frame.signature.map .string ∧
    get "cert_format" frame.toDict = frame.certFormat.map .string ∧
    get "cert_chain" frame.toDict = frame.certChain.map stringArray ∧
    get "ocsp_staple" frame.toDict = frame.ocspStaple.map .string ∧
    get "reputation_policy" frame.toDict = frame.reputationPolicy.map (·.toValue) ∧
    get "node_roles" frame.toDict = frame.nodeRoles.map stringArray := by
  have empty (key : String) : get key ([] : FrameDict) = none := rfl
  simp (disch := decide) only [toDict, unsignedDict, get_insertSome_ne, get_insertSome_self,
    get_insert_ne, get_insert_self, empty, Option.or_none, and_self]

/-- Reading the wire dictionary back gives the frame, with every optional field it had. -/
theorem fromDict_toDict (frame : IdentFrame) : fromDict frame.toDict = .ok frame := by
  obtain ⟨nid, pubKey, metadata, assurance, capabilities, scope, issuedBy, issuedAt, expiresAt,
    serial, signature, certFormat, certChain, ocspStaple, reputation, nodeRoles⟩ :=
    get_toDict frame
  have level : (optStr frame.toDict "assurance_level").bind AssuranceLevel.fromWire =
      frame.assuranceLevel := by
    rw [optStr, assurance]
    cases frame.assuranceLevel <;> simp [Value.asStr, AssuranceLevel.fromWire_wire]
  have held : (stringList frame.toDict "capabilities").getD [] = frame.capabilities := by
    rw [stringList, capabilities]
    by_cases empty : frame.capabilities = []
    · simp [empty]
    · simp only [empty, if_false, stringArray, Option.bind_some, Value.asArray, Option.map_some,
        filterMap_asStr, Option.getD_some]
  have hint : (get "reputation_policy" frame.toDict).bind IdentReputationPolicyHint.fromValue =
      frame.reputationPolicy := by
    rw [reputation]
    cases frame.reputationPolicy <;> simp [IdentReputationPolicyHint.fromValue_toValue]
  have meta' : (get "metadata" frame.toDict).bind Value.asObject = frame.metadata := by
    rw [metadata]
    cases frame.metadata <;> rfl
  simp only [fromDict, getStr, nid, pubKey, Option.bind_some, Value.asStr, Outcome.ok_bind,
    Outcome.pure_eq, level, held, hint, meta', scope, optStr_of_get issuedBy,
    optStr_of_get issuedAt, optStr_of_get expiresAt, optStr_of_get serial,
    optStr_of_get signature, optStr_of_get certFormat, stringList_of_get certChain,
    optStr_of_get ocspStaple, stringList_of_get nodeRoles]

end IdentFrame
end Nps.Nip
