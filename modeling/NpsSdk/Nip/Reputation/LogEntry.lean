import NpsSdk.Lib.Base64
import NpsSdk.Nip.Platform

/-! Entries of a reputation log, the leaves made of them, and the verifier of inclusion proofs. -/
namespace Nps.Nip.Reputation
open Json
open Wire (Bytes)

inductive IncidentType where
  | other | certRevoked | rateLimitViolation | tosViolation | scrapingPattern | paymentDefault
  | contractDispute | impersonationClaim | positiveAttestation
deriving DecidableEq, Repr

def IncidentType.toWire : IncidentType → String
  | other => "other"
  | certRevoked => "cert-revoked"
  | rateLimitViolation => "rate-limit-violation"
  | tosViolation => "tos-violation"
  | scrapingPattern => "scraping-pattern"
  | paymentDefault => "payment-default"
  | contractDispute => "contract-dispute"
  | impersonationClaim => "impersonation-claim"
  | positiveAttestation => "positive-attestation"

inductive Severity where
  | info | minor | moderate | major | critical
deriving DecidableEq, Repr

def Severity.toWire : Severity → String
  | info => "info"
  | minor => "minor"
  | moderate => "moderate"
  | major => "major"
  | critical => "critical"

def Severity.rank : Severity → Nat
  | info => 0
  | minor => 1
  | moderate => 2
  | major => 3
  | critical => 4

structure ObservationWindow where
  start : String
  «end» : String

def ObservationWindow.toValue (window : ObservationWindow) : Value :=
  .object (insert "start" (.string window.start) (insert "end" (.string window.end) []))

structure ReputationLogEntry where
  v : Nat
  logId : String
  seq : Nat
  timestamp : String
  subjectNid : String
  incident : IncidentType
  incidentRaw : Option String := none
  severity : Severity
  window : Option ObservationWindow := none
  observation : Option Value := none
  evidenceRef : Option String := none
  evidenceSha256 : Option String := none
  issuerNid : String
  signature : String

structure SignedTreeHead where
  treeSize : UInt64
  sha256RootHash : String

structure InclusionProof where
  leafIndex : UInt64
  treeSize : UInt64
  leafHash : String
  auditPath : List String

def incidentWire (entry : ReputationLogEntry) : String :=
  match entry.incident with
  | .other => entry.incidentRaw.getD "other"
  | known => known.toWire

def signingMap (entry : ReputationLogEntry) : Fields :=
  let m := insert "v" (integer entry.v) []
  let m := insert "log_id" (.string entry.logId) m
  let m := insert "seq" (integer entry.seq) m
  let m := insert "timestamp" (.string entry.timestamp) m
  let m := insert "subject_nid" (.string entry.subjectNid) m
  let m := insert "incident" (.string (incidentWire entry)) m
  let m := insert "severity" (.string entry.severity.toWire) m
  let m := insert "issuer_nid" (.string entry.issuerNid) m
  let m := insertSome "window" (entry.window.map ObservationWindow.toValue) m
  let m := insertSome "observation" entry.observation m
  let m := insertSome "evidence_ref" (entry.evidenceRef.map .string) m
  insertSome "evidence_sha256" (entry.evidenceSha256.map .string) m

def leafCanonicalJson (entry : ReputationLogEntry) : String :=
  (Value.object (insert "signature" (.string entry.signature) (signingMap entry))).text

def base64urlDecode (text : String) : Except Base64.DecodeError Bytes :=
  Base64.decode .urlSafe .none text

/-- Built with overflow checks, a `u64` is not shifted by 64 bits or more. -/
inductive Panic where
  | shiftOverflow
deriving DecidableEq, Repr

section
variable [Sha256]

/-- The digest at the end of the audit path; none when a sibling is not the text of 32 bytes. -/
def foldPath (leafIndex : Nat) : (level : Nat) → List String → Bytes → Except Panic (Option Bytes)
  | _, [], node => .ok (some node)
  | level, step :: steps, node =>
    match base64urlDecode step with
    | .error _ => .ok none
    | .ok sibling =>
      if sibling.length ≠ 32 then .ok none
      else if 64 ≤ level then .error .shiftOverflow
      else
        let buf :=
          if (leafIndex >>> level) &&& 1 = 0 then 0x01 :: (node ++ sibling)
          else 0x01 :: (sibling ++ node)
        foldPath leafIndex (level + 1) steps (Sha256.digest buf)

/-- The sizes that the proof and the tree head name are not looked at. -/
def verifyInclusion (proof : InclusionProof) (sth : SignedTreeHead) (entry : ReputationLogEntry) :
    Except Panic Bool :=
  let leaf := Sha256.digest (0x00 :: Text.utf8 (leafCanonicalJson entry))
  match base64urlDecode proof.leafHash with
  | .error _ => .ok false
  | .ok expectedLeaf =>
    if leaf ≠ expectedLeaf then .ok false
    else match foldPath proof.leafIndex.toNat 0 proof.auditPath leaf with
      | .error panic => .error panic
      | .ok none => .ok false
      | .ok (some node) =>
        match base64urlDecode sth.sha256RootHash with
        | .error _ => .ok false
        | .ok expectedRoot => .ok (decide (node = expectedRoot))

end
end Nps.Nip.Reputation
