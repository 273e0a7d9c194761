import NpsSdk.Lib.JsonMaps
import NpsSdk.Nip.Ca.Signer
import NpsSdk.Nip.Reputation.Inclusion

/-! What the issuer's signature on a log entry is worth once the entry has been sent. The signed text
is built by hand from the fields; the text that is sent is derived, and leaves one field out. -/
namespace Nps.Nip.Reputation
open Json

/-- A name that is not known is read as another incident, whose own name is not kept. -/
def IncidentType.fromWire (s : String) : IncidentType :=
  match s with
  | "cert-revoked" => certRevoked
  | "rate-limit-violation" => rateLimitViolation
  | "tos-violation" => tosViolation
  | "scraping-pattern" => scrapingPattern
  | "payment-default" => paymentDefault
  | "contract-dispute" => contractDispute
  | "impersonation-claim" => impersonationClaim
  | "positive-attestation" => positiveAttestation
  | _ => other

def Severity.fromWire (s : String) : Option Severity :=
  match s with
  | "info" => some info
  | "minor" => some minor
  | "moderate" => some moderate
  | "major" => some major
  | "critical" => some critical
  | _ => none

def ObservationWindow.fromValue (value : Value) : Option ObservationWindow := do
  let get ← Reading.fields ["start", "end"] value
  return {
    start := ← (get "start").bind Value.asStr
    «end» := ← (get "end").bind Value.asStr }

namespace ReputationLogEntry

/-- The fields in the order they are declared in; the raw name of an incident is skipped. -/
def fields (window : ObservationWindow → Value) (entry : ReputationLogEntry) : Fields :=
  [("v", integer entry.v), ("log_id", .string entry.logId), ("seq", integer entry.seq),
    ("timestamp", .string entry.timestamp), ("subject_nid", .string entry.subjectNid),
    ("incident", .string entry.incident.toWire), ("severity", .string entry.severity.toWire)] ++
  skipNone "window" (entry.window.map window) ++ skipNone "observation" entry.observation ++
  skipNone "evidence_ref" (entry.evidenceRef.map .string) ++
  skipNone "evidence_sha256" (entry.evidenceSha256.map .string) ++
  [("issuer_nid", .string entry.issuerNid), ("signature", .string entry.signature)]

/-- `serde_json::to_string`. -/
def wireText (entry : ReputationLogEntry) : String :=
  (Value.object (entry.fields fun window =>
    .object [("start", .string window.start), ("end", .string window.end)])).text

def toValue (entry : ReputationLogEntry) : Value := document (entry.fields ObservationWindow.toValue)

def fromValue (value : Value) : Option ReputationLogEntry := do
  let get ← Reading.fields ["v", "log_id", "seq", "timestamp", "subject_nid", "incident", "severity",
    "window", "observation", "evidence_ref", "evidence_sha256", "issuer_nid", "signature"] value
  return {
    v := ← (get "v").bind (Reading.below (2 ^ 32))
    logId := ← (get "log_id").bind Value.asStr
    seq := ← (get "seq").bind (Reading.below (2 ^ 64))
    timestamp := ← (get "timestamp").bind Value.asStr
    subjectNid := ← (get "subject_nid").bind Value.asStr
    incident := .fromWire (← (get "incident").bind Value.asStr)
    severity := ← ((get "severity").bind Value.asStr).bind Severity.fromWire
    window := ← Reading.optional ObservationWindow.fromValue (get "window")
    observation := ← Reading.optional some (get "observation")
    evidenceRef := ← Reading.optional Value.asStr (get "evidence_ref")
    evidenceSha256 := ← Reading.optional Value.asStr (get "evidence_sha256")
    issuerNid := ← (get "issuer_nid").bind Value.asStr
    signature := ← (get "signature").bind Value.asStr }

/-- The ranges of the source's integer types. -/
def Fits (entry : ReputationLogEntry) : Prop := entry.v < 2 ^ 32 ∧ entry.seq < 2 ^ 64

/-- What is left of an entry that is read back. -/
def received (entry : ReputationLogEntry) : ReputationLogEntry :=
  { entry with incidentRaw := none, observation := Reading.kept entry.observation }

end ReputationLogEntry

theorem IncidentType.fromWire_toWire (incident : IncidentType) : fromWire incident.toWire = incident := by
  cases incident <;> rfl

theorem Severity.fromWire_toWire (severity : Severity) : fromWire severity.toWire = some severity := by
  cases severity <;> rfl

theorem ObservationWindow.fromValue_toValue (window : ObservationWindow) :
    fromValue window.toValue = some window := by
  have other : ("end" : String) ≠ "start" := by decide
  simp [fromValue, toValue, Reading.fields, get_insert_ne other, Value.asStr]

namespace ReputationLogEntry

theorem get_fields (window : ObservationWindow → Value) (entry : ReputationLogEntry) :
    get "v" (entry.fields window) = some (integer entry.v) ∧
    get "log_id" (entry.fields window) = some (.string entry.logId) ∧
    get "seq" (entry.fields window) = some (integer entry.seq) ∧
    get "timestamp" (entry.fields window) = some (.string entry.timestamp) ∧
    get "subject_nid" (entry.fields window) = some (.string entry.subjectNid) ∧
    get "incident" (entry.fields window) = some (.string entry.incident.toWire) ∧
    get "severity" (entry.fields window) = some (.string entry.severity.toWire) ∧
    get "window" (entry.fields window) = entry.window.map window ∧
    get "observation" (entry.fields window) = entry.observation ∧
    get "evidence_ref" (entry.fields window) = entry.evidenceRef.map .string ∧
    get "evidence_sha256" (entry.fields window) = entry.evidenceSha256.map .string ∧
    get "issuer_nid" (entry.fields window) = some (.string entry.issuerNid) ∧
    get "signature" (entry.fields window) = some (.string entry.signature) := by
  have empty (key : String) : get key ([] : Fields) = none := rfl
  simp only [fields, get_append, get_cons_self, get_cons_ne, get_skipNone_self, ne_eq, String.reduceEq,
    not_false_eq_true, get_skipNone_ne, empty, Option.none_or, Option.or_none, and_self]

/-- The reader takes every field that was written, except an observation that is null. -/
theorem fromValue_toValue {entry : ReputationLogEntry} (fits : entry.Fits) :
    fromValue entry.toValue = some entry.received := by
  obtain ⟨v, logId, seq, timestamp, subjectNid, incident, severity, window, observation, ref, sha256,
    issuerNid, signature⟩ := get_fields ObservationWindow.toValue entry
  have window' := Reading.optional_map ObservationWindow.fromValue_toValue
    (by simp [ObservationWindow.toValue]) entry.window
  have back (text : String) : Value.asStr (.string text) = some text := rfl
  have text := Reading.optional_map back (by simp)
  have found : Reading.fields ["v", "log_id", "seq", "timestamp", "subject_nid", "incident", "severity",
      "window", "observation", "evidence_ref", "evidence_sha256", "issuer_nid", "signature"]
      entry.toValue = some fun name => get name (entry.fields ObservationWindow.toValue) := by
    simp only [toValue, document, Reading.fields, get_sortEntries]
  unfold fromValue
  rw [found, Option.bind_eq_bind, Option.bind_some]
  beta_reduce
  rw [v, logId, seq, timestamp, subjectNid, incident, severity, window, observation, ref, sha256,
    issuerNid, signature, window', text, text, Reading.optional_some]
  simp only [Option.bind_eq_bind, Option.bind_some, Value.asStr,
    Reading.below_integer fits.1 (by decide), Reading.below_integer fits.2 (Nat.le_refl _),
    IncidentType.fromWire_toWire, Severity.fromWire_toWire]
  rfl

end ReputationLogEntry

section
variable [Ed25519]

def canonicalText (entry : ReputationLogEntry) : String := (Value.object (signingMap entry)).text

def signEntry (key : Ed25519.SigningKey) (entry : ReputationLogEntry) : ReputationLogEntry :=
  { entry with
    signature := "ed25519:" ++ Base64.encode .standard .canonical
      (Ed25519.sign key (Text.utf8 (canonicalText entry))).1 }

def verifyEntry (key : Ed25519.VerifyingKey) (entry : ReputationLogEntry) : Bool :=
  match Text.stripPrefix? "ed25519:" entry.signature with
  | none => false
  | some sigB64 =>
    match Base64.decode .standard .canonical sigB64 with
    | .error _ => false
    | .ok sigBytes =>
      match Signer.sized 64 sigBytes with
      | none => false
      | some sig => Ed25519.verify key (Text.utf8 (canonicalText entry)) sig

end

/-- The name that is signed is the one that is sent. -/
def Named (entry : ReputationLogEntry) : Prop :=
  entry.incident = .other → entry.incidentRaw = none ∨ entry.incidentRaw = some "other"

theorem incidentWire_received (entry : ReputationLogEntry) :
    incidentWire entry.received = incidentWire entry ↔ Named entry := by
  rw [Named, incidentWire, incidentWire, ReputationLogEntry.received]
  cases entry.incident with
  | other => cases entry.incidentRaw <;> simp [eq_comm]
  | _ => simp

theorem get_signingMap (entry : ReputationLogEntry) :
    get "incident" (signingMap entry) = some (.string (incidentWire entry)) ∧
      get "observation" (signingMap entry) = entry.observation := by
  have empty (key : String) : get key ([] : Fields) = none := rfl
  constructor <;>
    simp (disch := decide) only [signingMap, get_insertSome_ne, get_insertSome_self, get_insert_ne,
      get_insert_self, empty, Option.or_none]

theorem leafCanonicalJson_shows {entry other : ReputationLogEntry}
    (same : leafCanonicalJson entry = leafCanonicalJson other) :
    incidentWire entry = incidentWire other ∧ entry.observation = other.observation := by
  have maps := Value.object.inj (Value.text_injective same)
  have incident := congrArg (get "incident") maps
  have observation := congrArg (get "observation") maps
  rw [get_insert_ne (by decide), get_insert_ne (by decide), (get_signingMap entry).1,
    (get_signingMap other).1, Option.some.injEq, Value.string.injEq] at incident
  rw [get_insert_ne (by decide), get_insert_ne (by decide), (get_signingMap entry).2,
    (get_signingMap other).2] at observation
  exact ⟨incident, observation⟩

theorem signingMap_received {entry : ReputationLogEntry} (named : Named entry)
    (observed : entry.observation ≠ some .null) : signingMap entry.received = signingMap entry := by
  have incident := (incidentWire_received entry).mpr named
  have observation : entry.received.observation = entry.observation :=
    Reading.kept_eq_iff.mpr observed
  unfold signingMap
  rw [incident, observation]
  rfl

section
variable [Ed25519] [Serde]

/-- The entry that is read from a text. -/
def readEntry (text : String) : Option ReputationLogEntry :=
  (Serde.fromStr text).toOption.bind ReputationLogEntry.fromValue

/-- The reader of JSON reads the entry back that was written, its objects sorted. -/
def ReadsBack (entry : ReputationLogEntry) : Prop := Serde.fromStr entry.wireText = .ok entry.toValue

/-- The signed entry is sent, read and accepted, and makes the same leaf. -/
def Survives (key : Ed25519.SigningKey) (entry : ReputationLogEntry) : Prop :=
  ∃ other, readEntry (signEntry key entry).wireText = some other ∧
    verifyEntry (Ed25519.verifyingKey key) other = true ∧
    leafBytes other = leafBytes (signEntry key entry)

omit [Ed25519] in
theorem readEntry_wireText {entry : ReputationLogEntry} (fits : entry.Fits) (reads : ReadsBack entry) :
    readEntry entry.wireText = some entry.received := by
  have value : (Serde.fromStr entry.wireText).toOption = some entry.toValue := by
    rw [reads]
    rfl
  rw [readEntry, value, Option.bind_some, ReputationLogEntry.fromValue_toValue fits]

omit [Serde] in
theorem verifyEntry_signEntry {key : Ed25519.SigningKey} {entry other : ReputationLogEntry}
    (correct : ∀ message,
      Ed25519.verify (Ed25519.verifyingKey key) message (Ed25519.sign key message) = true)
    (signature : other.signature = (signEntry key entry).signature)
    (same : signingMap other = signingMap entry) :
    verifyEntry (Ed25519.verifyingKey key) other = true := by
  simp only [verifyEntry, signature, signEntry, Text.stripPrefix?_append, Base64.decode_encode,
    Signer.sized_self, canonicalText, same, correct]

/-- A signature survives the wire exactly if the name of the incident is sent as it was signed and
the observation, if there is one, is not null. -/
theorem survives_iff (key : Ed25519.SigningKey) (entry : ReputationLogEntry)
    (correct : ∀ message,
      Ed25519.verify (Ed25519.verifyingKey key) message (Ed25519.sign key message) = true)
    (reads : ReadsBack (signEntry key entry)) (fits : entry.Fits) :
    Survives key entry ↔ Named entry ∧ entry.observation ≠ some .null := by
  have read : readEntry (signEntry key entry).wireText = some (signEntry key entry).received :=
    readEntry_wireText fits reads
  constructor
  · rintro ⟨other, received, -, leaf⟩
    cases Option.some.inj (received.symm.trans read)
    obtain ⟨incident, observation⟩ := leafCanonicalJson_shows (Text.utf8_injective leaf)
    have named : Named (signEntry key entry) := (incidentWire_received _).mp incident
    have observed : Reading.kept entry.observation = entry.observation := observation
    exact ⟨named, Reading.kept_eq_iff.mp observed⟩
  · rintro ⟨named, observed⟩
    have same : signingMap (signEntry key entry).received = signingMap (signEntry key entry) :=
      signingMap_received named observed
    refine ⟨_, read, verifyEntry_signEntry correct rfl same, ?_⟩
    rw [leafBytes, leafBytes, leafCanonicalJson, leafCanonicalJson, same]
    rfl

end

namespace RawName

def plain : ReputationLogEntry where
  v := 1
  logId := "urn:nps:log:example"
  seq := 42
  timestamp := "2026-01-01T00:00:00Z"
  subjectNid := "urn:nps:agent:example.com:a"
  incident := .other
  severity := .major
  issuerNid := "urn:nps:node:example.com:i"
  signature := ""

def entry : ReputationLogEntry := { plain with incidentRaw := some "data-exfiltration" }

abbrev scheme : Ed25519 :=
  .table ⟨List.replicate 32 1, List.length_replicate⟩ fun _ =>
    some ⟨List.replicate 64 2, List.length_replicate⟩

abbrev readerOf (entry : ReputationLogEntry) : Serde := .table [(entry.wireText, entry.toValue)]

theorem readerOf_reads (entry : ReputationLogEntry) :
    letI := readerOf entry
    ReadsBack entry := by
  simp [ReadsBack, Serde.fromStr]

theorem scheme_correct (message : Wire.Bytes) :
    letI := scheme
    Ed25519.verify (Ed25519.verifyingKey ()) message (Ed25519.sign () message) = true :=
  decide_eq_true ⟨rfl, rfl⟩

theorem plain_fits : plain.Fits := ⟨by decide, by decide⟩

abbrev reader (entry : ReputationLogEntry) : Serde := readerOf (@signEntry scheme () entry)

theorem plain_survives : letI := scheme
    letI := reader plain
    Survives () plain ↔ Named plain ∧ plain.observation ≠ some .null :=
  @survives_iff scheme (reader plain) () plain scheme_correct (readerOf_reads _) plain_fits

/-- The name is signed and is not sent. -/
theorem entry_lost : ¬ ∀ [Ed25519] [Serde] (key : Ed25519.SigningKey) (entry : ReputationLogEntry),
    (∀ message, Ed25519.verify (Ed25519.verifyingKey key) message (Ed25519.sign key message) = true) →
    ReadsBack (signEntry key entry) → entry.Fits → Survives key entry := by
  intro claimed
  let _ := scheme
  let _ := readerOf (signEntry () entry)
  have survives := claimed () entry scheme_correct (readerOf_reads _) plain_fits
  obtain ⟨named, -⟩ := (survives_iff () entry scheme_correct (readerOf_reads _) plain_fits).mp survives
  cases named rfl with
  | inl none => cases none
  | inr other => exact absurd (Option.some.inj other) (by decide)

end RawName
end Nps.Nip.Reputation
