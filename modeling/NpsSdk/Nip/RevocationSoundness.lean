import NpsSdk.Nip.Verifier

/-! What passing the revocation step says about a certificate. The four sources are
consulted in a fixed order; which of their answers refuse, and which pass without a word
about the certificate at hand. -/
namespace Nps.Nip
open NipRevocationPolicy

/-- A reply as the verifier tells them apart: `ocsp_transport_failure` covers a request
without a response and a body that does not parse. -/
inductive OcspReport where
  | good
  | transportFailure
  | unsuccessful (status : Nat)
  | refused (code : Option String)

def HttpReply.ocspReport : HttpReply → OcspReport
  | .transportError _ => .transportFailure
  | .response status body =>
    if status < 200 ∨ 299 < status then .unsuccessful status
    else match body with
      | .error _ => .transportFailure
      | .ok body => if body.valid then .good else .refused body.errorCode

/-- What the verifier makes of a report: two codes of a refusal count as unavailability. -/
def OcspReport.outcome : OcspReport → NipRevocationOutcome
  | .good => .good
  | .transportFailure | .unsuccessful _ => .unavailable
  | .refused code =>
    if code = some ErrorCode.certExpired.wire ∨ code = some ErrorCode.ocspUnavailable.wire then
      .unavailable
    else .revoked

theorem OcspReport.outcome_eq_good {report : OcspReport} :
    report.outcome = .good ↔ report = .good := by
  cases report with
  | refused code =>
    simp only [outcome]
    split <;> simp
  | _ => simp [outcome]

section
variable (verifier : NipIdentVerifier) (frame : IdentFrame)

def ocspReport : Option OcspReport :=
  verifier.options.ocspUrl.map fun url =>
    (verifier.http (Text.trimEnd (· == '/') url ++ "/" ++ escape frame.nid)).ocspReport

def NipVerifierOptions.configured (options : NipVerifierOptions) : NipRevocationSource → Bool
  | .localCrl => options.localCrlConfigured || !options.localRevokedSerials.isEmpty
  | .callback => options.revocationCheck.isSome
  | .caStore => options.revocationStore.isSome
  | .ocsp => options.ocspUrl.isSome

/-- The normative consultation order. -/
def consultationOrder : List NipRevocationSource := [.localCrl, .callback, .caStore, .ocsp]

theorem mem_consultationOrder (source : NipRevocationSource) : source ∈ consultationOrder := by
  cases source <;> decide

def consult (policy : NipRevocationPolicy) :
    NipRevocationSource → Except NipIdentVerifyResult NipRevocationPolicy
  | .localCrl => crlCheck verifier policy (frame.serial.getD "")
  | .callback => callbackCheck verifier policy frame
  | .caStore => storeCheck verifier policy (frame.serial.getD "")
  | .ocsp => ocspStep verifier policy frame.nid

def initialPolicy : NipRevocationPolicy :=
  { mode := verifier.options.revocationMode, ocspFailOpen := verifier.options.ocspFailOpen }

def consulted : Except NipIdentVerifyResult NipRevocationPolicy :=
  consultationOrder.foldlM (consult verifier frame) (initialPolicy verifier)

theorem checkRevocation_eq :
    checkRevocation verifier frame = (consulted verifier frame >>= complete) := by
  simp only [consulted, consultationOrder, List.foldlM_cons, List.foldlM_nil, consult, bind_assoc,
    pure_bind]
  rfl

def Refuses : NipRevocationSource → Prop
  | .localCrl =>
    frame.serial.getD "" ≠ "" ∧ frame.serial.getD "" ∈ verifier.options.localRevokedSerials
  | .callback => ∃ check ∈ verifier.options.revocationCheck,
      ∃ result ∈ check frame, result.valid = false
  | .caStore => ∃ getBySerial ∈ verifier.options.revocationStore,
      ∃ record ∈ getBySerial (frame.serial.getD ""), record.revokedAt.isSome
  | .ocsp => ∃ report ∈ ocspReport verifier frame, report ≠ .good ∧
      (report.outcome = .revoked ∨ verifier.options.ocspFailOpen = false)

end

section
variable {verifier : NipIdentVerifier} {frame : IdentFrame}

def NipRevocationPolicy.record (policy : NipRevocationPolicy) (source : NipRevocationSource)
    (configured : Bool) : NipRevocationPolicy :=
  { policy with
    consultedSources := policy.consultedSources ++ if configured then [source] else [] }

@[simp] theorem NipRevocationPolicy.record_false (policy : NipRevocationPolicy)
    (source : NipRevocationSource) : policy.record source false = policy := by
  simp [record]

theorem NipRevocationPolicy.observe_ok {policy next : NipRevocationPolicy}
    {source : NipRevocationSource} {outcome : NipRevocationOutcome} :
    policy.observe source outcome = .ok next ↔ next = policy.record source true ∧
      (outcome = .good ∨ (source = .ocsp ∧ outcome = .unavailable ∧ policy.ocspFailOpen)) := by
  simp only [observe, record, if_true]
  by_cases tolerated : source = .ocsp ∧ outcome = .unavailable ∧ policy.ocspFailOpen
  · rw [if_pos tolerated, Except.ok.injEq, eq_comm]
    exact (and_iff_left (.inr tolerated)).symm
  · rw [if_neg tolerated]
    cases outcome with
    | good =>
      rw [Except.ok.injEq, eq_comm]
      exact (and_iff_left (.inl rfl)).symm
    | revoked => simp
    | unavailable => simpa using fun _ => tolerated

theorem ocspStep_configured {policy : NipRevocationPolicy} {report : OcspReport}
    (found : ocspReport verifier frame = some report) :
    ocspStep verifier policy frame.nid = policy.observe .ocsp report.outcome := by
  obtain ⟨url, configured, answered⟩ := Option.map_eq_some_iff.mp found
  subst answered
  simp only [ocspStep, configured, ocspCheck]
  congr 1
  cases verifier.http (Text.trimEnd (· == '/') url ++ "/" ++ escape frame.nid) with
  | transportError e => simp [HttpReply.ocspReport, OcspReport.outcome, NipIdentVerifyResult.fail]
  | response status body =>
    simp only [HttpReply.ocspReport]
    split
    · simp [OcspReport.outcome, NipIdentVerifyResult.fail]
    cases body with
    | error e => simp [OcspReport.outcome, NipIdentVerifyResult.fail]
    | ok body =>
      cases valid : body.valid with
      | true => simp [valid, OcspReport.outcome, NipIdentVerifyResult.ok]
      | false =>
        by_cases expired : body.errorCode = some ErrorCode.certExpired.wire
        · simp [valid, expired, OcspReport.outcome, NipIdentVerifyResult.fail]
        by_cases unavailable : body.errorCode = some ErrorCode.ocspUnavailable.wire
        · have told : ErrorCode.ocspUnavailable.wire ≠ ErrorCode.certExpired.wire := by decide
          simp [valid, told, unavailable, OcspReport.outcome, NipIdentVerifyResult.fail]
        · simp [valid, expired, unavailable, OcspReport.outcome, NipIdentVerifyResult.fail]

/-- A source goes on with itself recorded when configured, unless its answer refuses. -/
theorem consult_ok {policy next : NipRevocationPolicy} {source : NipRevocationSource}
    (agrees : policy.ocspFailOpen = verifier.options.ocspFailOpen) :
    consult verifier frame policy source = .ok next ↔
      next = policy.record source (verifier.options.configured source) ∧
        ¬Refuses verifier frame source := by
  cases source with
  | localCrl =>
    simp only [consult, crlCheck, NipVerifierOptions.configured, Refuses]
    by_cases configured : verifier.options.localCrlConfigured ∨
        verifier.options.localRevokedSerials ≠ []
    · rw [if_pos configured, observe_ok]
      have recorded : (verifier.options.localCrlConfigured ||
          !verifier.options.localRevokedSerials.isEmpty) = true := by
        simpa using configured
      rw [recorded]
      split <;> simp_all
    · rw [if_neg configured]
      obtain ⟨unset, empty⟩ := not_or.mp configured
      simp [Bool.eq_false_of_not_eq_true unset, not_not.mp empty, @eq_comm _ policy]
  | callback =>
    simp only [consult, callbackCheck, NipVerifierOptions.configured, Refuses]
    cases configured : verifier.options.revocationCheck with
    | none => simp [@eq_comm _ policy]
    | some check =>
      cases answered : check frame with
      | none => simp [observe_ok, answered]
      | some result => cases valid : result.valid <;> simp [observe_ok, answered, valid]
  | caStore =>
    simp only [consult, storeCheck, NipVerifierOptions.configured, Refuses]
    cases configured : verifier.options.revocationStore with
    | none => simp [@eq_comm _ policy]
    | some getBySerial =>
      cases found : getBySerial (frame.serial.getD "") with
      | none => simp [observe_ok, found]
      | some record => cases revoked : record.revokedAt <;> simp [observe_ok, found, revoked]
  | ocsp =>
    simp only [consult, NipVerifierOptions.configured, Refuses]
    cases found : ocspReport verifier frame with
    | none =>
      have unset : verifier.options.ocspUrl = none := Option.map_eq_none_iff.mp found
      simp [ocspStep, unset, @eq_comm _ policy]
    | some report =>
      have set : verifier.options.ocspUrl.isSome = true := by
        rw [← Option.isSome_map, ← ocspReport, found]
        rfl
      rw [ocspStep_configured found, observe_ok, set, agrees]
      simp only [Option.mem_some_iff, exists_eq_left', ne_eq, ← OcspReport.outcome_eq_good]
      cases report.outcome <;> simp

/-- The sources are recorded in order, each that is configured, when none refuses. -/
theorem consult_all {policy next : NipRevocationPolicy} {sources : List NipRevocationSource}
    (agrees : policy.ocspFailOpen = verifier.options.ocspFailOpen) :
    sources.foldlM (consult verifier frame) policy = .ok next ↔
      next = { policy with
        consultedSources :=
          policy.consultedSources ++ sources.filter verifier.options.configured } ∧
        ∀ source ∈ sources, ¬Refuses verifier frame source := by
  induction sources generalizing policy with
  | nil => simp [@eq_comm _ policy]
  | cons source rest ih =>
    rw [List.foldlM_cons, Outcome.bind_ok]
    simp only [consult_ok agrees, and_assoc, exists_eq_left, List.forall_mem_cons]
    rw [ih (by exact agrees)]
    cases configured : verifier.options.configured source <;>
      simp [NipRevocationPolicy.record, configured, and_left_comm]

theorem consulted_ok {policy : NipRevocationPolicy} :
    consulted verifier frame = .ok policy ↔
      policy = { initialPolicy verifier with
        consultedSources := consultationOrder.filter verifier.options.configured } ∧
        ∀ source, ¬Refuses verifier frame source := by
  rw [consulted, consult_all rfl]
  simp [initialPolicy, mem_consultationOrder]

theorem complete_ok {policy : NipRevocationPolicy} {u : Unit} : policy.complete = .ok u ↔
    (policy.mode = .required → policy.consultedSources ≠ []) := by
  unfold complete
  split_ifs with refused
  · simp [refused]
  · simpa using refused

theorem checkRevocation_ok {u : Unit} : checkRevocation verifier frame = .ok u ↔
    (∀ source, ¬Refuses verifier frame source) ∧
      (verifier.options.revocationMode = .required →
        ∃ source, verifier.options.configured source) := by
  rw [checkRevocation_eq, Outcome.bind_ok]
  simp only [consulted_ok, complete_ok, and_assoc, exists_eq_left]
  apply and_congr_right
  intro _
  simp [initialPolicy, List.filter_eq_nil_iff, mem_consultationOrder]

/-- Every configured source was asked about this certificate and none answered that it is
revoked, invalid or expired; at most the OCSP transport failed, and then by configuration. -/
structure Vouched (verifier : NipIdentVerifier) (frame : IdentFrame) : Prop where
  consulted : ∀ source, verifier.options.configured source →
    ∃ policy, consulted verifier frame = .ok policy ∧ source ∈ policy.consultedSources
  serial : verifier.options.configured .localCrl ∨ verifier.options.configured .caStore →
    frame.serial.getD "" ≠ ""
  crl : verifier.options.configured .localCrl →
    frame.serial.getD "" ∉ verifier.options.localRevokedSerials
  callback : ∀ check ∈ verifier.options.revocationCheck, ∀ result ∈ check frame,
    result.valid = true
  store : ∀ getBySerial ∈ verifier.options.revocationStore,
    ∀ record ∈ getBySerial (frame.serial.getD ""), record.revokedAt = none
  ocsp : ∀ report ∈ ocspReport verifier frame, report = .good ∨
    (report = .transportFailure ∧ verifier.options.ocspFailOpen)
  required : verifier.options.revocationMode = .required →
    ∃ source, verifier.options.configured source

def Settled (verifier : NipIdentVerifier) (frame : IdentFrame) : Prop :=
  (verifier.options.configured .localCrl ∨ verifier.options.configured .caStore →
    frame.serial.getD "" ≠ "") ∧
  ∀ report ∈ ocspReport verifier frame, report = .good ∨ report = .transportFailure

def Stopped (verifier : NipIdentVerifier) (frame : IdentFrame) : Prop :=
  (∃ source, Refuses verifier frame source) ∨
    (verifier.options.revocationMode = .required ∧ ∀ source,
      verifier.options.configured source = false)

theorem checkRevocation_ok_iff_not_stopped {u : Unit} :
    checkRevocation verifier frame = .ok u ↔ ¬Stopped verifier frame := by
  rw [checkRevocation_ok, Stopped, not_or, not_exists, not_and, not_forall]
  simp

theorem not_listed (passes : ¬Refuses verifier frame .localCrl)
    (serial : frame.serial.getD "" ≠ "") :
    frame.serial.getD "" ∉ verifier.options.localRevokedSerials :=
  fun listed => passes ⟨serial, listed⟩

theorem ocsp_tolerated (passes : ¬Refuses verifier frame .ocsp) {report : OcspReport}
    (found : report ∈ ocspReport verifier frame) (bad : report ≠ .good) :
    verifier.options.ocspFailOpen = true := by
  by_contra closed
  exact passes ⟨report, found, bad, .inr (Bool.eq_false_of_not_eq_true closed)⟩

/-- A step that passes with everything settled vouches for the certificate. -/
theorem vouched_of_settled (passed : checkRevocation verifier frame = .ok ())
    (settled : Settled verifier frame) : Vouched verifier frame := by
  obtain ⟨passes, configured⟩ := checkRevocation_ok.mp passed
  obtain ⟨serial, answered⟩ := settled
  constructor
  case consulted =>
    intro source configured
    refine ⟨_, consulted_ok.mpr ⟨rfl, passes⟩, ?_⟩
    exact List.mem_filter.mpr ⟨mem_consultationOrder source, configured⟩
  case serial => exact serial
  case crl =>
    intro configured
    exact not_listed (passes _) (serial (.inl configured))
  case callback =>
    intro check set result told
    by_contra invalid
    exact passes .callback ⟨check, set, result, told, Bool.eq_false_of_not_eq_true invalid⟩
  case store =>
    intro getBySerial set record found
    by_contra revoked
    exact passes .caStore ⟨getBySerial, set, record, found, Option.isSome_iff_ne_none.mpr revoked⟩
  case ocsp =>
    intro report found
    rcases answered report found with good | failure
    · exact .inl good
    · have bad : report ≠ .good := by rw [failure]; nofun
      exact .inr ⟨failure, ocsp_tolerated (passes _) found bad⟩
  case required => exact configured

theorem settled_of_vouched (vouched : Vouched verifier frame) : Settled verifier frame :=
  ⟨vouched.serial, fun report found => (vouched.ocsp report found).imp_right And.left⟩

/-- Passing the revocation step vouches for a certificate exactly when the step refuses it
or every source in use had something to say about it. -/
theorem revocation_sound_iff : (checkRevocation verifier frame = .ok () → Vouched verifier frame) ↔
    Stopped verifier frame ∨ Settled verifier frame := by
  rw [checkRevocation_ok_iff_not_stopped, ← or_iff_not_imp_left]
  constructor
  · exact Or.imp_right settled_of_vouched
  · rintro (stopped | settled)
    · exact .inl stopped
    · by_cases stopped : Stopped verifier frame
      · exact .inl stopped
      · exact .inr (vouched_of_settled (checkRevocation_ok_iff_not_stopped.mpr stopped) settled)

end

namespace Lenient

def bare : IdentFrame := { nid := "urn:nps:agent:a.example:1", pubKey := "", capabilities := [] }

/-- An empty local revocation list, and nothing else. -/
def listOnly : NipIdentVerifier := { options := { localCrlConfigured := true } }

/-- OCSP says that the certificate has expired, and the verifier fails open. -/
def expired : NipIdentVerifier where
  options := { ocspUrl := some "http://ca.example", ocspFailOpen := true }
  http _ := .response 200 (.ok { errorCode := some "NIP-CERT-EXPIRED" })

/-- A frame without a serial counts as good in the list, and an expired certificate as an
unavailable server. -/
theorem swallowed :
    (checkRevocation listOnly bare = .ok () ∧ ¬Vouched listOnly bare) ∧
    (checkRevocation expired bare = .ok () ∧ ¬Vouched expired bare) := by
  refine ⟨⟨rfl, fun vouched => vouched.serial (.inl rfl) rfl⟩, rfl, fun vouched => ?_⟩
  rcases vouched.ocsp _ rfl with good | ⟨failure, _⟩
  · cases good
  · cases failure

end Lenient
end Nps.Nip
