import NpsSdk.Nip.Ca.Router
import NpsSdk.Nip.Ca.World

/-! What a request without the operator's key can change in the CA's stores. -/
namespace Nps.Nip.Ca
open Interaction Interaction.Prog
open Wire (Bytes)

theorem xor_fold_zero {a b : Bytes} (same : a.length = b.length) {acc : UInt8} :
    (List.zipWith (· ^^^ ·) a b).foldl (· ||| ·) acc = 0 ↔ acc = 0 ∧ a = b := by
  induction a generalizing b acc with
  | nil =>
    cases b with
    | nil => simp
    | cons y b => cases same
  | cons x a ih =>
    cases b with
    | nil => cases same
    | cons y b =>
      have rest : a.length = b.length := Nat.succ.inj same
      rw [List.zipWith_cons_cons, List.foldl_cons, ih rest, UInt8.or_eq_zero_iff,
        UInt8.xor_eq_zero_iff, List.cons.injEq]
      tauto

theorem constantTimeEq_iff {a b : Bytes} : constantTimeEq a b = true ↔ a = b := by
  unfold constantTimeEq
  constructor
  · intro equal
    simp only [Bool.and_eq_true, decide_eq_true_eq, beq_iff_eq] at equal
    exact ((xor_fold_zero equal.1).mp equal.2).2
  · rintro rfl
    simp only [decide_true, Bool.true_and, beq_iff_eq]
    exact (xor_fold_zero rfl).mpr ⟨rfl, rfl⟩

def CarriesKey (request : CaRequest) (key : String) : Prop := bearerToken request = some key

theorem authorized_iff {request : CaRequest} {key : String} :
    authorized (some key) request = true ↔ CarriesKey request key := by
  unfold authorized CarriesKey
  cases bearerToken request with
  | none => simp
  | some provided =>
    rw [constantTimeEq_iff]
    constructor
    · intro same
      rw [Text.utf8_injective same]
    · intro same
      rw [Option.some.inj same]

/-- The certificate store, the tokens and the pending queue are as they were. -/
def Unchanged (s t : CaState) : Prop :=
  t.certs = s.certs ∧ t.tokens = s.tokens ∧ t.pending = s.pending

def ReadOnly : CaOp → Prop
  | .getByNid _ | .getByParentNid _ | .list | .getRevoked | .now | .randomBytes _ | .listPending
  | .getPending _ | .pendingCount => True
  | _ => False

section
variable [Sha256]

theorem unchanged_of_readOnly {op : CaOp} {s t : CaState} {answer : op.Answer}
    (reads : ReadOnly op) (step : exec op s answer t) : Unchanged s t := by
  cases op <;> first
    | exact reads.elim
    | (obtain ⟨-, rfl⟩ := step; exact ⟨rfl, rfl, rfl⟩)

theorem unchanged_of_only {α : Type} {p : CaProg α} (only : Only ReadOnly p) {s t : CaState} {a : α}
    (runs : Runs exec p s a t) : Unchanged s t := by
  refine runs.related (R := Unchanged) (fun s => ⟨rfl, rfl, rfl⟩) ?_ unchanged_of_readOnly only
  rintro s t u ⟨certs, tokens, pending⟩ ⟨certs', tokens', pending'⟩
  exact ⟨certs'.trans certs, tokens'.trans tokens, pending'.trans pending⟩

end

theorem onPath_of {P : CaProg CaResponse → Prop} {segment : Option String} {method expected : String}
    {handler : String → CaProg CaResponse} {otherwise : CaProg CaResponse}
    (taken : ∀ id, segment = some id → method = expected → P (handler id)) (other : P otherwise) :
    P (NipCaRouter.onPath segment method expected handler otherwise) := by
  unfold NipCaRouter.onPath
  split
  · rename_i id
    split_ifs with same
    · exact taken id rfl same
    · exact other
  · exact other

theorem segBetween_eq_some {rel start ending segment : String} :
    segBetween rel start ending = some segment ↔
      rel = start ++ (segment ++ ending) ∧ segment ≠ "" := by
  unfold segBetween
  constructor
  · intro named
    obtain ⟨rest, stripped, named⟩ := Option.bind_eq_some_iff.mp named
    obtain ⟨seg, cut, named⟩ := Option.bind_eq_some_iff.mp named
    split_ifs at named with empty
    cases named
    rw [Text.stripPrefix?_eq_some.mp stripped, Text.stripSuffix?_eq_some.mp cut]
    exact ⟨rfl, empty⟩
  · rintro ⟨same, some_⟩
    simp [Text.stripPrefix?_eq_some.mpr same, Text.stripSuffix?_eq_some.mpr rfl, some_]

theorem segBetween_ne {rel start ending id path : String}
    (named : segBetween rel start ending = some id) (apart : Text.stripPrefix? start path = none) :
    rel ≠ path := by
  rintro rfl
  simp [segBetween, apart] at named

theorem segBetween_start {rel start ending id other ending' : String}
    (named : segBetween rel start ending = some id)
    (apart : (start.toList.isPrefixOf other.toList || other.toList.isPrefixOf start.toList) = false) :
    segBetween rel other ending' = none := by
  cases stripped : Text.stripPrefix? start rel with
  | none => simp [segBetween, stripped] at named
  | some rest => simp [segBetween, Text.stripPrefix?_exclusive stripped apart]

theorem segBetween_ending {rel start ending id ending' : String}
    (named : segBetween rel start ending = some id)
    (apart : (ending.toList.isSuffixOf ending'.toList ||
      ending'.toList.isSuffixOf ending.toList) = false) :
    segBetween rel start ending' = none := by
  cases stripped : Text.stripPrefix? start rel with
  | none => simp [segBetween, stripped] at named
  | some rest =>
    cases cut : Text.stripSuffix? ending rest with
    | none => simp [segBetween, stripped, cut] at named
    | some segment => simp [segBetween, stripped, Text.stripSuffix?_exclusive cut apart]

theorem NipCaRouter.verify_reads [TimeText] (nid : String) :
    Only ReadOnly (NipCaRouter.verify nid) := by
  have result : Only ReadOnly (NipCaService.verify (unescape nid)) := by
    refine .ask trivial fun record => ?_
    split
    · trivial
    split
    · trivial
    refine .ask trivial fun now => ?_
    split
    · trivial
    split
    · trivial
    · trivial
    · refine .ask trivial fun parent => ?_
      split
      · trivial
      split
      · trivial
      refine .ask trivial fun now => ?_
      split <;> trivial
  exact result.bind fun _ => trivial

/-- At most one record is added, of a session under the group; a serial may be used up. -/
def SessionEffect (groupNid : String) (s t : CaState) : Prop :=
  t.tokens = s.tokens ∧ t.pending = s.pending ∧
    (t.certs.records = s.certs.records ∨
      ∃ record, record.nidRole = some roleSession ∧ record.parentNid = some groupNid ∧
        t.certs.records = s.certs.records ++ [record])

theorem SessionEffect.of_unchanged {groupNid : String} {s t u : CaState} (first : Unchanged s t)
    (second : SessionEffect groupNid t u) : SessionEffect groupNid s u := by
  obtain ⟨certs, tokens, pending⟩ := first
  obtain ⟨tokens', pending', records⟩ := second
  exact ⟨tokens'.trans tokens, pending'.trans pending, certs ▸ records⟩

section
variable [Ed25519] [Serde] [TimeText] {router : NipCaRouter} {request : CaRequest}

namespace NipCaRouter

variable (unknown : router.authorized request = false)

include unknown in
theorem guarded_refuse :
    router.certificates request = pure Ca.unauthorized ∧
    (∀ entityType caps, router.register request entityType caps = pure Ca.unauthorized) ∧
    router.registerGroup request = pure Ca.unauthorized ∧
    (∀ nid, router.renew request nid = pure Ca.unauthorized) ∧
    (∀ nid, router.revoke request nid = pure Ca.unauthorized) ∧
    router.createToken request = pure Ca.unauthorized ∧
    router.listPending request = pure Ca.unauthorized ∧
    router.operatorRequest request = .error Ca.unauthorized := by
  simp [certificates, register, registerGroup, renew, revoke, createToken, listPending,
    operatorRequest, unknown]

include unknown in
theorem registerX509_refuses [X509.CertificateLibrary] (entityType : String) (caps : List String) :
    router.registerX509 request entityType caps = pure Ca.unauthorized := by
  simp [registerX509, unknown]

end NipCaRouter

omit [Serde] [TimeText] in
theorem NipCaRouter.rel_plain (plain : router.pfx = "") : router.rel request = request.path := by
  rw [rel, plain, Text.stripPrefix?_eq_some.mpr (String.empty_append).symm]
  rfl

/-- What is posted below the pending queue reaches one of its two handlers. -/
theorem NipCaRouter.handle_pending [X509.CertificateLibrary] {ending id : String}
    (posted : request.method = "POST")
    (named : segBetween (router.rel request) "/v1/enrollment/pending/" ending = some id) :
    router.handle request =
      onPath (segBetween (router.rel request) "/v1/enrollment/pending/" "/approve") "POST" "POST"
        router.approvePending
        (onPath (segBetween (router.rel request) "/v1/enrollment/pending/" "/reject") "POST" "POST"
          (router.rejectPending request) (return notFound)) := by
  have apart (path : String)
      (other : Text.stripPrefix? "/v1/enrollment/pending/" path = none) :
      router.rel request ≠ path := segBetween_ne named other
  have agents (ending' : String) : segBetween (router.rel request) "/v1/agents/" ending' = none :=
    segBetween_start named (by decide)
  have nodes (ending' : String) : segBetween (router.rel request) "/v1/nodes/" ending' = none :=
    segBetween_start named (by decide)
  have groups (ending' : String) :
      segBetween (router.rel request) "/v1/orchestrators/groups/" ending' = none :=
    segBetween_start named (by decide)
  have path : router.handle request = router.handlePath request "POST" (router.rel request) := by
    simp [handle, posted, apart "/v1/agents/register" (by decide),
      apart "/v1/nodes/register" (by decide), apart "/v1/agents/register-x509" (by decide),
      apart "/v1/nodes/register-x509" (by decide),
      apart "/v1/orchestrators/groups/register" (by decide),
      apart "/v1/enrollment/tokens" (by decide)]
  rw [path]
  simp only [handlePath, entitySegment, agents, nodes, groups, Option.or_none, onPath]

end

section
variable [Ed25519] [Serde] {router : NipCaRouter} {request : CaRequest}

/-- The request's JWS verifies under the registered key of the live group, and names it. -/
def JwsVerifies (request : CaRequest) (groupNid : String) (s : CaState) : Prop :=
  ∃ jws group key verified,
    request.jsonValue.bind GroupJws.FlattenedJws.fromValue = some jws ∧
    s.certs.getByNid groupNid = some group ∧ group.nidRole = some roleGroup ∧
    group.revokedAt = none ∧ Signer.decodePublicKey group.pubKey = some key ∧
    GroupJws.tryVerify jws key = .ok verified ∧ verified.kid = groupNid

theorem NipCaRouter.jwsRequest_reads (router : NipCaRouter) (request : CaRequest) (groupNid : String) :
    Only ReadOnly (router.jwsRequest request groupNid) := by
  unfold NipCaRouter.jwsRequest
  split
  · trivial
  refine .ask trivial fun group => ?_
  split
  · trivial
  split
  · trivial
  split
  · trivial
  split
  · trivial
  split
  · trivial
  split
  · trivial
  split
  · trivial
  refine .ask trivial fun now => ?_
  split <;> trivial

variable [Sha256]

theorem jwsRequest_runs {groupNid : String} {s t : CaState}
    {result : Except CaResponse SessionRequest}
    (runs : Runs exec (router.jwsRequest request groupNid) s result t) :
    Unchanged s t ∧ ((∃ session, result = .ok session) → JwsVerifies request groupNid s) := by
  refine ⟨unchanged_of_only (router.jwsRequest_reads request groupNid) runs, ?_⟩
  rintro ⟨session, rfl⟩
  unfold NipCaRouter.jwsRequest at runs
  split at runs
  · cases runs
  rename_i jws parsed
  have runs := runs_getByNid.mp runs
  split at runs
  · cases runs
  rename_i group found
  split_ifs at runs with role revoked
  · cases runs
  · cases runs
  split at runs
  · cases runs
  rename_i key decoded
  split at runs
  · cases runs
  rename_i verified signed
  split_ifs at runs with named
  · cases runs
  exact ⟨jws, group, key, verified, parsed, found, not_not.mp role, by simpa using revoked, decoded,
    signed, not_not.mp named⟩

section
variable {id : String} {response : CaResponse} {s t : CaState}

theorem rejectPending_idle (runs : Runs exec (router.rejectPending request id) s response t)
    (idle : ∀ record, router.pendingStore = true → s.pending.find? (·.id == id) = some record →
      record.status ≠ .pending) :
    t = s := by
  unfold NipCaRouter.rejectPending at runs
  split_ifs at runs with enabled
  · have runs := runs_reject.mp runs
    have settled {reason : String} :
        InMemoryPendingStore.reject id reason s.pending = (false, s.pending) :=
      InMemoryPendingStore.settle_idle fun record => idle record enabled
    simp only [settled] at runs
    have runs := runs_getPending.mp runs
    split at runs
    all_goals
      cases runs
      rfl
  · cases runs
    rfl

theorem rejectPending_changes {record : PendingRegistration}
    (runs : Runs exec (router.rejectPending request id) s response t)
    (enabled : router.pendingStore = true) (found : s.pending.find? (·.id == id) = some record)
    (waiting : record.status = .pending) : t.pending ≠ s.pending := by
  unfold NipCaRouter.rejectPending at runs
  rw [if_pos enabled] at runs
  have runs := runs_reject.mp runs
  have changes {reason : String} :
      (InMemoryPendingStore.reject id reason s.pending).2 ≠ s.pending := by
    apply InMemoryPendingStore.settle_changes found waiting
    intro record rejected
    cases rejected
  split at runs
  · cases runs
    exact changes
  · have runs := runs_getPending.mp runs
    split at runs
    all_goals
      cases runs
      exact changes

end

variable [TimeText]

theorem issueSession_runs {ca : NipCaService} {groupNid key : String} {params : IssueSessionParams}
    {s t : CaState} {result : Except NipCaError IdentFrame}
    (runs : Runs exec (ca.issueSession groupNid key params) s result t) :
    SessionEffect groupNid s t := by
  have still {s t : CaState} (records : t.certs.records = s.certs.records)
      (tokens : t.tokens = s.tokens) (pending : t.pending = s.pending) :
      SessionEffect groupNid s t := ⟨tokens, pending, .inl records⟩
  have runs := runs_getByNid.mp runs
  split at runs
  · cases runs
    exact still rfl rfl rfl
  split at runs
  · cases runs
    exact still rfl rfl rfl
  obtain ⟨_, -, runs⟩ := runs_now.mp runs
  split at runs
  · cases runs
    exact still rfl rfl rfl
  obtain ⟨_, -, runs⟩ := runs_now.mp runs
  obtain ⟨_, runs⟩ := runs_randomBytes.mp runs
  obtain ⟨_, -, runs⟩ := runs_now.mp runs
  have runs := runs_nextSerial.mp runs
  extract_lets at runs
  split at runs
  · cases runs
    exact still rfl rfl rfl
  have runs := runs_save.mp runs
  split at runs
  · rename_i saved
    cases runs
    exact ⟨rfl, rfl, .inr ⟨_, rfl, rfl, InMemoryNipCaStore.save_ok saved⟩⟩
  · rename_i refused
    cases runs
    rw [InMemoryNipCaStore.save_error refused]
    exact still rfl rfl rfl

section
variable {ca : NipCaService} {entityType identifier pubKey scopeJson : String}
  {capabilities : List String} {metadataJson : Option String} {s t : CaState}
  {result : Except NipCaError IdentFrame}

/-- A registration that passes its two checks uses up a serial, whatever comes after. -/
theorem register_spends
    (runs : Runs exec
      (ca.register entityType identifier pubKey capabilities scopeJson metadataJson) s result t)
    (free : s.certs.getByNid (ca.buildNid entityType identifier) = none)
    (allowed : ca.checkCapabilities capabilities = .ok ()) :
    t.certs.serial = s.certs.serial + 1 := by
  have kept (store : InMemoryNipCaStore) (record : NipCertRecord) :
      (store.save record).2.serial = store.serial := by
    unfold InMemoryNipCaStore.save
    split_ifs <;> rfl
  have runs := runs_getByNid.mp runs
  rw [free, allowed] at runs
  obtain ⟨_, -, runs⟩ := runs_now.mp runs
  have runs := runs_nextSerial.mp runs
  extract_lets at runs
  split at runs
  · cases runs
    rfl
  have runs := runs_save.mp runs
  split at runs
  all_goals
    cases runs
    exact kept _ _

theorem register_refuses
    (runs : Runs exec
      (ca.register entityType identifier pubKey capabilities scopeJson metadataJson) s result t)
    (refused : ¬ (s.certs.getByNid (ca.buildNid entityType identifier) = none ∧
      ca.checkCapabilities capabilities = .ok ())) :
    t = s ∧ ∃ e, result = .error e := by
  have runs := runs_getByNid.mp runs
  cases found : s.certs.getByNid (ca.buildNid entityType identifier) with
  | some record =>
    rw [found] at runs
    cases runs
    exact ⟨rfl, _, rfl⟩
  | none =>
    rw [found] at runs
    cases checked : ca.checkCapabilities capabilities with
    | error e =>
      rw [checked] at runs
      cases runs
      exact ⟨rfl, _, rfl⟩
    | ok _ => exact absurd ⟨found, checked⟩ refused

end

section
variable {id : String} {response : CaResponse} {s t : CaState}

theorem approvePending_idle (runs : Runs exec (router.approvePending id) s response t)
    (idle : ∀ record, router.pendingStore = true → s.pending.find? (·.id == id) = some record →
      record.status = .pending →
      ¬ (s.certs.getByNid (router.ca.buildNid record.entityType record.identifier) = none ∧
        router.ca.checkCapabilities record.capabilities = .ok ())) :
    t = s := by
  unfold NipCaRouter.approvePending at runs
  split_ifs at runs with enabled
  · have runs := runs_getPending.mp runs
    split at runs
    · cases runs
      rfl
    rename_i record found
    split_ifs at runs with settled
    · cases runs
      rfl
    obtain ⟨result, u, first, second⟩ := runs_bind.mp runs
    obtain ⟨rfl, e, rfl⟩ := register_refuses first (idle record enabled found (not_not.mp settled))
    cases second
    rfl
  · cases runs
    rfl

theorem approvePending_spends {record : PendingRegistration}
    (runs : Runs exec (router.approvePending id) s response t)
    (enabled : router.pendingStore = true) (found : s.pending.find? (·.id == id) = some record)
    (waiting : record.status = .pending)
    (free : s.certs.getByNid (router.ca.buildNid record.entityType record.identifier) = none)
    (allowed : router.ca.checkCapabilities record.capabilities = .ok ()) :
    t.certs.serial = s.certs.serial + 1 := by
  unfold NipCaRouter.approvePending at runs
  rw [if_pos enabled] at runs
  have runs := runs_getPending.mp runs
  rw [found] at runs
  simp only [waiting, ne_eq, not_true_eq_false, if_false] at runs
  obtain ⟨result, u, first, second⟩ := runs_bind.mp runs
  have spent := register_spends first free allowed
  split at second
  · have second := runs_approve.mp second
    cases second
    exact spent
  · cases second
    exact spent

end

end

section
variable [Ed25519] [Serde] [Sha256]

section
variable (router : NipCaRouter) (request : CaRequest) (s : CaState)

/-- A session request on a JWS of the group's key; the group gets at most a session by it. -/
def SessionIssued (t : CaState) : Prop :=
  ∃ segment, request.method = "POST" ∧
    segBetween (router.rel request) "/v1/orchestrators/groups/" "/sessions/issue" = some segment ∧
    JwsVerifies request (unescape segment) s ∧ SessionEffect (unescape segment) s t

/-- The request names a registration that still waits for a decision. -/
structure Waits (ending id : String) (record : PendingRegistration) : Prop where
  enabled : router.pendingStore = true
  posted : request.method = "POST"
  named : segBetween (router.rel request) "/v1/enrollment/pending/" ending = some id
  found : s.pending.find? (·.id == id) = some record
  waiting : record.status = .pending

/-- A waiting registration whose NID is free and whose capabilities the CA allows. -/
def Approvable : Prop :=
  ∃ id record, Waits router request s "/approve" id record ∧
    s.certs.getByNid (router.ca.buildNid record.entityType record.identifier) = none ∧
    router.ca.checkCapabilities record.capabilities = .ok ()

def Rejectable : Prop := ∃ id record, Waits router request s "/reject" id record

/-- However the clock and the random source answer, the program keeps to the law. -/
def Harmless (p : CaProg CaResponse) : Prop :=
  ∀ response t, Runs exec p s response t → Unchanged s t ∨ SessionIssued router request s t

end

variable {router : NipCaRouter} {request : CaRequest} {s : CaState}

theorem harmless_ite {c : Prop} [Decidable c] {p q : CaProg CaResponse}
    (yes : Harmless router request s p) (no : Harmless router request s q) :
    Harmless router request s (if c then p else q) := by
  split
  · exact yes
  · exact no

theorem harmless_of_only {p : CaProg CaResponse} (only : Only ReadOnly p) :
    Harmless router request s p :=
  fun _ _ runs => .inl (unchanged_of_only only runs)

theorem harmless_answer (response : CaResponse) : Harmless router request s (pure response) :=
  harmless_of_only trivial

variable [TimeText]

theorem issueSession_harmless {segment : String} (unknown : router.authorized request = false)
    (posted : request.method = "POST")
    (named : segBetween (router.rel request) "/v1/orchestrators/groups/" "/sessions/issue" =
      some segment) : Harmless router request s (router.issueSession request segment) := by
  intro response t runs
  obtain ⟨session, u, asked, rest⟩ := runs_bind.mp runs
  unfold NipCaRouter.sessionRequest at asked
  split_ifs at asked with jws
  · obtain ⟨still, verified⟩ := jwsRequest_runs asked
    cases session with
    | error refused =>
      cases rest
      exact .inl still
    | ok session =>
      simp only at rest
      split_ifs at rest with key
      · cases rest
        exact .inl still
      · obtain ⟨issued, v, issuing, last⟩ := runs_bind.mp rest
        cases last
        have effect := SessionEffect.of_unchanged still (issueSession_runs issuing)
        exact .inr ⟨segment, posted, named, verified ⟨session, rfl⟩, effect⟩
  · have refuses : router.operatorRequest request = .error unauthorized := by
      simp [NipCaRouter.operatorRequest, unknown]
    rw [refuses] at asked
    cases asked
    cases rest
    exact .inl ⟨rfl, rfl, rfl⟩

theorem handlePath_harmless (unknown : router.authorized request = false)
    (settled : ¬ Approvable router request s ∧ ¬ Rejectable router request s) :
    Harmless router request s
      (router.handlePath request request.method (router.rel request)) := by
  obtain ⟨-, -, -, renew, revoke, -, -, -⟩ := NipCaRouter.guarded_refuse unknown
  apply onPath_of
  · intro id _ _
    rw [renew]
    exact harmless_answer _
  apply onPath_of
  · intro id _ _
    rw [revoke]
    exact harmless_answer _
  apply onPath_of
  · intro id _ _
    exact harmless_of_only (NipCaRouter.verify_reads id)
  apply onPath_of
  · intro segment named posted
    exact issueSession_harmless unknown posted named
  apply onPath_of
  · intro group _ _
    exact harmless_of_only (.ask trivial fun sessions => trivial)
  apply onPath_of
  · intro id _ _
    rw [revoke]
    exact harmless_answer _
  apply onPath_of
  · intro id named posted response t runs
    have still : t = s := approvePending_idle runs fun record enabled found waiting passes =>
      settled.1 ⟨id, record, ⟨enabled, posted, named, found, waiting⟩, passes⟩
    cases still
    exact .inl ⟨rfl, rfl, rfl⟩
  apply onPath_of
  · intro id named posted response t runs
    have still : t = s := rejectPending_idle runs fun record enabled found waiting =>
      settled.2 ⟨id, record, ⟨enabled, posted, named, found, waiting⟩⟩
    cases still
    exact .inl ⟨rfl, rfl, rfl⟩
  exact harmless_answer _

variable [X509.CertificateLibrary]

theorem handle_harmless (unknown : router.authorized request = false)
    (settled : ¬ Approvable router request s ∧ ¬ Rejectable router request s) :
    Harmless router request s (router.handle request) := by
  obtain ⟨certificates, register, registerGroup, -, -, createToken, listPending, -⟩ :=
    NipCaRouter.guarded_refuse unknown
  have registerX509 := NipCaRouter.registerX509_refuses unknown
  have crl : Harmless router request s router.crl := by
    refine harmless_of_only (.ask trivial fun revoked => ?_)
    exact .ask trivial fun now => trivial
  apply harmless_ite (harmless_answer _)
  apply harmless_ite (harmless_answer _)
  apply harmless_ite crl
  rw [certificates, register, register, registerX509, registerX509, registerGroup, createToken,
    listPending]
  iterate 8 apply harmless_ite (harmless_answer _)
  exact handlePath_harmless unknown settled

theorem approvable_changes (approvable : Approvable router request s) :
    ¬ Harmless router request s (router.handle request) := by
  obtain ⟨id, record, ⟨enabled, posted, named, found, waiting⟩, free, allowed⟩ := approvable
  intro harmless
  rw [NipCaRouter.handle_pending posted named, named] at harmless
  have runs := runs_runWith (handler_faithful 0) (router.approvePending id) s
  have spent := approvePending_spends runs enabled found waiting free allowed
  rcases harmless _ _ runs with ⟨certs, -, -⟩ | ⟨segment, -, sessions, -⟩
  · rw [certs] at spent
    exact absurd spent (by omega)
  · have other : segBetween (router.rel request) "/v1/orchestrators/groups/"
        "/sessions/issue" = none := segBetween_start named (by decide)
    rw [other] at sessions
    cases sessions

theorem rejectable_changes (rejectable : Rejectable router request s) :
    ¬ Harmless router request s (router.handle request) := by
  obtain ⟨id, record, ⟨enabled, posted, named, found, waiting⟩⟩ := rejectable
  intro harmless
  have other : segBetween (router.rel request) "/v1/enrollment/pending/" "/approve" = none :=
    segBetween_ending named (by decide)
  rw [NipCaRouter.handle_pending posted named, named, other] at harmless
  have runs := runs_runWith (handler_faithful 0) (router.rejectPending request id) s
  have changes := rejectPending_changes runs enabled found waiting
  rcases harmless _ _ runs with ⟨-, -, pending⟩ | ⟨_, -, -, -, -, pending, -⟩
  all_goals exact changes pending

/-- Deciding on a waiting registration is what a request can do without the key. -/
theorem harmless_iff {key : String} (guarded : router.ca.opts.operatorApiKey = some key)
    (absent : ¬ CarriesKey request key) :
    Harmless router request s (router.handle request) ↔
      ¬ Approvable router request s ∧ ¬ Rejectable router request s := by
  have unknown : router.authorized request = false := by
    unfold NipCaRouter.authorized
    rw [guarded, Bool.eq_false_iff]
    exact fun carries => absent (authorized_iff.mp carries)
  constructor
  · intro harmless
    exact ⟨fun approvable => approvable_changes approvable harmless,
      fun rejectable => rejectable_changes rejectable harmless⟩
  · exact handle_harmless unknown

end

namespace Queued
open Sample

def router : NipCaRouter where
  ca := {
    opts := { Sample.ca.opts with operatorApiKey := some "secret", enrollmentTier := .pendingQueue }
    signingKey := () }
  policy := pendingQueuePolicy 1000
  pendingStore := true

def queued : PendingRegistration where
  id := "p1"
  entityType := "agent"
  identifier := "a1"
  pubKey := Sample.ca.getCaPublicKey
  capabilities := ["nwp:query"]
  scopeJson := "\x7b\x7d"
  requestedAt := 0
  status := .pending

def state : CaState := { pending := [queued] }

def approval : CaRequest := { method := "POST", path := "/v1/enrollment/pending/p1/approve" }

def approved : CaResponse × CaState := (router.handle approval).runWith (handler 0) state

theorem approval_named :
    segBetween (router.rel approval) "/v1/enrollment/pending/" "/approve" = some "p1" := by
  rw [NipCaRouter.rel_plain (rfl : router.pfx = "")]
  exact segBetween_eq_some.mpr ⟨by decide +kernel, by decide⟩

/-- Without the key the registration is approved, and its certificate issued and stored. -/
theorem approved_unauthorized :
    ¬ CarriesKey approval "secret" ∧ approved.1.status = 201 ∧
      approved.2.certs.records.map (·.nid) = [nid] ∧
      approved.2.pending.map (·.status) = [.approved] ∧
      ¬ Harmless router approval state (router.handle approval) := by
  have waits : Waits router approval state "/approve" "p1" queued :=
    ⟨rfl, rfl, approval_named, by decide, rfl⟩
  have approvable : Approvable router approval state := ⟨"p1", queued, waits, rfl, rfl⟩
  have handled : router.handle approval = router.approvePending "p1" := by
    rw [NipCaRouter.handle_pending rfl approval_named, approval_named]
    rfl
  have answer : approved = (router.approvePending "p1").runWith (handler 0) state := by
    rw [approved, handled]
  refine ⟨?_, ?_, ?_, ?_, approvable_changes approvable⟩
  · change ¬ bearerToken approval = _
    decide
  all_goals
    rw [answer]
    decide +kernel

/-- A revocation of the certificate, under another key. -/
def revocation : CaRequest where
  method := "POST"
  path := "/v1/agents/urn:nps:agent:example.org:a1/revoke"
  headers := [("authorization", "Bearer guess")]

/-- The certificate is there to be revoked, and stays as it is. -/
theorem harmless_revocation :
    approved.2.certs.records.map (fun record => (record.nid, record.revokedAt)) = [(nid, none)] ∧
      Harmless router revocation approved.2 (router.handle revocation) := by
  have issued : approved.2 = ((router.approvePending "p1").runWith (handler 0) state).2 := by
    rw [approved, NipCaRouter.handle_pending rfl approval_named, approval_named]
    rfl
  have elsewhere (ending : String) :
      segBetween (router.rel revocation) "/v1/enrollment/pending/" ending = none := by
    rw [NipCaRouter.rel_plain (rfl : router.pfx = "")]
    have stripped : Text.stripPrefix? "/v1/enrollment/pending/" revocation.path = none := by
      decide +kernel
    rw [segBetween, stripped]
    rfl
  constructor
  · rw [issued]
    decide +kernel
  · apply (harmless_iff rfl (by change ¬ bearerToken revocation = _; decide)).mpr
    constructor
    · rintro ⟨id, record, waits, -⟩
      cases (elsewhere "/approve").symm.trans waits.named
    · rintro ⟨id, record, waits⟩
      cases (elsewhere "/reject").symm.trans waits.named

end Queued
end Nps.Nip.Ca
