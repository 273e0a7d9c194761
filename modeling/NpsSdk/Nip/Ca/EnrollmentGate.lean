import NpsSdk.Nip.Ca.Authorization
import NpsSdk.Nip.Ca.BootstrapTokens

/-! The enrollment policy as a gate. A certificate of the registration routes is stored either in
the request that the policy admits, or in the approval of a record that the policy has put into the
queue; the X.509 routes do not ask it. -/
namespace Nps.Nip.Ca
open Interaction Interaction.Prog Transition

structure Visit where
  before : CaState
  request : CaRequest
  after : CaState

def Visit.stored (visit : Visit) : List NipCertRecord :=
  visit.after.certs.records.drop visit.before.certs.records.length

def visited (s : CaState) (request : CaRequest) (t : CaState) : List Visit := [⟨s, request, t⟩]

section
variable [Ed25519] [Serde] [TimeText] [X509.CertificateLibrary] [Sha256] (router : NipCaRouter)

def Serves (s : CaState) (request : CaRequest) (t : CaState) : Prop :=
  ∃ response, Runs exec (router.handle request) s response t

end

def EnrollmentRequest.enrollment (request : EnrollmentRequest) : Enrollment :=
  ⟨request.entityType, request.identifier, request.pubKey, request.capabilities, request.scopeJson⟩

def PendingRegistration.enrollment (record : PendingRegistration) : Enrollment :=
  ⟨record.entityType, record.identifier, record.pubKey, record.capabilities, record.scopeJson⟩

/-- Once a record is no longer pending it stays decided; one that is pending is as it was added. -/
structure Settles (record later : PendingRegistration) : Prop where
  pending : later.status = .pending → later = record
  decided : record.status ≠ .pending → later.status ≠ .pending

theorem Settles.refl (record : PendingRegistration) : Settles record record :=
  ⟨fun _ => rfl, id⟩

theorem Settles.trans {first second third : PendingRegistration} (earlier : Settles first second)
    (later : Settles second third) : Settles first third := by
  refine ⟨fun pending => ?_, fun decided => later.decided (earlier.decided decided)⟩
  obtain rfl := later.pending pending
  exact earlier.pending pending

def Queue.Kept (s t : CaState) : Prop :=
  ∀ (k : Nat) record, s.pending[k]? = some record →
    ∃ later, t.pending[k]? = some later ∧ Settles record later

theorem settles_settle {id : String} {decide : PendingRegistration → PendingRegistration}
    (away : ∀ record, (decide record).status ≠ .pending) {queue : List PendingRegistration}
    {k : Nat} {record : PendingRegistration} (found : queue[k]? = some record) :
    ∃ later, (InMemoryPendingStore.settle id decide queue).2[k]? = some later ∧
      Settles record later := by
  induction queue generalizing k with
  | nil => cases found
  | cons first rest ih =>
    unfold InMemoryPendingStore.settle
    by_cases own : first.id = id
    · rw [if_pos own]
      by_cases waits : first.status = .pending
      · rw [if_pos waits]
        cases k with
        | zero =>
          cases found
          exact ⟨_, rfl, fun pending => absurd pending (away _), fun _ => away _⟩
        | succ k => exact ⟨record, found, .refl record⟩
      · rw [if_neg waits]
        exact ⟨record, found, .refl record⟩
    · rw [if_neg own]
      cases k with
      | zero => exact ⟨record, found, .refl record⟩
      | succ k => exact ih found

section
variable [Sha256] {s t : CaState} {op : CaOp} {answer : op.Answer}

theorem exec_queue (step : exec op s answer t) : Queue.Kept s t := by
  intro k record found
  cases op with
  | enqueue added =>
    cases step
    refine ⟨record, ?_, .refl record⟩
    rw [List.getElem?_append_left (List.getElem?_eq_some_iff.mp found).1]
    exact found
  | approve id =>
    obtain ⟨-, rfl⟩ := step
    exact settles_settle (by simp) found
  | reject id reason =>
    obtain ⟨-, rfl⟩ := step
    exact settles_settle (by simp) found
  | createToken label expiresAt =>
    obtain ⟨_, _, _, -, -, rfl⟩ := step
    exact ⟨record, found, .refl record⟩
  | validateAndConsume token =>
    obtain ⟨_, -, -, rfl⟩ := step
    exact ⟨record, found, .refl record⟩
  | randomBytes => cases step; exact ⟨record, found, .refl record⟩
  | _ => obtain ⟨-, rfl⟩ := step; exact ⟨record, found, .refl record⟩

theorem runs_queue {α : Type} {p : CaProg α} {a : α} (runs : Runs exec p s a t) : Queue.Kept s t := by
  have only : Only (fun _ => True) p := by
    clear runs
    induction p with
    | done result => trivial
    | call op next ih => exact ⟨trivial, ih⟩
  refine runs.related (fun s k record found => ⟨record, found, .refl record⟩) ?_
    (fun _ step => exec_queue step) only
  intro s t u first second k record found
  obtain ⟨middle, there, earlier⟩ := first k record found
  obtain ⟨last, here, later⟩ := second k middle there
  exact ⟨last, here, earlier.trans later⟩

end

def Enqueues : CaOp → Prop
  | .enqueue _ => True
  | _ => False

/-- The operations that a policy has no store for. -/
def IssuesCertificates : CaOp → Prop
  | .save _ | .revoke _ _ _ => True
  | _ => False

section
variable [Sha256] {s t : CaState} {op : CaOp} {answer : op.Answer}

theorem exec_length (plain : ¬ Enqueues op) (step : exec op s answer t) :
    t.pending.length = s.pending.length := by
  cases op with
  | enqueue record => exact absurd trivial plain
  | approve id =>
    obtain ⟨-, rfl⟩ := step
    exact InMemoryPendingStore.settle_length
  | reject id reason =>
    obtain ⟨-, rfl⟩ := step
    exact InMemoryPendingStore.settle_length
  | createToken label expiresAt =>
    obtain ⟨_, _, _, -, -, rfl⟩ := step
    rfl
  | validateAndConsume token =>
    obtain ⟨_, -, -, rfl⟩ := step
    rfl
  | randomBytes => cases step; rfl
  | _ => obtain ⟨-, rfl⟩ := step; rfl

theorem exec_certificates (plain : ¬ IssuesCertificates op) (step : exec op s answer t) :
    t.certs.records = s.certs.records := by
  have revokes : ∀ nid reason revokedAt, op ≠ .revoke nid reason revokedAt := by
    rintro nid reason revokedAt rfl
    exact plain trivial
  have none : saved op answer = [] := by
    cases op with
    | save record => exact absurd trivial plain
    | _ => rfl
  rw [exec_records revokes step, none, List.append_nil]

theorem runs_length {α : Type} {p : CaProg α} {a : α} (only : Only (fun op => ¬ Enqueues op) p)
    (runs : Runs exec p s a t) : t.pending.length = s.pending.length := by
  refine runs.related (R := fun s t => t.pending.length = s.pending.length) (fun s => rfl) ?_
    exec_length only
  intro s t u first second
  exact Eq.trans second first

theorem runs_certificates {α : Type} {p : CaProg α} {a : α}
    (only : Only (fun op => ¬ IssuesCertificates op) p) (runs : Runs exec p s a t) :
    t.certs.records = s.certs.records := by
  refine runs.related (R := fun s t => t.certs.records = s.certs.records) (fun s => rfl) ?_
    exec_certificates only
  intro s t u first second
  exact Eq.trans second first

/-- A registration leaves the queue alone, and adds one record exactly when it returns a frame. -/
theorem SavesLast.runs [Ed25519] {ca : NipCaService} {may : Lookup → NipCertRecord → Prop}
    {seen : Lookup} {p : CaProg (Except NipCaError IdentFrame)}
    {result : Except NipCaError IdentFrame} (saves : SavesLast ca may seen p)
    (runs : Runs exec p s result t) : t.pending = s.pending ∧
      ((t.certs.records = s.certs.records ∧ ∃ e, result = .error e) ∨
        ∃ seen record frame, may seen record ∧ t.certs.records = s.certs.records ++ [record] ∧
          result = .ok frame) := by
  induction runs generalizing seen with
  | done result s =>
    cases result with
    | ok frame => exact absurd ⟨frame, rfl⟩ saves
    | error e => exact ⟨rfl, .inl ⟨rfl, e, rfl⟩⟩
  | @call op next s u t answer result step rest ih =>
    cases op with
    | save record =>
      obtain ⟨holds, ⟨frame, taken, -⟩, refused⟩ := saves
      obtain ⟨same, rfl⟩ := step
      cases answer with
      | ok =>
        rw [taken] at rest
        obtain ⟨rfl, rfl⟩ := runs_done.mp rest
        exact ⟨rfl, .inr ⟨seen, record, frame, holds, InMemoryNipCaStore.save_ok same.symm, rfl⟩⟩
      | error e =>
        obtain ⟨e', last⟩ := refused e
        rw [last] at rest
        obtain ⟨rfl, rfl⟩ := runs_done.mp rest
        refine ⟨rfl, .inl ⟨?_, e', rfl⟩⟩
        dsimp only
        rw [InMemoryNipCaStore.save_error same.symm]
    | getByNid =>
      obtain ⟨-, rfl⟩ := step
      exact ih (saves.2 answer)
    | now | nextSerial =>
      obtain ⟨-, rfl⟩ := step
      exact ih (saves.2 answer)
    | randomBytes =>
      cases step
      exact ih (saves.2 answer)
    | _ => exact saves.1.elim

end

section
variable [Ed25519] [Serde] [TimeText] [Sha256] {router : NipCaRouter} {s t : CaState}

/-- The policy admits a request for what the record certifies, and the registration follows. -/
def Admitted (router : NipCaRouter) (s t : CaState) (record : NipCertRecord) : Prop :=
  ∃ enrollment u result, Certifies router.ca enrollment.enrollment record ∧
    Runs exec (router.policy enrollment) s .admitted u ∧
    Runs exec (router.ca.register enrollment.entityType enrollment.identifier enrollment.pubKey
      enrollment.capabilities enrollment.scopeJson enrollment.metadataJson) u result t

/-- The policy puts the record into the queue, at this place. -/
def Queues (router : NipCaRouter) (s : CaState) (place : Nat) (pending : PendingRegistration) : Prop :=
  ∃ enrollment outcome u, Runs exec (router.policy enrollment) s outcome u ∧
    s.pending.length ≤ place ∧ u.pending[place]? = some pending

theorem registerWithRa_runs {ca : NipCaService} {enrollment : EnrollmentRequest}
    {policy : EnrollmentPolicy} {result : Except RegisterWithRaError IdentFrame}
    (runs : Runs exec (ca.registerWithRa enrollment policy) s result t) :
    ∃ outcome u, Runs exec (policy enrollment) s outcome u ∧
      (t = u ∨ outcome = .admitted ∧ ∃ result, Runs exec (ca.register enrollment.entityType
        enrollment.identifier enrollment.pubKey enrollment.capabilities enrollment.scopeJson
        enrollment.metadataJson) u result t) := by
  obtain ⟨outcome, u, checked, rest⟩ := runs_bind.mp runs
  refine ⟨outcome, u, checked, ?_⟩
  cases outcome with
  | deny e =>
    cases rest
    exact .inl rfl
  | pending id =>
    cases rest
    exact .inl rfl
  | admitted =>
    obtain ⟨result, v, registered, last⟩ := runs_bind.mp rest
    cases last
    exact .inr ⟨rfl, result, registered⟩

/-- What a visit of the route adds: a record that the policy admits, and what the policy queues. -/
theorem register_visit (keeps : ∀ enrollment, Only (fun op => ¬ IssuesCertificates op)
      (router.policy enrollment)) {request : CaRequest} {entityType : String} {caps : List String}
    {response : CaResponse} (runs : Runs exec (router.register request entityType caps) s response t) :
    (t.certs.records = s.certs.records ∨
      ∃ record, t.certs.records = s.certs.records ++ [record] ∧ Admitted router s t record) ∧
    ∀ (k : Nat) pending, s.pending.length ≤ k → t.pending[k]? = some pending →
      Queues router s k pending := by
  have still (same : t = s) : (t.certs.records = s.certs.records ∨ ∃ record,
        t.certs.records = s.certs.records ++ [record] ∧ Admitted router s t record) ∧
      ∀ (k : Nat) pending, s.pending.length ≤ k → t.pending[k]? = some pending →
        Queues router s k pending := by
    subst same
    refine ⟨.inl rfl, fun k pending beyond found => ?_⟩
    exact absurd (List.getElem?_eq_some_iff.mp found).1 (Nat.not_lt.mpr beyond)
  unfold NipCaRouter.register at runs
  split_ifs at runs with authorized
  · split at runs
    · cases runs
      exact still rfl
    split at runs
    · cases runs
      exact still rfl
    obtain ⟨result, v, enrolled, last⟩ := runs_bind.mp runs
    have same : t = v := by
      split at last <;> cases last <;> rfl
    subst same
    obtain ⟨outcome, u, checked, rest⟩ := registerWithRa_runs enrolled
    have kept := runs_certificates (keeps _) checked
    rcases rest with rfl | ⟨rfl, result, registered⟩
    · exact ⟨.inl kept, fun k pending beyond found => ⟨_, outcome, _, checked, beyond, found⟩⟩
    · obtain ⟨queue, certificates⟩ := (savesLast_register router.ca _ _ _ _ _ _).runs registered
      rw [kept] at certificates
      refine ⟨?_, fun k pending beyond found => ?_⟩
      · refine certificates.imp And.left ?_
        rintro ⟨seen, record, frame, holds, added, -⟩
        exact ⟨record, added, _, u, result, holds.2, checked, registered⟩
      · rw [queue] at found
        exact ⟨_, .admitted, u, checked, beyond, found⟩
  · cases runs
    exact still rfl

/-- The record that is pending at this place is approved, for a certificate of what it asks for. -/
structure Turned (ca : NipCaService) (s t : CaState) (place : Nat) (pending : PendingRegistration)
    (record : NipCertRecord) : Prop where
  found : s.pending[place]? = some pending
  waits : pending.status = .pending
  decided : t.pending[place]? = some { pending with status := .approved }
  certifies : Certifies ca pending.enrollment record

theorem approve_visit {id : String} {response : CaResponse}
    (runs : Runs exec (router.approvePending id) s response t) :
    t.certs.records = s.certs.records ∨ ∃ place pending record,
      t.certs.records = s.certs.records ++ [record] ∧ Turned router.ca s t place pending record := by
  unfold NipCaRouter.approvePending at runs
  split_ifs at runs with enabled
  · have runs := runs_getPending.mp runs
    split at runs
    · cases runs
      exact .inl rfl
    rename_i pending found
    split_ifs at runs with settled
    · cases runs
      exact .inl rfl
    obtain ⟨result, u, registered, rest⟩ := runs_bind.mp runs
    obtain ⟨queue, ⟨same, e, rfl⟩ | ⟨seen, record, frame, ⟨-, certifies⟩, added, rfl⟩⟩ :=
      (savesLast_register router.ca _ _ _ _ _ _).runs registered
    · cases rest
      exact .inl same
    · have waits : pending.status = .pending := not_not.mp settled
      have rest := runs_approve.mp rest
      cases rest
      obtain ⟨before, after, split, -, -, marked⟩ : ∃ before after,
          u.pending = before ++ pending :: after ∧ (∀ other ∈ before, other.id ≠ id) ∧
            pending.id = id ∧ InMemoryPendingStore.approve id u.pending =
              (true, before ++ { pending with status := .approved } :: after) :=
        InMemoryPendingStore.settle_split (queue ▸ found) waits
      refine .inr ⟨before.length, pending, record, added, ?_, waits, ?_, certifies⟩
      · rw [← queue, split]
        simp
      · dsimp only
        rw [marked]
        simp
  · cases runs
    exact .inl rfl

end

section
variable [Ed25519] [Serde] [TimeText] [X509.CertificateLibrary] (router : NipCaRouter)
  (request : CaRequest)

def Posts (paths : List String) : Prop := request.method = "POST" ∧ router.rel request ∈ paths

def registerPaths : List String := ["/v1/agents/register", "/v1/nodes/register"]

def registerX509Paths : List String := ["/v1/agents/register-x509", "/v1/nodes/register-x509"]

def Approves (id : String) : Prop :=
  request.method = "POST" ∧
    segBetween (router.rel request) "/v1/enrollment/pending/" "/approve" = some id

theorem handle_register (posts : Posts router request registerPaths) :
    ∃ entityType caps, router.handle request = router.register request entityType caps := by
  obtain ⟨posted, path⟩ := posts
  rcases List.mem_pair.mp path with same | same
  · exact ⟨"agent", [], by simp [NipCaRouter.handle, posted, same]⟩
  · exact ⟨"node", NipCaRouter.nodeDefaultCaps, by simp [NipCaRouter.handle, posted, same]⟩

theorem handle_registerX509 (posts : Posts router request registerX509Paths) :
    ∃ entityType caps, router.handle request = router.registerX509 request entityType caps := by
  obtain ⟨posted, path⟩ := posts
  rcases List.mem_pair.mp path with same | same
  · exact ⟨"agent", [], by simp [NipCaRouter.handle, posted, same]⟩
  · exact ⟨"node", NipCaRouter.nodeDefaultCaps, by simp [NipCaRouter.handle, posted, same]⟩

theorem handle_approve {id : String} (approves : Approves router request id) :
    router.handle request = router.approvePending id := by
  rw [NipCaRouter.handle_pending approves.1 approves.2, approves.2]
  rfl

end

structure Keeps {α : Type} (p : CaProg α) : Prop where
  plain : Only (fun op => ¬ Enqueues op) p

section
variable {α β : Type} {p : CaProg α}

theorem Keeps.answer (a : α) : Keeps (pure a) := ⟨trivial⟩

theorem Keeps.ask {op : CaOp} {next : op.Answer → CaProg α} (plain : ¬ Enqueues op)
    (rest : ∀ answer, Keeps (next answer)) : Keeps (perform op >>= next) :=
  ⟨plain, fun answer => (rest answer).plain⟩

theorem Keeps.bind {f : α → CaProg β} (first : Keeps p) (second : ∀ a, Keeps (f a)) :
    Keeps (p >>= f) :=
  ⟨first.plain.bind fun a => (second a).plain⟩

theorem keeps_ite {c : Prop} [Decidable c] {q : CaProg α} (yes : c → Keeps p) (no : ¬ c → Keeps q) :
    Keeps (if c then p else q) := by
  split
  · exact yes ‹c›
  · exact no ‹¬ c›

theorem keeps_of_uses (only : Only Uses p) : Keeps p := by
  refine ⟨only.mono fun op uses enqueues => ?_⟩
  cases op <;> first | exact enqueues.elim | exact uses.elim

theorem keeps_of_reads (only : Only ReadOnly p) : Keeps p := by
  refine ⟨only.mono fun op reads enqueues => ?_⟩
  cases op <;> first | exact enqueues.elim | exact reads.elim

end

theorem keeps_revokeChildren (now : Instant) (children : List NipCertRecord) :
    Keeps (NipCaService.revokeChildren now children) := by
  induction children with
  | nil => exact .answer _
  | cons child rest ih =>
    unfold NipCaService.revokeChildren
    split
    · exact ih
    · exact .ask id fun _ => ih

section
variable [Ed25519] [TimeText] (ca : NipCaService)

theorem keeps_revoke (nid reason : String) : Keeps (ca.revoke nid reason) := by
  refine .ask id fun record => ?_
  split
  · exact .answer _
  refine .ask id fun now => .ask id fun marked => ?_
  split
  · refine .bind ?_ fun _ => .answer _
    unfold NipCaService.cascade
    split
    · exact .ask id fun children => keeps_revokeChildren now children
    · exact .answer _
  · exact .answer _

end

namespace NipCaRouter
variable [Ed25519] [Serde] [TimeText] (router : NipCaRouter) (request : CaRequest)

theorem keeps_registerX509 [X509.CertificateLibrary] (entityType : String) (caps : List String) :
    Keeps (router.registerX509 request entityType caps) := by
  refine keeps_ite (fun _ => ?_) fun _ => .answer _
  split
  · exact .answer _
  split
  · exact .answer _
  · exact (keeps_of_uses (savesLast_registerX509 router.ca _ _ _ _ _ _ _).uses).bind fun result => .answer _

theorem keeps_registerGroup : Keeps (router.registerGroup request) := by
  refine keeps_ite (fun _ => ?_) fun _ => .answer _
  split
  · exact .answer _
  extract_lets
  refine keeps_ite (fun _ => .answer _) fun _ => keeps_ite (fun _ => .answer _) fun _ => ?_
  exact (keeps_of_uses (savesLast_registerGroup router.ca _ _ _ _ _ _ _).uses).bind fun result => .answer _

theorem keeps_createToken : Keeps (router.createToken request) := by
  refine keeps_ite (fun _ => keeps_ite (fun _ => ?_) fun _ => .answer _) fun _ => .answer _
  exact .ask id fun now => .ask id fun raw => .answer _

theorem keeps_renew (nid : String) : Keeps (router.renew request nid) := by
  refine keeps_ite (fun _ => ?_) fun _ => .answer _
  exact (keeps_of_uses (savesLast_renew router.ca _).uses).bind fun result => .answer _

theorem keeps_revoke (nid : String) : Keeps (router.revoke request nid) := by
  refine keeps_ite (fun _ => ?_) fun _ => .answer _
  extract_lets
  refine keeps_ite (fun _ => ?_) fun _ => .answer _
  refine (Ca.keeps_revoke router.ca _ _).bind fun result => ?_
  split <;> exact .answer _

omit [TimeText] in
theorem keeps_sessionRequest (groupNid : String) : Keeps (router.sessionRequest request groupNid) := by
  unfold sessionRequest
  split
  · exact keeps_of_reads (router.jwsRequest_reads request groupNid)
  · exact .answer _

theorem keeps_issueSession (segment : String) : Keeps (router.issueSession request segment) := by
  unfold issueSession
  extract_lets groupNid
  refine .bind (router.keeps_sessionRequest request groupNid) fun session => ?_
  split
  · exact .answer _
  · refine keeps_ite (fun _ => .answer _) fun _ => ?_
    extract_lets
    exact (keeps_of_uses (savesLast_issueSession router.ca _ _ _).uses).bind fun result => .answer _

theorem keeps_approvePending (id : String) : Keeps (router.approvePending id) := by
  refine keeps_ite (fun _ => .ask not_false fun record => ?_) fun _ => .answer _
  split
  · exact .answer _
  refine keeps_ite (fun _ => .answer _) fun _ => ?_
  refine (keeps_of_uses (savesLast_register router.ca _ _ _ _ _ _).uses).bind fun result => ?_
  split
  · exact .ask not_false fun marked => .answer _
  · exact .answer _

omit [TimeText] in
theorem keeps_rejectPending (id : String) : Keeps (router.rejectPending request id) := by
  refine keeps_ite (fun _ => .ask not_false fun rejected => ?_) fun _ => .answer _
  refine keeps_ite (fun _ => .answer _) fun _ => .ask not_false fun record => ?_
  split <;> exact .answer _

theorem keeps_handlePath : Keeps (router.handlePath request request.method (router.rel request)) := by
  apply onPath_of (P := Keeps)
  · intro id _ _
    exact router.keeps_renew request id
  apply onPath_of (P := Keeps)
  · intro id _ _
    exact router.keeps_revoke request id
  apply onPath_of (P := Keeps)
  · intro id _ _
    exact keeps_of_reads (NipCaRouter.verify_reads id)
  apply onPath_of (P := Keeps)
  · intro segment _ _
    exact router.keeps_issueSession request segment
  apply onPath_of (P := Keeps)
  · intro group _ _
    exact .ask not_false fun sessions => .answer _
  apply onPath_of (P := Keeps)
  · intro id _ _
    exact router.keeps_revoke request id
  apply onPath_of (P := Keeps)
  · intro id _ _
    exact router.keeps_approvePending id
  apply onPath_of (P := Keeps)
  · intro id _ _
    exact router.keeps_rejectPending request id
  exact .answer _

omit [Serde] in
theorem keeps_crl : Keeps router.crl := .ask not_false fun _ => .ask not_false fun _ => .answer _

theorem keeps_certificates : Keeps (router.certificates request) :=
  keeps_ite (fun _ => .ask not_false fun _ => .answer _) fun _ => .answer _

omit [Serde] in
theorem keeps_listPending : Keeps (router.listPending request) :=
  keeps_ite (fun _ => keeps_ite (fun _ => .ask not_false fun _ => .answer _) fun _ => .answer _)
    fun _ => .answer _

/-- Only the route that asks the policy adds to the queue. -/
theorem keeps_handle [X509.CertificateLibrary] (away : ¬ Posts router request registerPaths) :
    Keeps (router.handle request) := by
  apply keeps_ite
  · exact fun _ => .answer _
  intro _
  apply keeps_ite
  · exact fun _ => .answer _
  intro _
  apply keeps_ite
  · exact fun _ => router.keeps_crl
  intro _
  apply keeps_ite
  · exact fun _ => router.keeps_certificates request
  intro _
  apply keeps_ite
  · exact fun agents => absurd ⟨agents.1, List.mem_pair.mpr (.inl agents.2)⟩ away
  intro _
  apply keeps_ite
  · exact fun nodes => absurd ⟨nodes.1, List.mem_pair.mpr (.inr nodes.2)⟩ away
  intro _
  apply keeps_ite
  · exact fun _ => router.keeps_registerX509 request _ _
  intro _
  apply keeps_ite
  · exact fun _ => router.keeps_registerX509 request _ _
  intro _
  apply keeps_ite
  · exact fun _ => router.keeps_registerGroup request
  intro _
  apply keeps_ite
  · exact fun _ => router.keeps_createToken request
  intro _
  apply keeps_ite
  · exact fun _ => router.keeps_listPending request
  intro _
  exact router.keeps_handlePath request

end NipCaRouter

theorem stored_of_added {visit : Visit} {added : List NipCertRecord}
    (records : visit.after.certs.records = visit.before.certs.records ++ added) :
    visit.stored = added := by
  rw [Visit.stored, records, List.drop_left]

theorem append_cons_eq_concat {γ : Type} {history earlier later : List γ} {last x : γ}
    (same : history ++ [last] = earlier ++ x :: later) :
    (x = last ∧ earlier = history) ∨ ∃ rest, history = earlier ++ x :: rest := by
  rcases List.eq_nil_or_concat later with rfl | ⟨rest, y, rfl⟩
  · obtain ⟨rfl, tail⟩ := List.append_inj' same rfl
    cases tail
    exact .inl ⟨rfl, rfl⟩
  · rw [List.concat_eq_append, ← List.cons_append, ← List.append_assoc] at same
    exact .inr ⟨rest, (List.append_inj' same rfl).1⟩

section
variable [Ed25519] [Serde] [TimeText] [X509.CertificateLibrary] [Sha256] (router : NipCaRouter)

/-- The routes of agents and nodes that store a certificate: both registrations, and the approval. -/
def Registers (request : CaRequest) : Prop :=
  Posts router request registerPaths ∨ Posts router request registerX509Paths ∨
    ∃ id, Approves router request id

/-- A post to an X.509 route that passes the checks of the handler, down to the CA. -/
def BypassesPolicy (request : CaRequest) : Prop :=
  Posts router request registerX509Paths ∧ router.authorized request = true ∧
    ∃ body identifier pubKey, request.jsonValue = some body ∧
      validateRegister body = .ok (identifier, pubKey)

/-- A stored certificate was admitted by the policy, in the same request or as a record of the queue:
one that the policy has put there, and that is turned into this certificate and no other. -/
def Gated (earlier : List Visit) (visit : Visit) (record : NipCertRecord) : Prop :=
  Admitted router visit.before visit.after record ∨ ∃ place pending,
    Turned router.ca visit.before visit.after place pending record ∧ visit.stored = [record] ∧
      (∃ queued ∈ earlier, Queues router queued.before place pending) ∧
      ∀ other ∈ earlier, ∀ pending' record',
        ¬ Turned router.ca other.before other.after place pending' record'

/-- Every certificate that the routes have stored went through the gate. -/
def Gate (history : List Visit) : Prop :=
  ∀ earlier visit later, history = earlier ++ visit :: later → Registers router visit.request →
    ∀ record ∈ visit.stored, Gated router earlier visit record

/-- Where a record of the queue comes from, and what became of the records that were approved. -/
structure Gating (s : CaState) (history : List Visit) : Prop where
  gate : Gate router history
  queued : ∀ (k : Nat) pending, s.pending[k]? = some pending → ∃ visit ∈ history, ∃ first,
    Queues router visit.before k first ∧ Settles first pending
  turned : ∀ visit ∈ history, ∀ place pending record,
    Turned router.ca visit.before visit.after place pending record →
      ∃ later, s.pending[place]? = some later ∧ later.status ≠ .pending

section Steps
variable {router : NipCaRouter} {s t : CaState} {request : CaRequest} {history : List Visit}

theorem registerX509_idle {response : CaResponse} (posts : Posts router request registerX509Paths)
    (away : ¬ BypassesPolicy router request)
    (runs : Runs exec (router.handle request) s response t) : t = s := by
  obtain ⟨entityType, caps, same⟩ := handle_registerX509 router request posts
  rw [same] at runs
  unfold NipCaRouter.registerX509 at runs
  split_ifs at runs with authorized
  · split at runs
    · cases runs
      rfl
    rename_i body read
    split at runs
    · cases runs
      rfl
    · rename_i identifier pubKey valid
      exact absurd ⟨posts, authorized, body, identifier, pubKey, read, valid⟩ away
  · cases runs
    rfl

theorem Gating.queues (gating : Gating router s history)
    (policy : ∀ enrollment, Only (fun op => ¬ IssuesCertificates op) (router.policy enrollment))
    (serves : Serves router s request t) : ∀ (k : Nat) pending, t.pending[k]? = some pending →
      ∃ visit ∈ history ++ [⟨s, request, t⟩], ∃ first,
        Queues router visit.before k first ∧ Settles first pending := by
  intro k pending found
  obtain ⟨response, runs⟩ := serves
  by_cases old : k < s.pending.length
  · obtain ⟨later, here, settles⟩ := runs_queue runs k _ (List.getElem?_eq_getElem old)
    cases found.symm.trans here
    obtain ⟨visit, member, first, queues, settled⟩ :=
      gating.queued k _ (List.getElem?_eq_getElem old)
    exact ⟨visit, List.mem_append_left _ member, first, queues, settled.trans settles⟩
  · by_cases posts : Posts router request registerPaths
    · obtain ⟨entityType, caps, same⟩ := handle_register router request posts
      rw [same] at runs
      have queues := (register_visit policy runs).2 k pending (Nat.le_of_not_lt old) found
      exact ⟨_, List.mem_append_right _ (List.mem_singleton_self _), pending, queues, .refl pending⟩
    · have length := runs_length (router.keeps_handle request posts).plain runs
      have bound := (List.getElem?_eq_some_iff.mp found).1
      omega

theorem Gating.turns (gating : Gating router s history) (serves : Serves router s request t) :
    ∀ visit ∈ history ++ [⟨s, request, t⟩], ∀ place pending record,
      Turned router.ca visit.before visit.after place pending record →
        ∃ later, t.pending[place]? = some later ∧ later.status ≠ .pending := by
  intro visit member place pending record turned
  rcases List.mem_append.mp member with old | new
  · obtain ⟨decided, here, settled⟩ := gating.turned visit old place pending record turned
    obtain ⟨response, runs⟩ := serves
    obtain ⟨later, there, settles⟩ := runs_queue runs place decided here
    exact ⟨later, there, settles.decided settled⟩
  · cases List.mem_singleton.mp new
    exact ⟨_, turned.decided, by simp⟩

theorem Gating.gated (gating : Gating router s history)
    (policy : ∀ enrollment, Only (fun op => ¬ IssuesCertificates op) (router.policy enrollment))
    (away : ¬ BypassesPolicy router request) (serves : Serves router s request t)
    (registers : Registers router request) :
    ∀ record ∈ (Visit.mk s request t).stored, Gated router history ⟨s, request, t⟩ record := by
  intro record member
  obtain ⟨response, runs⟩ := serves
  have idle (same : t.certs.records = s.certs.records) : Gated router history ⟨s, request, t⟩ record := by
    have none : (Visit.mk s request t).stored = [] :=
      stored_of_added (same.trans (List.append_nil _).symm)
    rw [none] at member
    cases member
  rcases registers with posts | posts | ⟨id, approves⟩
  · obtain ⟨entityType, caps, same⟩ := handle_register router request posts
    rw [same] at runs
    rcases (register_visit policy runs).1 with same | ⟨added, records, admitted⟩
    · exact idle same
    · have stored : (Visit.mk s request t).stored = [added] := stored_of_added records
      rw [stored] at member
      cases List.mem_singleton.mp member
      exact .inl admitted
  · exact idle (by rw [registerX509_idle posts away runs])
  · rw [handle_approve router request approves] at runs
    rcases approve_visit runs with same | ⟨place, pending, added, records, turned⟩
    · exact idle same
    · have stored : (Visit.mk s request t).stored = [added] := stored_of_added records
      rw [stored] at member
      cases List.mem_singleton.mp member
      refine .inr ⟨place, pending, turned, stored, ?_, fun other earlier pending' record' before => ?_⟩
      · obtain ⟨visit, earlier, first, queues, settles⟩ := gating.queued place pending turned.found
        obtain rfl := settles.pending turned.waits
        exact ⟨visit, earlier, queues⟩
      · obtain ⟨decided, here, settled⟩ := gating.turned other earlier place pending' record' before
        cases here.symm.trans turned.found
        exact settled turned.waits

theorem Gating.step (gating : Gating router s history)
    (policy : ∀ enrollment, Only (fun op => ¬ IssuesCertificates op) (router.policy enrollment))
    (away : ¬ BypassesPolicy router request) (serves : Serves router s request t) :
    Gating router t (history ++ [⟨s, request, t⟩]) := by
  refine ⟨?_, gating.queues policy serves, gating.turns serves⟩
  intro earlier visit later same registers record stored
  rcases append_cons_eq_concat same with ⟨rfl, rfl⟩ | ⟨rest, before⟩
  · exact gating.gated policy away serves registers record stored
  · exact gating.gate earlier visit rest before registers record stored

/-- Where no X.509 request gets down to the CA, every certificate of the registration routes went
through the policy, whatever the policy is. -/
theorem enrollment_gate
    (policy : ∀ enrollment, Only (fun op => ¬ IssuesCertificates op) (router.policy enrollment))
    {start : CaState} (empty : start.pending = []) {requests : List CaRequest}
    (run : Run (Logged visited (Guarded (fun _ request => ¬ BypassesPolicy router request)
      (Serves router))) (start, []) requests (s, history)) : Gate router history := by
  have initial : Gating router start [] := by
    refine ⟨?_, ?_, ?_⟩
    · intro earlier visit later same
      simp at same
    · intro k pending found
      rw [empty] at found
      cases found
    · intro visit member
      cases member
  have gating := run.invariant (P := fun state => Gating router state.1 state.2)
    (fun {s e t} holds step => ?_) initial
  · exact gating.gate
  · obtain ⟨⟨away, serves⟩, logs⟩ := step
    rw [logs]
    exact Gating.step holds policy away serves

end Steps
end

/-- No policy of a tier issues certificates itself. -/
theorem tier_apart {opts : NipCaOptions} {bootstrapStore pendingStore : Bool}
    {policy : EnrollmentPolicy}
    (created : createEnrollmentPolicy opts bootstrapStore pendingStore = .ok policy)
    (enrollment : EnrollmentRequest) :
    Only (fun op => ¬ IssuesCertificates op) (policy enrollment) := by
  have allowlist : Only (fun op => ¬ IssuesCertificates op)
      (allowlistPolicy opts.enrollmentAllowlistPatterns enrollment) := by
    unfold allowlistPolicy
    split <;> trivial
  have bootstrap : Only (fun op => ¬ IssuesCertificates op) (bootstrapTokenPolicy enrollment) := by
    rcases bootstrapTokenPolicy_cases enrollment with ⟨e, same⟩ | ⟨next, same, admits, e, denies⟩
    · rw [same]
      trivial
    · rw [same]
      refine ⟨not_false, fun consumed => ?_⟩
      cases consumed with
      | true => rw [admits]; trivial
      | false => rw [denies]; trivial
  have queue : Only (fun op => ¬ IssuesCertificates op)
      (pendingQueuePolicy opts.pendingQueueMaxSize enrollment) := by
    refine .ask not_false fun count => ?_
    by_cases full : count ≥ opts.pendingQueueMaxSize
    · rw [if_pos full]
      trivial
    · rw [if_neg full]
      exact .ask not_false fun random => .ask not_false fun now => .ask not_false fun _ => trivial
  unfold createEnrollmentPolicy at created
  split at created
  · cases created
    exact allowlist
  · split_ifs at created
    cases created
    exact bootstrap
  · split_ifs at created
    cases created
    exact queue

namespace Enrolled
open Sample

def body : String := "\x7b\"identifier\":\"a1\",\"pub_key\":\"" ++ ca.getCaPublicKey ++
  "\",\"capabilities\":[\"nwp:query\"]\x7d"

scoped instance serde : Serde where
  fromStr text := if text = "\x7b\x7d" then .ok (.object []) else .error "expected value"
  fromSlice bytes :=
    if bytes = Text.utf8 body then
      .ok (.object [
        ("capabilities", .array [.string "nwp:query"]), ("identifier", .string "a1"),
        ("pub_key", .string ca.getCaPublicKey)])
    else .error "expected value"

/-- A certificate library that signs what it is given, with one text for all certificates. -/
scoped instance library : X509.CertificateLibrary where
  checkUri _ := .ok ()
  selfSigned _ _ := .ok [0x30, 0x00]
  signedBy _ _ _ _ := .ok [0x30, 0x00]

def queueing : NipCaRouter where
  ca := ca
  policy := pendingQueuePolicy 1
  pendingStore := true

def registration : CaRequest where
  method := "POST"
  path := "/v1/agents/register"
  body := Text.utf8 body

def approval : CaRequest where
  method := "POST"
  path := "/v1/enrollment/pending/00000000000000000000000000000000/approve"

def queued : CaState := ((queueing.handle registration).runWith (handler 0) {}).2

def approved : CaState := ((queueing.handle approval).runWith (handler 0) queued).2

theorem queueing_apart (enrollment : EnrollmentRequest) :
    Only (fun op => ¬ IssuesCertificates op) (queueing.policy enrollment) := by
  have created : createEnrollmentPolicy { ca.opts with
      enrollmentTier := .pendingQueue, pendingQueueMaxSize := 1 } false true = .ok queueing.policy := rfl
  exact tier_apart created enrollment

/-- A certificate that was queued and approved. -/
theorem queued_gated : ∃ requests s history,
    Run (Logged visited (Guarded (fun _ request => ¬ BypassesPolicy queueing request)
      (Serves queueing))) (({} : CaState), []) requests (s, history) ∧ Gate queueing history ∧
        s.certs.records.map (·.nid) = [nid] := by
  have serves (request : CaRequest) (s : CaState) :
      Serves queueing s request ((queueing.handle request).runWith (handler 0) s).2 :=
    ⟨_, runs_runWith (handler_faithful 0) _ s⟩
  have first : ¬ BypassesPolicy queueing registration := by
    rintro ⟨⟨-, path⟩, -⟩
    exact absurd path (by decide +kernel)
  have second : ¬ BypassesPolicy queueing approval := by
    rintro ⟨⟨-, path⟩, -⟩
    exact absurd path (by decide +kernel)
  have run : Run (Guarded (fun _ request => ¬ BypassesPolicy queueing request) (Serves queueing)) {}
      [registration, approval] approved :=
    .next ⟨first, serves registration {}⟩ (.single ⟨second, serves approval queued⟩)
  obtain ⟨history, logged⟩ := run.logged visited []
  have issued : approved.certs.records.map (·.nid) = [nid] := by decide +kernel
  have gate : Gate queueing history :=
    enrollment_gate queueing_apart (rfl : ({} : CaState).pending = []) logged
  exact ⟨[registration, approval], approved, history, logged, gate, issued⟩

def refusing : NipCaRouter where
  ca := ca
  policy := allowlistPolicy []

def certification : CaRequest := { registration with path := "/v1/agents/register-x509" }

def certified : CaState := ((refusing.handle certification).runWith (handler 0) {}).2

theorem certified_stored : ∃ t, Serves refusing {} certification t ∧
    t.certs.records.map (·.nid) = [nid] :=
  ⟨certified, ⟨_, runs_runWith (handler_faithful 0) _ {}⟩, by decide +kernel⟩

/-- The certificate is stored, and nobody has asked the policy. -/
theorem certified_ungated : ∃ requests s history,
    Run (Logged visited (Serves refusing)) (({} : CaState), []) requests (s, history) ∧
      ¬ Gate refusing history := by
  obtain ⟨t, serves, issued⟩ := certified_stored
  have run : Run (Serves refusing) {} [certification] t := .single serves
  obtain ⟨history, logged⟩ := run.logged visited []
  have whole : history = [⟨{}, certification, t⟩] := logged.of_single.2
  have registers : Registers refusing certification := .inr (.inl ⟨rfl, by decide +kernel⟩)
  refine ⟨_, _, _, logged, fun gate => ?_⟩
  obtain ⟨record, member⟩ : ∃ record, record ∈ t.certs.records := by
    refine List.exists_mem_of_ne_nil _ fun none => ?_
    rw [none] at issued
    cases issued
  rcases gate [] _ [] whole registers record member with admitted | ⟨place, pending, turned, -⟩
  · obtain ⟨enrollment, u, result, -, checked, -⟩ := admitted
    cases checked
  · cases turned.found

end Enrolled
end Nps.Nip.Ca
