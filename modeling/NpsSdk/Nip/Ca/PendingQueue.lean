import NpsSdk.Nip.Ca.Router
import NpsSdk.Nip.Ca.World

/-! The queue of pending registrations under interleaved checks, approvals and rejections. A check
counts before it enqueues, and an approval saves a certificate some steps after it has looked at the
record and one step before it marks it; what comes in between decides what the queue says. -/
namespace Nps.Nip.Ca
open Interaction Interaction.Prog Transition

inductive QueueCall where
  | check (request : EnrollmentRequest)
  | approve (id : String)
  | reject (request : CaRequest) (id : String)

inductive QueueReply where
  | checked (outcome : EnrollmentOutcome)
  | answered (response : CaResponse)

section
variable [Ed25519] [Serde] [TimeText] (router : NipCaRouter) (maxSize : Nat)

def QueueCall.program : QueueCall → CaProg QueueReply
  | check request => (pendingQueuePolicy maxSize request).map .checked
  | approve id => (router.approvePending id).map .answered
  | reject request id => (router.rejectPending request id).map .answered

variable [Sha256]

def pendingQueue : System CaOp.Answer CaState QueueCall QueueReply where
  program := QueueCall.program router maxSize
  exec := exec

end

abbrev QueuePool := Pool CaOp.Answer CaState QueueCall QueueReply

abbrev QueueEvent := Event CaOp.Answer QueueCall

def standing (id : String) (s : CaState) : Option PendingStatus :=
  (s.pending.find? (·.id == id)).map (·.status)

def waiting (s : CaState) : Nat := (s.pending.filter (·.status == .pending)).length

section Standing
variable {s t : CaState} {id other : String} {status : PendingStatus}
  {decide : PendingRegistration → PendingRegistration}

structure Settled (id : String) (status : PendingStatus) (s t : CaState) (answer : Bool) : Prop where
  took : answer = true → standing id s = some .pending ∧ standing id t = some status
  missed : answer = false → t.pending = s.pending ∧ standing id s ≠ some .pending
  others : ∀ other ≠ id, standing other t = standing other s
  fewer : waiting t ≤ waiting s

theorem settled_settle (keeps : ∀ record, (decide record).id = record.id)
    (decides : ∀ record, (decide record).status = status) (away : status ≠ .pending)
    (later : t.pending = (InMemoryPendingStore.settle id decide s.pending).2) :
    Settled id status s t (InMemoryPendingStore.settle id decide s.pending).1 := by
  by_cases pending : standing id s = some .pending
  · obtain ⟨record, found, waits⟩ := Option.map_eq_some_iff.mp pending
    obtain ⟨before, after, split, apart, own, settled⟩ : ∃ before after,
        s.pending = before ++ record :: after ∧ (∀ other ∈ before, other.id ≠ id) ∧ record.id = id ∧
          InMemoryPendingStore.settle id decide s.pending = (true, before ++ decide record :: after) :=
      InMemoryPendingStore.settle_split found waits
    have unseen : before.find? (·.id == id) = none := by simpa using apart
    rw [settled] at later
    rw [settled]
    refine ⟨fun _ => ⟨pending, ?_⟩, by simp, fun other different => ?_, ?_⟩
    · simp [standing, later, unseen, keeps, own, decides]
    · have apart : ¬ record.id = other := fun equal => different (equal.symm.trans own)
      simp [standing, later, split, keeps, apart]
    · simp [waiting, later, split, decides, away, waits]
  · have idle : InMemoryPendingStore.settle id decide s.pending = (false, s.pending) := by
      refine InMemoryPendingStore.settle_idle fun record found waits => pending ?_
      rw [standing, found, Option.map_some, waits]
    rw [idle] at later
    rw [idle]
    refine ⟨by simp, fun _ => ⟨later, pending⟩, fun other _ => ?_, ?_⟩
    · rw [standing, later, standing]
    · rw [waiting, later, waiting]

theorem exec_pending [Sha256] {op : CaOp} {answer : op.Answer}
    (enqueues : ∀ record, op ≠ .enqueue record) (approves : ∀ id, op ≠ .approve id)
    (rejects : ∀ id reason, op ≠ .reject id reason) (step : exec op s answer t) :
    t.pending = s.pending := by
  cases op with
  | enqueue record => exact absurd rfl (enqueues record)
  | approve id => exact absurd rfl (approves id)
  | reject id reason => exact absurd rfl (rejects id reason)
  | createToken label expiresAt =>
    obtain ⟨-, -, -, -, -, rfl⟩ := step
    rfl
  | validateAndConsume token =>
    obtain ⟨-, -, -, rfl⟩ := step
    rfl
  | randomBytes => cases step; rfl
  | _ => obtain ⟨-, rfl⟩ := step; rfl

theorem exec_approve [Sha256] {answer : Bool} (step : exec (.approve id) s answer t) :
    Settled id .approved s t answer := by
  obtain ⟨rfl, rfl⟩ := step
  exact settled_settle (fun _ => rfl) (fun _ => rfl) (by decide) rfl

theorem exec_reject [Sha256] {reason : String} {answer : Bool}
    (step : exec (.reject id reason) s answer t) : Settled id .rejected s t answer := by
  obtain ⟨rfl, rfl⟩ := step
  exact settled_settle (fun _ => rfl) (fun _ => rfl) (by decide) rfl

theorem waiting_enqueue [Sha256] {record : PendingRegistration}
    (step : exec (.enqueue record) s () t) : waiting t ≤ waiting s + 1 := by
  cases step
  simp only [waiting, List.filter_append, List.length_append]
  have one : ([record].filter (·.status == .pending)).length ≤ 1 := List.length_filter_le _ _
  omega

/-- A record that is added stands for its id only if no other does. -/
theorem standing_enqueue [Sha256] {record : PendingRegistration}
    (step : exec (.enqueue record) s () t) (stands : standing id s = some status) :
    standing id t = some status := by
  cases step
  obtain ⟨old, found, same⟩ := Option.map_eq_some_iff.mp stands
  simp [standing, found, same]

theorem standing_settled [Sha256] {op : CaOp} {answer : op.Answer} (step : exec op s answer t)
    (stands : standing id s = some status) (settled : status ≠ .pending) : standing id t = some status := by
  have stays {target : String} {decided : PendingStatus} {answer : Bool}
      (effect : Settled target decided s t answer) : standing id t = some status := by
    by_cases own : id = target
    · subst own
      cases answer with
      | true => exact absurd (Option.some.inj (stands.symm.trans (effect.took rfl).1)) settled
      | false => rwa [standing, (effect.missed rfl).1]
    · rwa [effect.others id own]
  cases op with
  | enqueue record => exact standing_enqueue step stands
  | approve target => exact stays (exec_approve step)
  | reject target reason => exact stays (exec_reject step)
  | _ => rwa [standing, exec_pending (by simp) (by simp) (by simp) step]

/-- Only a record that is added waits besides those that waited. -/
theorem waiting_fewer [Sha256] {op : CaOp} {answer : op.Answer}
    (enqueues : ∀ record, op ≠ .enqueue record) (step : exec op s answer t) : waiting t ≤ waiting s := by
  have plain (same : t.pending = s.pending) : waiting t ≤ waiting s := by
    rw [waiting, same, waiting]
  cases op with
  | enqueue record => exact absurd rfl (enqueues record)
  | approve target => exact (exec_approve step).fewer
  | reject target reason => exact (exec_reject step).fewer
  | _ => exact plain (exec_pending (by simp) (by simp) (by simp) step)

end Standing

def Approving (id : String) : CaProg QueueReply → Prop
  | .done _ => True
  | .call (.save _) next => (∃ reply, next (.ok ()) = .call (.approve id) fun _ => .done reply) ∧
      ∀ e, ∃ reply, next (.error e) = .done reply
  | .call op next => Prepares op ∧ ∀ answer, Approving id (next answer)

/-- How far an approval is: it looks at the record first, and goes on only with a pending one. -/
inductive Approval (id : String) (s : CaState) : CaProg QueueReply → Prop where
  | ended (reply : QueueReply) : Approval id s (.done reply)
  | looks {next : Option PendingRegistration → CaProg QueueReply}
      (pending : ∀ record, record.status = .pending → Approving id (next (some record)))
      (other : ∀ answer, answer.map (·.status) ≠ some .pending → ∃ reply, next answer = .done reply) :
      Approval id s (.call (.getPending id) next)
  | saves {p : CaProg QueueReply} (approving : Approving id p)
      (pending : standing id s = some .pending) : Approval id s p
  | marks (reply : QueueReply) (pending : standing id s = some .pending) :
      Approval id s (.call (.approve id) fun _ => .done reply)

/-- A record is added once. -/
def Adding : CaProg QueueReply → Prop
  | .done _ => True
  | .call (.enqueue _) next => ∃ reply, next () = .done reply
  | .call (.randomBytes _) next => ∀ answer, Adding (next answer)
  | .call .now next => ∀ answer, Adding (next answer)
  | _ => False

/-- How far a check is: it counts first, and goes on only if there is room. -/
inductive Check (maxSize : Nat) (s : CaState) : CaProg QueueReply → Prop where
  | ended (reply : QueueReply) : Check maxSize s (.done reply)
  | counts {next : Nat → CaProg QueueReply} (room : ∀ count < maxSize, Adding (next count))
      (full : ∀ count ≥ maxSize, ∃ reply, next count = .done reply) :
      Check maxSize s (.call .pendingCount next)
  | adds {p : CaProg QueueReply} (adding : Adding p) (room : waiting s < maxSize) : Check maxSize s p

def Rejects (id : String) : CaOp → Prop
  | .reject target _ => target = id
  | .getPending _ => True
  | _ => False

def Checks : CaOp → Prop
  | .pendingCount | .randomBytes _ | .now | .enqueue _ => True
  | _ => False

/-- A rejection is acknowledged with a document of its own. -/
def Acknowledged : QueueReply → Prop
  | .answered response => response.status = 200
  | .checked _ => False

/-- A rejection is acknowledged right after it took place. -/
def MarksRejected (id : String) : (op : CaOp) → op.Answer → QueueReply → Prop
  | .reject target _, answer, _ => target = id ∧ answer = true
  | _, _, _ => False

def Phase (maxSize : Nat) (s : CaState) : QueueCall → CaProg QueueReply → Prop
  | .approve id, p => Approval id s p
  | .reject _ id, p => Only (Rejects id) p ∧ (ReturnsBy (MarksRejected id) Acknowledged p ∨
      ∃ reply, p = .done reply ∧ (Acknowledged reply → standing id s = some .rejected))
  | .check _, p => Only Checks p ∧ Check maxSize s p

theorem approving_bind [Ed25519] {ca : NipCaService} {id : String}
    {may : Lookup → NipCertRecord → Prop} {seen : Lookup}
    {p : CaProg (Except NipCaError IdentFrame)} {f : Except NipCaError IdentFrame → CaProg CaResponse}
    (saves : SavesLast ca may seen p)
    (accepted : ∀ frame, ∃ response, f (.ok frame) = .call (.approve id) fun _ => .done response)
    (refused : ∀ e, ∃ response, f (.error e) = .done response) :
    Approving id ((p >>= f).map .answered) := by
  induction p generalizing seen with
  | done result =>
    cases result with
    | ok frame => exact absurd ⟨frame, rfl⟩ saves
    | error e =>
      obtain ⟨response, same⟩ := refused e
      rw [done_bind, same]
      trivial
  | call op next ih =>
    cases op with
    | save record =>
      obtain ⟨-, ⟨frame, taken, -⟩, others⟩ := saves
      obtain ⟨response, marks⟩ := accepted frame
      refine ⟨⟨.answered response, ?_⟩, fun e => ?_⟩
      · change Prog.map _ (next (.ok ()) >>= f) = _
        rw [taken, done_bind, marks]
        rfl
      · obtain ⟨e', same⟩ := others e
        obtain ⟨response, ends⟩ := refused e'
        refine ⟨.answered response, ?_⟩
        change Prog.map _ (next (.error e) >>= f) = _
        rw [same, done_bind, ends]
        rfl
    | getByNid => exact ⟨trivial, fun answer => ih answer (saves.2 answer)⟩
    | now | nextSerial | randomBytes => exact ⟨trivial, fun answer => ih answer (saves.2 answer)⟩
    | _ => exact saves.1.elim

section Programs
variable [Ed25519] [Serde] [TimeText] (router : NipCaRouter) (maxSize : Nat) (s : CaState)

theorem phase_approve (id : String) :
    Approval id s ((QueueCall.approve id).program router maxSize) := by
  change Approval id s (Prog.map .answered (router.approvePending id))
  unfold NipCaRouter.approvePending
  by_cases store : router.pendingStore = true
  · rw [if_pos store]
    refine .looks (fun record pending => ?_) fun answer settled => ?_
    · change Approving id (Prog.map .answered (if record.status ≠ .pending then _ else _))
      rw [if_neg (not_not.mpr pending)]
      exact approving_bind (savesLast_register router.ca _ _ _ _ _ _)
        (fun frame => ⟨_, rfl⟩) (fun e => ⟨_, rfl⟩)
    · cases answer with
      | none => exact ⟨_, rfl⟩
      | some record =>
        have refused : record.status ≠ .pending := fun pending => settled (congrArg some pending)
        exact ⟨_, (congrArg (Prog.map QueueReply.answered) (if_pos refused)).trans rfl⟩
  · rw [if_neg store]
    exact .ended _

theorem phase_reject (request : CaRequest) (id : String) :
    Phase maxSize s (.reject request id) ((QueueCall.reject request id).program router maxSize) := by
  change Only _ (Prog.map QueueReply.answered (router.rejectPending request id)) ∧
    (ReturnsBy _ _ (Prog.map QueueReply.answered (router.rejectPending request id)) ∨ _)
  unfold NipCaRouter.rejectPending
  by_cases store : router.pendingStore = true
  · rw [if_pos store]
    refine ⟨⟨rfl, fun rejected => ?_⟩, .inl fun rejected => ?_⟩
    · cases rejected with
      | true => trivial
      | false =>
        refine ⟨trivial, fun record => ?_⟩
        cases record <;> trivial
    · cases rejected with
      | true => exact .inl ⟨_, rfl, fun _ => ⟨rfl, rfl⟩⟩
      | false =>
        refine .inr fun record => .inr ?_
        cases record with
        | none => exact fun acknowledged => by cases acknowledged
        | some record => exact fun acknowledged => by cases acknowledged
  · rw [if_neg store]
    exact ⟨trivial, .inl fun acknowledged => by cases acknowledged⟩

theorem phase_check (request : EnrollmentRequest) :
    Phase maxSize s (.check request) ((QueueCall.check request).program router maxSize) := by
  constructor
  · change Only Checks (Prog.map QueueReply.checked (pendingQueuePolicy maxSize request))
    refine .map (.ask trivial fun count => ?_)
    by_cases full : count ≥ maxSize
    · rw [if_pos full]
      trivial
    · rw [if_neg full]
      exact .ask trivial fun random => .ask trivial fun now => .ask trivial fun _ => trivial
  · refine .counts (fun count room => ?_) fun count full => ?_
    · change Adding (Prog.map _ (if count ≥ maxSize then _ else _))
      rw [if_neg (Nat.not_le.mpr room)]
      exact fun random now => ⟨_, rfl⟩
    · exact ⟨_, (congrArg (Prog.map QueueReply.checked) (if_pos full)).trans rfl⟩

theorem phase_program (call : QueueCall) : Phase maxSize s call (call.program router maxSize) := by
  cases call with
  | check request => exact phase_check router maxSize s request
  | approve id => exact phase_approve router maxSize s id
  | reject request id => exact phase_reject router maxSize s request id

end Programs

def marks (id : String) : QueueCall × CaProg QueueReply → Bool
  | (_, .call (.approve target) _) => target == id
  | _ => false

def marking (id : String) (pool : QueuePool) : Nat := pool.threads.countP (marks id)

def approves (pool : QueuePool) (id : String) (thread : Nat) : Bool :=
  match pool.threads[thread]? with
  | some (.approve target, _) => target == id
  | _ => false

def certifies (pool : QueuePool) (id : String) : QueueEvent → Bool
  | .act thread (.save _) (.ok ()) => approves pool id thread
  | _ => false

def issued (pool : QueuePool) (id : String) (history : List QueueEvent) : Nat :=
  history.countP (certifies pool id)

/-- A check that has found room and not yet added its record. -/
def adds : QueueCall × CaProg QueueReply → Bool
  | (.check _, .call .pendingCount _) => false
  | (.check _, .call _ _) => true
  | _ => false

/-- An approval that has looked at the record and not yet marked it. -/
def decides (id : String) : QueueCall × CaProg QueueReply → Bool
  | (.approve _, .call (.getPending _) _) => false
  | (.approve target, .call _ _) => target == id
  | _ => false

/-- The record on which a step decides, with a certificate or in the queue. -/
def decided (pool : QueuePool) (thread : Nat) : (op : CaOp) → op.Answer → Option String
  | .save _, .ok () =>
    match pool.threads[thread]? with
    | some (.approve id, _) => some id
    | _ => none
  | .approve id, true => some id
  | .reject id _, true => some id
  | _, _ => none

def enqueues : CaOp → Bool
  | .enqueue _ => true
  | _ => false

/-- What a call has read holds until it acts: a record that is added leaves room for the other checks
that have found some, and a record is decided on while no other approval is between its look at it
and its mark. -/
def Undisturbed (maxSize : Nat) (pool : QueuePool) : QueueEvent → Prop
  | .start _ => True
  | .act thread op answer => ∀ other ∈ pool.threads.eraseIdx thread,
    (enqueues op = true → adds other = true → waiting pool.shared + 1 < maxSize) ∧
      ∀ id ∈ decided pool thread op answer, decides id other = false

instance {maxSize : Nat} {pool : QueuePool} : DecidablePred (Undisturbed maxSize pool)
  | .start _ => .isTrue trivial
  | .act thread op answer => inferInstanceAs (Decidable (∀ other ∈ pool.threads.eraseIdx thread,
    (enqueues op = true → adds other = true → waiting pool.shared + 1 < maxSize) ∧
      ∀ id ∈ decided pool thread op answer, decides id other = false))

/-- What a step finds: room for the record that it adds, and a record to decide on which is pending
and which no approval is about to mark. -/
structure Finds (maxSize : Nat) (pool : QueuePool) (thread : Nat) (op : CaOp) (answer : op.Answer) :
    Prop where
  room : enqueues op = true → waiting pool.shared < maxSize
  undecided : ∀ id ∈ decided pool thread op answer, (∀ target, op ≠ .approve target) →
    marking id pool = 0
  pending : ∀ id ∈ decided pool thread op answer, standing id pool.shared = some .pending

/-- How far a record has come: nothing was issued, a certificate is saved and the record about to be
marked, or it is marked. -/
inductive Stage (pool : QueuePool) (id : String) (history : List QueueEvent) : Prop
  | waits (none : issued pool id history = 0) (idle : marking id pool = 0)
  | saved (one : issued pool id history = 1) (marks : marking id pool = 1)
      (pending : standing id pool.shared = some .pending)
  | marked (one : issued pool id history = 1) (idle : marking id pool = 0)
      (approved : standing id pool.shared = some .approved)

structure Queueing (maxSize : Nat) (pool : QueuePool) (history : List QueueEvent) : Prop where
  room : waiting pool.shared ≤ maxSize
  phases : ∀ (i : Nat) call p, pool.threads[i]? = some (call, p) → Phase maxSize pool.shared call p
  known : ∀ (i : Nat) op answer, .act i op answer ∈ history → i < pool.threads.length
  stages : ∀ id, Stage pool id history

theorem Approving.unmarked {id other : String} {call : QueueCall} {p : CaProg QueueReply}
    (approving : Approving id p) : marks other (call, p) = false := by
  cases p with
  | done reply => rfl
  | call op next =>
    cases op with
    | approve target => exact approving.1.elim
    | _ => rfl

/-- Only an approval of the id is about to mark it. -/
theorem Phase.approves_of_marks {maxSize : Nat} {s : CaState} {id : String} {call : QueueCall}
    {p : CaProg QueueReply} (phase : Phase maxSize s call p) (marks : marks id (call, p) = true) :
    call = .approve id ∧ ∃ reply, p = .call (.approve id) fun _ => .done reply := by
  cases call with
  | check request =>
    cases p with
    | done reply => cases marks
    | call op next =>
      cases op with
      | approve target => exact phase.1.1.elim
      | _ => cases marks
  | reject request target =>
    cases p with
    | done reply => cases marks
    | call op next =>
      cases op with
      | approve target => exact phase.1.1.elim
      | _ => cases marks
  | approve target =>
    cases phase with
    | ended reply => cases marks
    | looks => cases marks
    | saves approving =>
      rw [approving.unmarked] at marks
      cases marks
    | marks reply =>
      obtain rfl : target = id := by simpa [Ca.marks] using marks
      exact ⟨rfl, reply, rfl⟩

theorem Stage.kept {pool after : QueuePool} {id : String} {history later : List QueueEvent}
    (stage : Stage pool id history)
    (same : issued after id later = issued pool id history)
    (idle : marking id after = marking id pool)
    (stands : ∀ status, standing id pool.shared = some status →
      standing id after.shared = some status) : Stage after id later := by
  cases stage with
  | waits none unmarked => exact .waits (same.trans none) (idle.trans unmarked)
  | saved one marks pending => exact .saved (same.trans one) (idle.trans marks) (stands _ pending)
  | marked one unmarked approved =>
    exact .marked (same.trans one) (idle.trans unmarked) (stands _ approved)

/-- How an event changes what is counted of an id: by the certificate it has saved, and by the thread
that acts. -/
structure StepEffect (id : String) (history : List QueueEvent) (pool after : QueuePool)
    (event : QueueEvent) (before later : QueueCall × CaProg QueueReply) : Prop where
  counted : issued after id (history ++ [event]) =
    issued pool id history + if certifies pool id event then 1 else 0
  marked : marking id after + (if marks id before then 1 else 0) =
    marking id pool + if marks id later then 1 else 0

section Stages
variable {pool after : QueuePool} {id : String} {history : List QueueEvent} {thread : Nat}
  {call : QueueCall} {op : CaOp} {answer : op.Answer} {next : op.Answer → CaProg QueueReply}
  {allowed : CaOp → Prop}

theorem Only.unmarked {p : CaProg QueueReply} (only : Only allowed p)
    (never : ∀ target, ¬ allowed (.approve target)) : marks id (call, p) = false := by
  cases p with
  | done reply => rfl
  | call op next =>
    cases op with
    | approve target => exact absurd only.1 (never target)
    | _ => rfl

/-- A thread that neither saves nor marks changes nothing that is counted. -/
theorem StepEffect.calm (effect : StepEffect id history pool after (.act thread op answer)
      (call, .call op next) (call, next answer)) (only : Only allowed (.call op next))
    (never : ∀ target, ¬ allowed (.approve target)) (never' : ∀ record, ¬ allowed (.save record)) :
    issued after id (history ++ [.act thread op answer]) = issued pool id history ∧
      marking id after = marking id pool := by
  obtain ⟨counted, marked⟩ := effect
  rw [Only.unmarked only never, Only.unmarked (only.2 answer) never] at marked
  refine ⟨?_, marked⟩
  cases op with
  | save record => exact absurd only.1 (never' record)
  | _ => exact counted

variable [Sha256]

theorem stage_check {request : EnrollmentRequest} (stage : Stage pool id history)
    (effect : StepEffect id history pool after (.act thread op answer) (.check request, .call op next)
      (.check request, next answer))
    (only : Only Checks (.call op next)) (exec : exec op pool.shared answer after.shared) :
    Stage after id (history ++ [.act thread op answer]) := by
  obtain ⟨same, idle⟩ := effect.calm only (fun _ => not_false) fun _ => not_false
  refine stage.kept same idle fun status stands => ?_
  cases op with
  | enqueue record => exact standing_enqueue exec stands
  | pendingCount | randomBytes | now => rwa [standing, exec_pending (by simp) (by simp) (by simp) exec]
  | _ => exact only.1.elim

theorem stage_reject {request : CaRequest} {target : String} (stage : Stage pool id history)
    (effect : StepEffect id history pool after (.act thread op answer)
      (.reject request target, .call op next) (.reject request target, next answer))
    (only : Only (Rejects target) (.call op next)) (exec : exec op pool.shared answer after.shared)
    {maxSize : Nat} (finds : Finds maxSize pool thread op answer) :
    Stage after id (history ++ [.act thread op answer]) := by
  obtain ⟨same, idle⟩ := effect.calm only (fun _ => not_false) fun _ => not_false
  cases op with
  | reject named reason =>
    have settled : Settled named .rejected pool.shared after.shared answer := exec_reject exec
    cases answer with
    | false =>
      refine stage.kept same idle fun status stands => ?_
      rwa [standing, (settled.missed rfl).1]
    | true =>
      by_cases own : id = named
      · subst own
        cases stage with
        | waits none unmarked => exact .waits (same.trans none) (idle.trans unmarked)
        | saved one marks pending => cases marks.symm.trans (finds.undecided id rfl (by simp))
        | marked one unmarked approved => cases approved.symm.trans (settled.took rfl).1
      · refine stage.kept same idle fun status stands => ?_
        rwa [settled.others id own]
  | getPending =>
    refine stage.kept same idle fun status stands => ?_
    rwa [standing, exec_pending (by simp) (by simp) (by simp) exec]
  | _ => exact only.1.elim

/-- An approval that saves, and what comes before. -/
theorem stage_approving {target : String} (stage : Stage pool id history)
    (effect : StepEffect id history pool after (.act thread op answer)
      (.approve target, .call op next) (.approve target, next answer))
    (approving : Approving target (.call op next)) (exec : exec op pool.shared answer after.shared)
    (found : pool.threads[thread]? = some (.approve target, .call op next))
    {maxSize : Nat} (finds : Finds maxSize pool thread op answer) :
    Stage after id (history ++ [.act thread op answer]) := by
  have approver : approves pool id thread = (target == id) := by
    rw [approves, found]
  obtain ⟨counted, marked⟩ := effect
  rw [approving.unmarked] at marked
  have calm (before : Approving target (next answer)) (silent : certifies pool id (.act thread op answer) = false)
      (stands : ∀ status, standing id pool.shared = some status →
        standing id after.shared = some status) : Stage after id (history ++ [.act thread op answer]) := by
    rw [before.unmarked] at marked
    rw [silent] at counted
    exact stage.kept counted marked stands
  have untouched {later : CaState} (same : later.pending = pool.shared.pending) (status : PendingStatus)
      (stands : standing id pool.shared = some status) : standing id later = some status := by
    rwa [standing, same]
  cases op with
  | save record =>
    have same : after.shared.pending = pool.shared.pending :=
      exec_pending (by simp) (by simp) (by simp) exec
    cases answer with
    | error e =>
      obtain ⟨reply, last⟩ := approving.2 e
      exact calm (by rw [last]; trivial) rfl (untouched same)
    | ok =>
      obtain ⟨reply, last⟩ := approving.1
      rw [last] at marked
      change _ = _ + if approves pool id thread then 1 else 0 at counted
      by_cases own : target = id
      · subst own
        have saves : approves pool target thread = true := by simp [approver]
        have saved : target ∈ decided pool thread (.save record) (.ok ()) := by simp [decided, found]
        have pending := finds.pending target saved
        have unmarked := finds.undecided target saved (by simp)
        rw [saves] at counted
        simp only [marks, beq_self_eq_true, if_true, unmarked] at marked counted
        cases stage with
        | waits none idle =>
          rw [none] at counted
          exact .saved counted marked (untouched same _ pending)
        | saved one marks => cases marks.symm.trans unmarked
        | marked one idle approved => cases approved.symm.trans pending
      · have other : (target == id) = false := by simpa using own
        rw [approver, other] at counted
        simp only [marks, other] at marked
        exact stage.kept counted marked (untouched same)
  | getByNid | now | nextSerial | randomBytes =>
    exact calm (approving.2 answer) rfl (untouched (exec_pending (by simp) (by simp) (by simp) exec))
  | _ => exact approving.1.elim

theorem stage_looking {target named : String} {next : Option PendingRegistration → CaProg QueueReply}
    {answer : Option PendingRegistration} (stage : Stage pool id history)
    (effect : StepEffect id history pool after (.act thread (.getPending named) answer)
      (.approve target, .call (.getPending named) next) (.approve target, next answer))
    (unmarked : marks id (QueueCall.approve target, next answer) = false)
    (exec : exec (.getPending named) pool.shared answer after.shared) :
    Stage after id (history ++ [.act thread (.getPending named) answer]) := by
  obtain ⟨counted, marked⟩ := effect
  rw [unmarked] at marked
  refine stage.kept counted marked fun status stands => ?_
  rwa [standing, exec_pending (by simp) (by simp) (by simp) exec]

theorem stage_marking {target : String} {reply : QueueReply} {answer : Bool} (stage : Stage pool id history)
    (effect : StepEffect id history pool after (.act thread (.approve target) answer)
      (call, .call (.approve target) fun _ => .done reply) (call, .done reply))
    (exec : exec (.approve target) pool.shared answer after.shared) :
    Stage after id (history ++ [.act thread (.approve target) answer]) := by
  have settled : Settled target .approved pool.shared after.shared answer := exec_approve exec
  obtain ⟨counted, marked⟩ := effect
  by_cases own : target = id
  · subst own
    have balance : marking target after + 1 = marking target pool := by simpa [marks] using marked
    cases stage with
    | waits none idle => omega
    | saved one marking pending =>
      cases answer with
      | false => exact absurd pending (settled.missed rfl).2
      | true => exact .marked (counted.trans one) (by omega) (settled.took rfl).2
    | marked one idle approved => omega
  · have other : (target == id) = false := by simpa using own
    simp only [marks, other] at marked
    refine stage.kept counted marked fun status stands => ?_
    rwa [settled.others id (Ne.symm own)]

end Stages

section Phases
variable [Sha256] {maxSize : Nat} {pool : QueuePool} {op : CaOp} {answer : op.Answer} {call : QueueCall}

theorem standing_undecided {thread : Nat} {id : String} {status : PendingStatus} {t : CaState}
    (step : exec op pool.shared answer t) (undecided : id ∉ decided pool thread op answer)
    (stands : standing id pool.shared = some status) : standing id t = some status := by
  have stays {target : String} {marked : PendingStatus} {answer : Bool}
      (effect : Settled target marked pool.shared t answer) (away : answer = true → target ≠ id) :
      standing id t = some status := by
    cases answer with
    | true => rwa [effect.others id (away rfl).symm]
    | false => rwa [standing, (effect.missed rfl).1]
  cases op with
  | enqueue record => exact standing_enqueue step stands
  | approve target =>
    refine stays (exec_approve step) ?_
    rintro rfl rfl
    exact undecided rfl
  | reject target reason =>
    refine stays (exec_reject step) ?_
    rintro rfl rfl
    exact undecided rfl
  | _ => rwa [standing, exec_pending (by simp) (by simp) (by simp) step]

/-- A thread that waits is as far as it was. -/
theorem Phase.waits {thread : Nat} {t : CaState} {p : CaProg QueueReply}
    (phase : Phase maxSize pool.shared call p) (step : exec op pool.shared answer t)
    (room : enqueues op = true → adds (call, p) = true → waiting pool.shared + 1 < maxSize)
    (undecided : ∀ id ∈ decided pool thread op answer, decides id (call, p) = false) :
    Phase maxSize t call p := by
  cases call with
  | check request =>
    refine ⟨phase.1, ?_⟩
    cases phase.2 with
    | ended reply => exact .ended reply
    | counts some full => exact .counts some full
    | adds adding found =>
      cases p with
      | done reply => exact .ended reply
      | call own next =>
        have adds : adds (.check request, .call own next) = true := by
          cases own <;> first | rfl | exact adding.elim
        refine .adds adding ?_
        by_cases enqueues : ∃ record, op = .enqueue record
        · obtain ⟨record, rfl⟩ := enqueues
          exact (waiting_enqueue step).trans_lt (room rfl adds)
        · exact (waiting_fewer (by simpa using enqueues) step).trans_lt found
  | approve id =>
    have stays (own : decides id (.approve id, p) = true)
        (pending : standing id pool.shared = some .pending) : standing id t = some .pending := by
      have other : id ∉ decided pool thread op answer :=
        fun decided => Bool.false_ne_true ((undecided id decided).symm.trans own)
      exact standing_undecided step other pending
    cases phase with
    | ended reply => exact .ended reply
    | looks pending other => exact .looks pending other
    | saves approving pending =>
      cases p with
      | done reply => exact .ended reply
      | call own next =>
        refine .saves approving (stays ?_ pending)
        cases own with
        | getPending => exact approving.1.elim
        | _ => exact beq_self_eq_true id
    | marks reply pending => exact .marks reply (stays (beq_self_eq_true id) pending)
  | reject request id =>
    refine ⟨phase.1, phase.2.imp_right ?_⟩
    rintro ⟨reply, finished, rejected⟩
    exact ⟨reply, finished, fun acknowledged => standing_settled step (rejected acknowledged) (by decide)⟩

theorem Check.acts {s t : CaState} {next : op.Answer → CaProg QueueReply}
    (check : Check maxSize s (.call op next)) (step : exec op s answer t) :
    Check maxSize t (next answer) := by
  cases check with
  | counts room full =>
    obtain ⟨count, rfl⟩ := step
    by_cases some : answer < maxSize
    · exact .adds (room answer some) (by rwa [count] at some)
    · obtain ⟨reply, ends⟩ := full answer (Nat.not_lt.mp some)
      rw [ends]
      exact .ended reply
  | adds adding room =>
    cases op with
    | enqueue record =>
      obtain ⟨reply, ends⟩ := adding
      cases answer
      rw [ends]
      exact .ended reply
    | randomBytes | now => exact .adds (adding answer) ((waiting_fewer (by simp) step).trans_lt room)
    | _ => exact adding.elim

theorem Approval.acts {s t : CaState} {id : String} {next : op.Answer → CaProg QueueReply}
    (approval : Approval id s (.call op next)) (step : exec op s answer t) :
    Approval id t (next answer) := by
  cases approval with
  | looks pending other =>
    obtain ⟨found, rfl⟩ := step
    by_cases stands : standing id t = some .pending
    · obtain ⟨record, here, status⟩ := Option.map_eq_some_iff.mp stands
      rw [found, here]
      exact .saves (pending record status) stands
    · obtain ⟨reply, ends⟩ := other answer (found ▸ stands)
      rw [ends]
      exact .ended reply
  | saves approving pending =>
    have untouched (same : t.pending = s.pending) : standing id t = some .pending := by
      rwa [standing, same]
    cases op with
    | save record =>
      cases answer with
      | error e =>
        obtain ⟨reply, last⟩ := approving.2 e
        rw [last]
        exact .ended reply
      | ok =>
        obtain ⟨reply, last⟩ := approving.1
        rw [last]
        exact .marks reply (untouched (exec_pending (by simp) (by simp) (by simp) step))
    | getByNid | now | nextSerial | randomBytes =>
      exact .saves (approving.2 answer) (untouched (exec_pending (by simp) (by simp) (by simp) step))
    | _ => exact approving.1.elim
  | marks reply => exact .ended reply

theorem Phase.acts {s t : CaState} {next : op.Answer → CaProg QueueReply}
    (phase : Phase maxSize s call (.call op next)) (step : exec op s answer t) :
    Phase maxSize t call (next answer) := by
  cases call with
  | check request => exact ⟨phase.1.2 answer, phase.2.acts step⟩
  | approve id => exact Approval.acts phase step
  | reject request id =>
    obtain ⟨only, returns | ⟨reply, finished, -⟩⟩ := phase
    · refine ⟨only.2 answer, ?_⟩
      rcases returns answer with ⟨reply, last, justified⟩ | later
      · refine .inr ⟨reply, last, fun acknowledged => ?_⟩
        have marked := justified acknowledged
        cases op with
        | reject target reason =>
          obtain ⟨rfl, rfl⟩ := marked
          exact ((exec_reject step).took rfl).2
        | _ => exact marked.elim
      · exact .inl later
    · cases finished

theorem Queueing.finds {thread : Nat} {t : CaState} {history : List QueueEvent}
    {next : op.Answer → CaProg QueueReply} (queueing : Queueing maxSize pool history)
    (undisturbed : Undisturbed maxSize pool (.act thread op answer))
    (found : pool.threads[thread]? = some (call, .call op next))
    (step : exec op pool.shared answer t) : Finds maxSize pool thread op answer := by
  have phase := queueing.phases thread call _ found
  refine ⟨fun adds => ?_, fun id decided other => ?_, fun id decided => ?_⟩
  · cases op with
    | enqueue record =>
      cases call with
      | check request =>
        cases phase.2 with
        | adds adding room => exact room
      | approve id =>
        cases phase with
        | saves approving => exact approving.1.elim
      | reject request id => exact phase.1.1.elim
    | _ => cases adds
  · refine List.countP_eq_zero.mpr fun ⟨caller, p⟩ member marks => ?_
    obtain ⟨i, there⟩ := List.mem_iff_getElem?.mp member
    obtain ⟨rfl, reply, rfl⟩ := (queueing.phases i caller p there).approves_of_marks marks
    by_cases same : i = thread
    · subst same
      cases there.symm.trans found
      exact other id rfl
    · have quiet := (undisturbed _ (List.mem_eraseIdx_iff_getElem?.mpr ⟨i, same, there⟩)).2 id decided
      exact Bool.false_ne_true (quiet.symm.trans (beq_self_eq_true id))
  · cases op with
    | save record =>
      cases answer with
      | error e => cases decided
      | ok =>
        simp only [Ca.decided, found] at decided
        cases call with
        | approve target =>
          cases decided
          cases phase with
          | saves approving pending => exact pending
        | _ => cases decided
    | approve target =>
      cases answer <;> cases decided
      exact ((exec_approve step).took rfl).1
    | reject target reason =>
      cases answer <;> cases decided
      exact ((exec_reject step).took rfl).1
    | _ => cases decided

end Phases

/-- What a run of checks, approvals and rejections brings about: the queue keeps to its size, a
record leads to at most one certificate, to none once its rejection was acknowledged, and is
approved when its approvals are over and one has led to a certificate. -/
structure Lifecycle (maxSize : Nat) (pool : QueuePool) (history : List QueueEvent) : Prop where
  bounded : waiting pool.shared ≤ maxSize
  once : ∀ id, issued pool id history ≤ 1
  rejected : ∀ request id reply, (.reject request id, .done reply) ∈ pool.threads →
    Acknowledged reply → issued pool id history = 0
  approved : ∀ id, 0 < issued pool id history →
    (∀ p, (.approve id, p) ∈ pool.threads → ∃ reply, p = .done reply) →
    standing id pool.shared = some .approved

theorem Queueing.lifecycle {maxSize : Nat} {pool : QueuePool} {history : List QueueEvent}
    (queueing : Queueing maxSize pool history) : Lifecycle maxSize pool history := by
  refine ⟨queueing.room, fun id => ?_, fun request id reply member acknowledged => ?_,
    fun id positive ended => ?_⟩
  · cases queueing.stages id <;> omega
  · obtain ⟨i, found⟩ := List.mem_iff_getElem?.mp member
    obtain ⟨-, returns | ⟨reply', finished, rejected⟩⟩ := queueing.phases i _ _ found
    · exact absurd acknowledged returns
    · cases finished
      have rejected := rejected acknowledged
      cases queueing.stages id with
      | waits none idle => exact none
      | saved one marks pending => cases pending.symm.trans rejected
      | marked one idle approved => cases approved.symm.trans rejected
  · cases queueing.stages id with
    | waits none idle => omega
    | marked one idle approved => exact approved
    | saved one marked pending =>
      have some : 0 < marking id pool := by omega
      obtain ⟨⟨call, p⟩, member, marks⟩ := List.countP_pos_iff.mp some
      obtain ⟨i, found⟩ := List.mem_iff_getElem?.mp member
      obtain ⟨rfl, reply, rfl⟩ := (queueing.phases i call p found).approves_of_marks marks
      obtain ⟨reply', finished⟩ := ended _ member
      cases finished

section Steps
variable [Ed25519] [Serde] [TimeText] {router : NipCaRouter} {maxSize : Nat}
  {pool after : QueuePool} {event : QueueEvent} {history : List QueueEvent} {id : String}

theorem marking_start (call : QueueCall) :
    marking id { pool with threads := pool.threads ++ [(call, call.program router maxSize)] } =
      marking id pool := by
  have unmarked : ¬ marks id (call, call.program router maxSize) = true := by
    intro marks
    obtain ⟨rfl, -⟩ := (phase_program router maxSize pool.shared call).approves_of_marks marks
    change Ca.marks id (_, Prog.map QueueReply.answered (router.approvePending id)) = true at marks
    unfold NipCaRouter.approvePending at marks
    split at marks <;> cases marks
  rw [marking, List.countP_append, List.countP_singleton, if_neg unmarked]
  rfl

variable [Sha256]

theorem approves_after (step : (pendingQueue router maxSize).Step pool event after) {i : Nat}
    (old : i < pool.threads.length) : approves after id i = approves pool id i := by
  obtain ⟨⟨call, p⟩, found⟩ : ∃ thread, pool.threads[i]? = some thread := ⟨_, List.getElem?_eq_getElem old⟩
  obtain ⟨q, later⟩ := step.caller ⟨p, found⟩
  unfold approves
  rw [found, later]
  cases call <;> rfl

theorem issued_after (step : (pendingQueue router maxSize).Step pool event after)
    (known : ∀ (i : Nat) op answer, .act i op answer ∈ history → i < pool.threads.length) :
    issued after id (history ++ [event]) =
      issued pool id history + if certifies pool id event then 1 else 0 := by
  have same : ∀ e, (∀ i op answer, e = .act i op answer → i < pool.threads.length) →
      certifies after id e = certifies pool id e := by
    intro e old
    cases e with
    | start call => rfl
    | act i op answer =>
      cases op with
      | save record =>
        cases answer with
        | error e => rfl
        | ok => exact approves_after step (old i _ _ rfl)
      | _ => rfl
  have acts : ∀ i op answer, event = .act i op answer → i < pool.threads.length := by
    rintro i op answer rfl
    cases step with
    | act found exec => exact (List.getElem?_eq_some_iff.mp found).1
  have before : history.countP (certifies after id) = history.countP (certifies pool id) := by
    refine List.countP_congr fun e member => ?_
    rw [same e fun i op answer here => known i op answer (here ▸ member)]
  rw [issued, issued, List.countP_append, before, List.countP_singleton, same event acts]

/-- What the step of a thread does to the store, to what was issued and to the marks that are due. -/
theorem Queueing.effect {thread : Nat} {op : CaOp} {answer : op.Answer} {call : QueueCall}
    {next : op.Answer → CaProg QueueReply} (queueing : Queueing maxSize pool history)
    (step : (pendingQueue router maxSize).Step pool (.act thread op answer) after)
    (found : pool.threads[thread]? = some (call, .call op next)) (id : String) :
    StepEffect id history pool after (.act thread op answer) (call, .call op next)
      (call, next answer) := by
  refine ⟨issued_after step queueing.known, ?_⟩
  cases step with
  | act acted exec =>
    cases found.symm.trans acted
    obtain ⟨bound, same⟩ := List.getElem?_eq_some_iff.mp found
    have counted : marks id (call, .call op next) = true → 0 < marking id pool := by
      intro marks
      exact List.countP_pos_iff.mpr ⟨_, List.mem_of_getElem? found, marks⟩
    change (pool.threads.set thread (call, next answer) ++ []).countP (marks id) + _ = _
    rw [List.append_nil, List.countP_set bound, same]
    change marking id pool - _ + _ + _ = _
    split
    · rename_i marks
      have := counted marks
      omega
    · omega

theorem Queueing.stage (queueing : Queueing maxSize pool history)
    (undisturbed : Undisturbed maxSize pool event)
    (step : (pendingQueue router maxSize).Step pool event after) (id : String) :
    Stage after id (history ++ [event]) := by
  cases event with
  | start call =>
    have counted : issued after id (history ++ [.start call]) = issued pool id history :=
      issued_after step queueing.known
    cases step
    exact (queueing.stages id).kept counted (marking_start call) fun status stands => stands
  | act thread op answer =>
    obtain ⟨call, next, found, exec⟩ : ∃ call next, pool.threads[thread]? = some (call, .call op next) ∧
        exec op pool.shared answer after.shared := by
      cases step with
      | act found exec => exact ⟨_, _, found, exec⟩
    have effect := queueing.effect step found id
    have stage := queueing.stages id
    have phase := queueing.phases thread call _ found
    have finds := queueing.finds undisturbed found exec
    cases call with
    | check request => exact stage_check stage effect phase.1 exec
    | reject request target => exact stage_reject stage effect phase.1 exec finds
    | approve target =>
      cases phase with
      | looks pending other =>
        refine stage_looking stage effect ?_ exec
        by_cases waits : answer.map (·.status) = some .pending
        · obtain ⟨record, rfl, status⟩ := Option.map_eq_some_iff.mp waits
          exact (pending record status).unmarked
        · obtain ⟨reply, ends⟩ := other answer waits
          rw [ends]
          rfl
      | saves approving => exact stage_approving stage effect approving exec found finds
      | marks reply => exact stage_marking stage effect exec

theorem Queueing.step (queueing : Queueing maxSize pool history)
    (undisturbed : Undisturbed maxSize pool event)
    (step : (pendingQueue router maxSize).Step pool event after) :
    Queueing maxSize after (history ++ [event]) := by
  refine ⟨?room, ?phases, ?known, queueing.stage undisturbed step⟩
  case room =>
    cases step with
    | start call => exact queueing.room
    | @act thread call op next answer shared found exec =>
      by_cases enqueues : ∃ record, op = .enqueue record
      · obtain ⟨record, rfl⟩ := enqueues
        exact (waiting_enqueue exec).trans ((queueing.finds undisturbed found exec).room rfl)
      · exact (waiting_fewer (by simpa using enqueues) exec).trans queueing.room
  case phases =>
    intro i call p found
    cases step with
    | start fresh =>
      rcases getElem?_concat found with old | ⟨-, new⟩
      · exact queueing.phases i call p old
      · cases new
        exact phase_program router maxSize pool.shared call
    | act acted exec =>
      rcases getElem?_set_append found with ⟨other, old⟩ | ⟨rfl, same⟩ | ⟨-, -, new⟩
      · have calm := undisturbed _ (List.mem_eraseIdx_iff_getElem?.mpr ⟨i, other, old⟩)
        exact (queueing.phases i call p old).waits exec calm.1 calm.2
      · cases same
        exact (queueing.phases i call _ acted).acts exec
      · cases new
  case known =>
    intro i op answer member
    have there : ∃ call p, pool.threads[i]? = some (call, p) := by
      rcases List.mem_append.mp member with old | new
      · exact ⟨_, _, List.getElem?_eq_getElem (queueing.known i op answer old)⟩
      · cases List.mem_singleton.mp new
        cases step with
        | act found exec => exact ⟨_, _, found⟩
    obtain ⟨call, p, found⟩ := there
    obtain ⟨q, later⟩ := step.caller ⟨p, found⟩
    exact (List.getElem?_eq_some_iff.mp later).1

/-- In a run that nothing disturbs, the queue keeps the lifecycle of its records. -/
theorem pending_lifecycle {start : CaState} (room : waiting start ≤ maxSize)
    {events : List QueueEvent}
    (run : Run (Guarded (Undisturbed maxSize) (pendingQueue router maxSize).Step) ⟨start, []⟩ events
      pool) : Lifecycle maxSize pool events := by
  have initial : Queueing maxSize ⟨start, []⟩ [] := by
    refine ⟨room, ?_, ?_, fun id => .waits rfl rfl⟩
    · intro i call p found
      cases found
    · intro i op answer member
      cases member
  have queueing := (run.recorded []).invariant
    (P := fun state => Queueing maxSize state.1 state.2) (fun {s e t} holds step => ?_) initial
  · exact queueing.lifecycle
  · obtain ⟨⟨undisturbed, step⟩, records⟩ := step
    rw [records]
    exact holds.step undisturbed step

end Steps

namespace OneRecord
open Sample

def router : NipCaRouter where
  ca := ca
  policy := pendingQueuePolicy 1
  pendingStore := true

def request : EnrollmentRequest where
  entityType := "agent"
  identifier := "a1"
  pubKey := ca.getCaPublicKey
  capabilities := ["nwp:query"]
  scopeJson := "\x7b\x7d"
  metadataJson := none
  enrollmentToken := none

def id : String := "00000000000000000000000000000000"

def rejection : QueueCall := .reject { method := "POST", path := "" } id

/-- One check finds no room any more, one approval finds the certificate of the other, and the record
is rejected when it has been approved. -/
def settled : List (Move QueueCall) :=
  [.start (.check request), .run 0 1, .start (.check request), .run 0 3, .run 1 1, .start (.approve id),
    .run 2 5, .start (.approve id), .run 3 2, .run 2 1, .start rejection, .run 4 2]

/-- The record is rejected between the two steps of its approval. -/
def disturbed : List (Move QueueCall) :=
  [.start (.check request), .run 0 4, .start (.approve id), .run 1 5, .start rejection, .run 2 1,
    .run 1 1]

def played (moves : List (Move QueueCall)) : List QueueEvent × QueuePool :=
  (pendingQueue router 1).play (handler 0) moves ⟨{}, []⟩

theorem settled_lifecycle : ∃ events pool,
    Run (Guarded (Undisturbed 1) (pendingQueue router 1).Step) ⟨{}, []⟩ events pool ∧
      Lifecycle 1 pool events ∧ issued pool id events = 1 := by
  have run : Run (Guarded (Undisturbed 1) (pendingQueue router 1).Step) ⟨{}, []⟩ (played settled).1
      (played settled).2 :=
    System.run_play_guarded (handler_faithful 0)
      (fun pool event (met : decide (Undisturbed 1 pool event) = true) => of_decide_eq_true met)
      settled ⟨{}, []⟩ (by decide +kernel)
  exact ⟨_, _, run, pending_lifecycle (Nat.zero_le 1) run, by decide +kernel⟩

def acknowledges : QueueCall × CaProg QueueReply → Bool
  | (.reject _ target, .done (.answered response)) => target == id && response.status == 200
  | _ => false

theorem acknowledges_sound {thread : QueueCall × CaProg QueueReply}
    (met : acknowledges thread = true) :
    ∃ request reply, thread = (.reject request id, .done reply) ∧ Acknowledged reply := by
  unfold acknowledges at met
  split at met
  · rename_i request target response
    obtain ⟨same, status⟩ := Bool.and_eq_true_iff.mp met
    obtain rfl := eq_of_beq same
    exact ⟨request, .answered response, rfl, eq_of_beq status⟩
  · cases met

/-- The rejection is acknowledged, and the certificate issued. -/
theorem disturbed_issued : ∃ events pool,
    Run (pendingQueue router 1).Step ⟨{}, []⟩ events pool ∧ ¬ Lifecycle 1 pool events := by
  have run : Run (pendingQueue router 1).Step ⟨{}, []⟩ (played disturbed).1 (played disturbed).2 :=
    System.run_play (handler_faithful 0) disturbed _
  have acknowledged : (played disturbed).2.threads.any acknowledges = true := by decide +kernel
  have certified : issued (played disturbed).2 id (played disturbed).1 = 1 := by decide +kernel
  refine ⟨_, _, run, fun lifecycle => ?_⟩
  obtain ⟨thread, member, acknowledged⟩ := List.any_eq_true.mp acknowledged
  obtain ⟨request, reply, rfl, told⟩ := acknowledges_sound acknowledged
  cases certified.symm.trans (lifecycle.rejected request id reply member told)

end OneRecord
end Nps.Nip.Ca
