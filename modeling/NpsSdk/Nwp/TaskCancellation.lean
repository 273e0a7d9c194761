import NpsSdk.Nwp.IdempotentInvoke

/-! A task whose cancellation was acknowledged. The handler looks at the task, cancels it in the
store and answers without a look at what the store said, so its answer is right only if the
worker has not finished in between. -/
namespace Nps.Nwp.ActionServer
open Interaction Prog
open InMemoryActionTaskStore (get_edit get_create)

/-- Of the transitions of a task, a node performs only its start, and never reports progress. -/
def Op.Plain : Op → Prop
  | .tryTransition _ _ expected new => expected = "pending" ∧ new = "running"
  | .task _ (.tryTransition _ _ _) => False
  | .task _ (.updateProgress _ _) => False
  | _ => True

theorem Op.Calm.plain (op : Op) (calm : op.Calm) : op.Plain := by
  cases op with
  | tryTransition now taskId expected new => exact False.elim calm
  | task now op => cases op <;> trivial
  | _ => trivial

theorem Op.Quiet.plain (op : Op) (quiet : op.Quiet) : op.Plain := by
  cases op <;> trivial

section Programs
variable {opt : ActionNodeOptions} {frame : ParsedActionFrame} {context : ActionContext}

theorem remember_plain (result : Option Json.Value) (frames : Option (List ActionStreamFrame))
    (anchorRef taskId : Option String) :
    Only Op.Plain (remember opt frame context result frames anchorRef taskId) := by
  unfold remember
  split
  · trivial
  · exact ⟨trivial, fun now => ⟨trivial, fun stored => ⟨trivial, fun answer => trivial⟩⟩⟩

theorem performSync_plain : Only Op.Plain (performSync opt frame context) := by
  refine Only.ask trivial fun _ => Only.ask trivial fun received => ?_
  split
  · unfold deliver
    dsimp only
    split
    · refine ((writeStream_quiet _ _ _).mono Op.Quiet.plain).bind fun out => ?_
      split
      · exact (remember_plain _ _ _ _).bind fun _ => trivial
      · trivial
    · exact (remember_plain _ _ _ _).bind fun _ => trivial
  · trivial
  · exact ⟨trivial, fun _ => trivial⟩
  · exact ⟨trivial, fun _ => trivial⟩

theorem performAsync_plain : Only Op.Plain (performAsync opt frame context) := by
  refine Only.ask trivial fun taskId => Only.ask trivial fun now => Only.ask trivial fun _ => ?_
  refine (remember_plain _ _ _ _).bind fun _ => Only.ask trivial fun _ => ?_
  exact Only.ask trivial fun _ => trivial

theorem consult_plain : Only Op.Plain (consult opt frame context) := by
  have performs : Only Op.Plain (perform opt frame context) := by
    unfold perform
    split
    · exact performAsync_plain
    · exact performSync_plain
  unfold consult
  split
  · exact performs
  · refine Only.ask trivial fun now => Only.ask trivial fun cached => ?_
    split
    · exact (replay_quiet _).mono Op.Quiet.plain
    · exact performs

theorem runAsyncTask_plain (task : AsyncTask) : Only Op.Plain (runAsyncTask task) := by
  refine Only.ask trivial fun now => Only.ask ⟨rfl, rfl⟩ fun running => ?_
  split
  · refine Only.ask trivial fun _ => ((awaitTask_calm _ _).mono Op.Calm.plain).bind fun _ => ?_
    exact ⟨trivial, fun _ => trivial⟩
  · exact ⟨trivial, fun _ => trivial⟩

theorem program_plain [Formats] (call : Call) : Only Op.Plain ((node opt).program call) := by
  cases call with
  | task work => exact (runAsyncTask_plain work).bind fun _ => trivial
  | request req =>
    refine only_some ?_
    unfold handleInvoke
    split
    · trivial
    · split_ifs
      · exact (handleTaskStatus_quiet _).mono Op.Quiet.plain
      · exact (handleTaskCancel_calm _).mono Op.Calm.plain
      · unfold invoke
        split
        · trivial
        · refine Only.ask trivial fun token => Only.ask trivial fun authorized => ?_
          split
          · trivial
          · exact consult_plain

end Programs

/-- A task that is neither completed nor failed has no outcome. -/
def Clean (store : InMemoryActionTaskStore) : Prop :=
  ∀ taskId record, store.get taskId = some record →
    record.status = "completed" ∨ record.status = "failed" ∨
      (record.result = none ∧ record.error = none)

def Cancelled (taskId : String) (store : InMemoryActionTaskStore) : Prop :=
  ∃ record, store.get taskId = some record ∧ record.status = "cancelled"

def Present (taskId : String) (store : InMemoryActionTaskStore) : Prop :=
  ∃ record, store.get taskId = some record

/-- The worker has not finished a task that is cancelled in the store, and no new task takes the
identifier of a cancelled one. -/
def Op.Timely (store : InMemoryActionTaskStore) : Op → Prop
  | .task _ (.cancel taskId) => ∀ record, store.get taskId = some record →
    record.status ≠ "completed" ∧ record.status ≠ "failed"
  | .task _ (.create taskId _ _ _) => ∀ record, store.get taskId = some record →
    record.status ≠ "cancelled"
  | _ => True

section Operations
variable {op : Op} {s t : World} {answer : Answer op} {taskId : String}

/-- An edit takes no finished record, and gives an outcome only to one that it finishes. -/
def Finishes (change : ActionTaskRecord → Option ActionTaskRecord) : Prop :=
  ∀ record edited, change record = some edited → isTerminal record.status = false ∧
    (edited.status = "completed" ∨ edited.status = "failed" ∨
      (edited.result = record.result ∧ edited.error = record.error))

/-- How an operation changes the tasks: not at all, by a new one, or by an edit of one. -/
inductive Edits (store : InMemoryActionTaskStore) : Op → InMemoryActionTaskStore → Prop where
  | same {op : Op} : Edits store op store
  | create (now : OffsetDateTime) (taskId actionId : String) (requestId agentNid : Option String) :
    Edits store (.task now (.create taskId actionId requestId agentNid))
      (store.create now taskId actionId requestId agentNid).2
  | edit {op : Op} (now : OffsetDateTime) (taskId : String)
    {change : ActionTaskRecord → Option ActionTaskRecord} (finishes : Finishes change) :
    Edits store op (store.edit now taskId change).2

theorem finishes_guarded {change : ActionTaskRecord → ActionTaskRecord}
    (outcome : ∀ record, (change record).status = "completed" ∨ (change record).status = "failed" ∨
      ((change record).result = record.result ∧ (change record).error = record.error)) :
    Finishes fun record => if isTerminal record.status then none else some (change record) := by
  intro record edited accepted
  dsimp only at accepted
  split at accepted
  · cases accepted
  · rename_i unfinished
    cases accepted
    exact ⟨(Bool.not_eq_true _).mp unfinished, outcome record⟩

theorem finishes_start : Finishes fun record =>
    if record.status = "pending" then some { record with status := "running" } else none := by
  intro record edited accepted
  dsimp only at accepted
  split at accepted
  · rename_i pending
    cases accepted
    exact ⟨by rw [pending]; decide, .inr (.inr ⟨rfl, rfl⟩)⟩
  · cases accepted

/-- What a node does to its tasks. -/
theorem exec_edits (plain : op.Plain) (exec : exec op s answer t) :
    Edits s.taskStore op t.taskStore := by
  cases op with
  | task now op =>
    cases (show t = _ from exec)
    cases op with
    | create id actionId requestId agentNid => exact .create now id actionId requestId agentNid
    | get id => exact .same
    | tryTransition id expected new => exact False.elim plain
    | complete id result => exact .edit now id (finishes_guarded fun record => .inl rfl)
    | fail id error => exact .edit now id (finishes_guarded fun record => .inr (.inl rfl))
    | cancel id => exact .edit now id (finishes_guarded fun record => .inr (.inr ⟨rfl, rfl⟩))
    | updateProgress id progress => exact False.elim plain
  | tryTransition now id expected new =>
    obtain ⟨rfl, rfl⟩ := plain
    obtain ⟨-, rfl⟩ := exec
    exact .edit now id finishes_start
  | cacheGet scope key now => exact exec.2 ▸ .same
  | tryStore scope key entry now => exact exec.2 ▸ .same
  | taskGet id => exact exec.2 ▸ .same
  | newCancellation => exact exec.2 ▸ .same
  | isCancelled token => exact exec.2 ▸ .same
  | getCancellation id => exact exec.2 ▸ .same
  | genHex bytes => exact exec.2 ▸ .same
  | _ => exact (show t = _ from exec) ▸ .same

variable {store later : InMemoryActionTaskStore}

/-- A record after an edit was there before, or is the new form of one that was, stamped. -/
theorem edit_cases {now : OffsetDateTime} {change : ActionTaskRecord → Option ActionTaskRecord}
    {record : ActionTaskRecord} {other : String}
    (found : (store.edit now taskId change).2.get other = some record) :
    store.get other = some record ∨
      ∃ old new, store.get other = some old ∧ change old = some new ∧
        record = { new with updatedAt := now } := by
  rw [get_edit] at found
  split at found
  · rename_i here
    subst here
    rcases Option.or_eq_some_iff.mp found with edited | ⟨-, kept⟩
    · obtain ⟨new, changed, rfl⟩ := Option.map_eq_some_iff.mp edited
      obtain ⟨old, there, accepted⟩ := Option.bind_eq_some_iff.mp changed
      exact .inr ⟨old, new, there, accepted, rfl⟩
    · exact .inl kept
  · exact .inl found

theorem Edits.clean (edits : Edits store op later) (clean : Clean store) : Clean later := by
  intro id record found
  cases edits with
  | same => exact clean id record found
  | create now taskId actionId requestId agentNid =>
    rw [get_create] at found
    split at found
    · cases found
      exact .inr (.inr ⟨rfl, rfl⟩)
    · exact clean id record found
  | edit now taskId finishes =>
    rcases edit_cases found with kept | ⟨old, new, there, accepted, rfl⟩
    · exact clean id record kept
    · obtain ⟨unfinished, completed | failed | ⟨result, error⟩⟩ := finishes old new accepted
      · exact .inl completed
      · exact .inr (.inl failed)
      · rcases clean id old there with done | done | ⟨none₁, none₂⟩
        · rw [done] at unfinished
          exact absurd unfinished (by decide)
        · rw [done] at unfinished
          exact absurd unfinished (by decide)
        · exact .inr (.inr ⟨result.trans none₁, error.trans none₂⟩)

theorem Edits.present (edits : Edits store op later) (present : Present taskId store) :
    Present taskId later := by
  obtain ⟨record, found⟩ := present
  cases edits with
  | same => exact ⟨record, found⟩
  | create now id actionId requestId agentNid =>
    unfold Present
    rw [get_create]
    split
    · exact ⟨_, rfl⟩
    · exact ⟨record, found⟩
  | @edit _ now id change finishes =>
    unfold Present
    rw [get_edit]
    split
    · rename_i here
      subst here
      rw [found, Option.bind_some]
      cases change record with
      | none => exact ⟨_, rfl⟩
      | some new => exact ⟨_, rfl⟩
    · exact ⟨record, found⟩

theorem Edits.cancelled (edits : Edits store op later) (timely : op.Timely store)
    (cancelled : Cancelled taskId store) : Cancelled taskId later := by
  obtain ⟨record, found, status⟩ := cancelled
  cases edits with
  | same => exact ⟨record, found, status⟩
  | create now id actionId requestId agentNid =>
    unfold Cancelled
    rw [get_create]
    split
    · rename_i here
      subst here
      exact absurd status (timely record found)
    · exact ⟨record, found, status⟩
  | @edit _ now id change finishes =>
    have terminal : isTerminal record.status = true := by
      rw [status]
      decide
    have refused : change record = none := by
      cases accepted : change record with
      | none => rfl
      | some new =>
        rw [(finishes record new accepted).1] at terminal
        cases terminal
    refine ⟨record, ?_, status⟩
    rw [get_edit, found]
    split
    · rename_i here
      subst here
      rw [found, Option.bind_some, refused]
      rfl
    · rfl

/-- A task that is there, and that its worker has not finished, is cancelled by the store. -/
theorem cancel_cancels {now : OffsetDateTime} (present : Present taskId store)
    (timely : Op.Timely store (.task now (.cancel taskId))) :
    Cancelled taskId (store.cancel now taskId).2 := by
  obtain ⟨record, found⟩ := present
  obtain ⟨open₁, open₂⟩ := timely record found
  unfold Cancelled InMemoryActionTaskStore.cancel
  rw [get_edit, if_pos rfl, found, Option.bind_some]
  split
  · rename_i terminal
    simp only [isTerminal, Bool.or_eq_true, decide_eq_true_eq] at terminal
    rcases terminal with (done | done) | cancelled
    · exact absurd done open₁
    · exact absurd done open₂
    · exact ⟨record, rfl, cancelled⟩
  · exact ⟨_, rfl, rfl⟩

end Operations

def cancelledResponse (frame : ParsedActionFrame) (taskId : String) : ActionResponse :=
  writeCaps (some (Json.document [("task_id", .string taskId), ("status", .string "cancelled")]))
    none frame.requestId 0

structure Asks (req : InvokeRequest) (frame : ParsedActionFrame) (taskId : String) : Prop where
  parsed : req.frame = .ok frame
  action : frame.actionId = "system.task.cancel"
  task : readStringParam frame.params "task_id" = some taskId

def Tells (taskId : String) : Op → Prop
  | .task _ (.cancel id) => id = taskId
  | _ => False

def Finds (taskId : String) : (op : Op) → Answer op → Program (Option ActionResponse) → Prop
  | .taskGet id, record, _ => id = taskId ∧ record.isSome = true
  | _, _, _ => False

/-- Before the task is acknowledged as cancelled, the store is told so, and before that it was
looked up. -/
structure Pledged (frame : ParsedActionFrame) (taskId : String) (store : InMemoryActionTaskStore)
    (p : Program (Option ActionResponse)) : Prop where
  owes : Owes (fun op _ _ => Tells taskId op)
    (fun a => a = some (cancelledResponse frame taskId) → Cancelled taskId store) p
  looks : Present taskId store ∨ Until (fun op => ¬ Tells taskId op) (Finds taskId) p

section Pledges
variable {frame : ParsedActionFrame} {taskId : String} {req : InvokeRequest}
variable {store later : InMemoryActionTaskStore} {p : Program (Option ActionResponse)}

/-- The task of the frame is looked up, or the caller is refused. -/
theorem ownTask_returns {agentNid : Option String} (task : readStringParam frame.params "task_id" = some taskId)
    {result : Except ActionResponse (String × ActionTaskRecord)}
    (returns : Returns (ownTask frame agentNid) result) :
    (∃ response, result = .error response ∧ response.status ≠ 200) ∨
      ∃ record, result = .ok (taskId, record) := by
  unfold ownTask at returns
  rw [task] at returns
  split at returns
  · rw [returns_done.mp returns]
    exact .inl ⟨_, rfl, by decide⟩
  · rename_i id named
    have same : taskId = id := (Option.filter_eq_some_iff.mp named).1 |> Option.some.inj
    subst same
    obtain ⟨found, returns⟩ := returns_call.mp returns
    cases found with
    | none =>
      rw [returns_done.mp returns]
      exact .inl ⟨_, rfl, show 404 ≠ 200 by decide⟩
    | some record =>
      change Returns (if _ then _ else _) result at returns
      split at returns
      · rw [returns_done.mp returns]
        exact .inl ⟨_, rfl, by decide⟩
      · exact .inr ⟨record, returns_done.mp returns⟩

/-- The handler keeps the pledge. -/
theorem Pledged.fresh [Formats] (opt : ActionNodeOptions) (asks : Asks req frame taskId) :
    Pledged frame taskId store (some <$> handleInvoke opt req) := by
  have handled : handleInvoke opt req = handleTaskCancel frame req.agentNid := by
    unfold handleInvoke
    rw [asks.parsed]
    dsimp only
    rw [asks.action, if_neg (by decide), if_pos rfl]
  have refused {response : ActionResponse} (status : response.status ≠ 200) :
      some response ≠ some (cancelledResponse frame taskId) := by
    intro same
    exact status (congrArg ActionResponse.status (Option.some.inj same))
  rw [handled]
  constructor
  · refine Owes.then_done (f := some) (Owes.after fun result returns => ?_)
    rcases ownTask_returns asks.task returns with ⟨response, rfl, status⟩ | ⟨record, rfl⟩
    · exact fun same => absurd same (refused status)
    · dsimp only
      split
      · exact fun same => absurd same (refused (show 409 ≠ 200 by decide))
      · exact fun now => fun _ => .of_free (fun a => .inr rfl) _
  · refine .inr ?_
    unfold handleTaskCancel ownTask
    rw [asks.task]
    split
    · trivial
    · rename_i id named
      have same : taskId = id := (Option.filter_eq_some_iff.mp named).1 |> Option.some.inj
      subst same
      rintro (_ | record)
      · exact .inl ⟨not_false, trivial⟩
      · exact .inr ⟨rfl, rfl⟩

theorem Pledged.waits {op : Op} (pledged : Pledged frame taskId store p)
    (edits : Edits store op later) (timely : op.Timely store) : Pledged frame taskId later p := by
  constructor
  · exact pledged.owes.mono fun a paid same => edits.cancelled timely (paid same)
  · exact pledged.looks.imp_left edits.present

/-- The handler keeps its pledge while it acts. -/
theorem Pledged.acts {s t : World} {op : Op} {next : Answer op → Program (Option ActionResponse)}
    {answer : Answer op} (pledged : Pledged frame taskId s.taskStore (.call op next))
    (plain : op.Plain) (timely : op.Timely s.taskStore) (exec : exec op s answer t) :
    Pledged frame taskId t.taskStore (next answer) := by
  have edits := exec_edits plain exec
  constructor
  · refine (pledged.owes answer).mono ?_
    rintro a (paid | tells) same
    · exact edits.cancelled timely (paid same)
    · -- The store is told to cancel the task, which was looked up before.
      cases op with
      | task now op =>
        cases op with
        | cancel id =>
          cases tells
          cases (show t = _ from exec)
          refine cancel_cancels ?_ timely
          rcases pledged.looks with present | looks
          · exact present
          · rcases looks answer with ⟨untold, -⟩ | found
            · exact absurd rfl untold
            · exact False.elim found
        | _ => exact False.elim tells
      | _ => exact False.elim tells
  · rcases pledged.looks with present | looks
    · exact .inl (edits.present present)
    · rcases looks answer with ⟨-, later⟩ | found
      · exact .inr later
      · cases op with
        | taskGet id =>
          obtain ⟨rfl, some_⟩ := found
          obtain ⟨rfl, rfl⟩ := exec
          exact .inl (Option.isSome_iff_exists.mp some_)
        | _ => exact False.elim found

end Pledges

/-- Operations are performed in time. -/
def InTime (pool : Requests) : Event Answer Call → Prop
  | .act _ op _ => op.Timely pool.shared.taskStore
  | .start _ => True

section Runs
variable [Formats] {opt : ActionNodeOptions}

/-- Handlers of cancellations keep their pledges, whatever the others do. -/
structure Honest (pool : Requests) : Prop where
  plain : ∀ (i : Nat) call p, pool.threads[i]? = some (call, p) → Only Op.Plain p
  clean : Clean pool.shared.taskStore
  pledged : ∀ (i : Nat) req p frame taskId, pool.threads[i]? = some (.request req, p) →
    Asks req frame taskId → Pledged frame taskId pool.shared.taskStore p

theorem Honest.step {pool after : Requests} {event : Event Answer Call} (honest : Honest pool)
    (step : Transition.Guarded InTime (NodeStep opt) pool event after) : Honest after := by
  obtain ⟨timely, -, step⟩ := step
  have plain : ∀ (i : Nat) call p, after.threads[i]? = some (call, p) → Only Op.Plain p := by
    intro i call p found
    rcases step.threadAt found with old | ⟨op, next, answer, -, acted, -, rfl⟩ | ⟨-, rfl⟩
    · exact honest.plain i call p old
    · exact (honest.plain i call _ acted).2 answer
    · exact program_plain call
  refine ⟨plain, ?_, ?_⟩
  · cases step with
    | start call => exact honest.clean
    | act acted exec => exact (exec_edits (honest.plain _ _ _ acted).1 exec).clean honest.clean
  · intro i req p frame taskId found asks
    rcases step.threadAt found with old | ⟨op, next, answer, rfl, acted, exec, rfl⟩ | ⟨-, rfl⟩
    · have pledged := honest.pledged i req p frame taskId old asks
      cases step with
      | start call => exact pledged
      | act acted exec => exact pledged.waits (exec_edits (honest.plain _ _ _ acted).1 exec) timely
    · have pledged := honest.pledged i req _ frame taskId acted asks
      exact pledged.acts (honest.plain i _ _ acted).1 timely exec
    · exact .fresh opt asks

/-- A cancellation that was acknowledged holds from then on: the task is cancelled, and what its
worker came to is not recorded. -/
theorem cancellation_holds {world : World} (clean : Clean world.taskStore)
    {events : History} {pool : Requests}
    (run : Transition.Run (Transition.Guarded InTime (NodeStep opt)) ⟨world, []⟩ events pool)
    {i : Nat} {req : InvokeRequest} {frame : ParsedActionFrame} {taskId : String}
    (asks : Asks req frame taskId)
    (told : pool.threads[i]? = some (.request req, done (some (cancelledResponse frame taskId)))) :
    ∃ record, pool.shared.taskStore.get taskId = some record ∧ record.status = "cancelled" ∧
      record.result = none ∧ record.error = none := by
  have start : Honest ⟨world, []⟩ := by
    refine ⟨?_, clean, ?_⟩
    · intro i call p found
      cases found
    · intro i req p frame taskId found
      cases found
  have honest := run.invariant (fun honest step => honest.step step) start
  obtain ⟨record, found, status⟩ := (honest.pledged i req _ frame taskId told asks).owes rfl
  refine ⟨record, found, status, ?_⟩
  rcases honest.clean taskId record found with done | done | outcome
  · rw [status] at done
    exact absurd done (by decide)
  · rw [status] at done
    exact absurd done (by decide)
  · exact outcome

end Runs

namespace Withdrawn
open Twice (handler handler_faithful outside fromOutside)

scoped instance formats : Formats := ⟨fun _ => "", fun _ => .null⟩

def opt : ActionNodeOptions where
  actions := AList.singleton "work" { async_ := true }
  pathPrefix := "/node"

def request (body : Json.Fields) : InvokeRequest where
  headers := ∅
  body := .ok (.object body)
  wireInputBytes := 0

def taskId : String := hexOf 16 0 1

def working : InvokeRequest := request [("action_id", .string "work"), ("async", .bool true)]

def cancelling : InvokeRequest := request [("action_id", .string "system.task.cancel"),
  ("params", .object [("task_id", .string taskId)])]

def cancelFrame : ParsedActionFrame where
  actionId := "system.task.cancel"
  params := some (.object [("task_id", .string taskId)])

theorem asks : Asks cancelling cancelFrame taskId := ⟨rfl, rfl, rfl⟩

/-- The task is cancelled after its worker has received a result and before it records it. -/
def intime : List (Move Call) :=
  [.start (.request working), .run 0 20, .run 1 8, .start (.request cancelling), .run 2 20, .run 1 20]

/-- The worker records its result between the look of the handler and its cancellation. -/
def late : List (Move Call) :=
  [.start (.request working), .run 0 20, .run 1 8, .start (.request cancelling), .run 2 1, .run 1 20,
    .run 2 20]

def timely (pool : Requests) : Event Answer Call → Bool
  | .act _ (.task _ (.cancel id)) _ =>
    (pool.shared.taskStore.get id).all fun record =>
      record.status ≠ "completed" && record.status ≠ "failed"
  | .act _ (.task _ (.create id _ _ _)) _ =>
    (pool.shared.taskStore.get id).all fun record => record.status ≠ "cancelled"
  | event => outside event

theorem timely_sound (pool : Requests) (event : Event Answer Call)
    (met : timely pool event = true) : InTime pool event ∧ FromOutside pool event := by
  cases event with
  | start call => exact ⟨trivial, fromOutside met pool⟩
  | act i op answer =>
    refine ⟨?_, trivial⟩
    cases op with
    | task now op =>
      cases op with
      | cancel id =>
        intro record found
        change (pool.shared.taskStore.get id).all _ = true at met
        rw [found] at met
        simpa using met
      | create id actionId requestId agentNid =>
        intro record found
        change (pool.shared.taskStore.get id).all _ = true at met
        rw [found] at met
        simpa using met
      | _ => trivial
    | _ => trivial

def played (moves : List (Move Call)) : History × Requests :=
  (node opt).play handler moves ⟨{}, []⟩

/-- The task stays cancelled, and the worker's result is dropped. -/
theorem worker_stopped : ∃ events pool,
    Transition.Run (Transition.Guarded InTime (NodeStep opt)) ⟨{}, []⟩ events pool ∧
    pool.threads[2]? =
      some (.request cancelling, done (some (cancelledResponse cancelFrame taskId))) ∧
    ∃ record, pool.shared.taskStore.get taskId = some record ∧ record.status = "cancelled" ∧
      record.result = none ∧ record.error = none := by
  have run : Transition.Run (Transition.Guarded
      (fun pool event => InTime pool event ∧ FromOutside pool event) (node opt).Step)
      ⟨{}, []⟩ (played intime).1 (played intime).2 :=
    System.run_play_guarded handler_faithful timely_sound intime ⟨{}, []⟩ rfl
  have guarded : Transition.Run (Transition.Guarded InTime (NodeStep opt)) ⟨{}, []⟩
      (played intime).1 (played intime).2 :=
    run.mono fun step => ⟨step.1.1, step.1.2, step.2⟩
  have clean : Clean InMemoryActionTaskStore.new := by
    intro id record found
    cases found
  exact ⟨_, _, guarded, rfl, cancellation_holds (i := 2) clean guarded asks rfl⟩

/-- The caller is told that the task is cancelled, and it is completed. -/
theorem acknowledged_completed : ∃ events pool,
    Transition.Run (NodeStep opt) ⟨{}, []⟩ events pool ∧
    pool.threads[2]? =
      some (.request cancelling, done (some (cancelledResponse cancelFrame taskId))) ∧
    (pool.shared.taskStore.get taskId).map (·.status) = some "completed" := by
  have run : Transition.Run (node opt).Step ⟨{}, []⟩ (played late).1 (played late).2 := by
    unfold played
    exact System.run_play handler_faithful late _
  have out : (played late).1.all outside = true := rfl
  have guarded : Transition.Run (NodeStep opt) ⟨{}, []⟩ (played late).1 (played late).2 :=
    run.guarded fun event member => fromOutside (List.all_eq_true.mp out event member)
  exact ⟨_, _, guarded, rfl, rfl⟩

end Withdrawn
end Nps.Nwp.ActionServer
