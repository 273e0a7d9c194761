import NpsSdk.Nop.Completion

/-! Calls that carry the same task: the record of a task is looked up and saved in two steps, so
a second call is kept out only if none comes in between. -/
namespace Nps.Nop
open Interaction Prog

/-- A call of an orchestrator. Orchestrators may share their store. -/
structure Call where
  opts : NopOrchestratorOptions
  task : TaskFrame

/-- No record of a task is ever dropped. -/
theorem exec_keeps {op : Op} {s t : InMemoryNopTaskStore} {answer : Answer op}
    (exec : exec op s answer t) {taskId : String} (known : (s.lookup taskId).isSome) :
    (t.lookup taskId).isSome := by
  have modified : ∀ (key : String) (f : NopTaskRecord → NopTaskRecord),
      ((s.modify key f).lookup taskId).isSome := by
    intro key f
    rw [AList.lookup_modify]
    split_ifs with same
    · subst same
      rwa [Option.isSome_map]
    · exact known
  cases op with
  | get id =>
    obtain ⟨-, rfl⟩ := exec
    exact known
  | save record =>
    have saved : (answer, t) = s.save record := exec
    unfold InMemoryNopTaskStore.save at saved
    split_ifs at saved with there
    · cases saved
      exact known
    · cases saved
      rw [AList.lookup_insert_if]
      split_ifs
      · rfl
      · exact known
  | updateState id state =>
    cases exec
    exact modified _ _
  | updateSubtask id nodeId subtaskId state update =>
    cases exec
    exact modified _ _
  | iterate keys =>
    obtain ⟨-, rfl⟩ := exec
    exact known
  | _ =>
    cases exec
    exact known

/-- Some delegation of a run was made on behalf of this call. -/
def Delegates (thread : Nat) (events : List (Event Answer Call)) : Prop :=
  ∃ frame answer, .act thread (.delegate frame) answer ∈ events

section Calls
variable [CharClasses] [HmacSha256]

def orchestrators : System Answer InMemoryNopTaskStore Call (Option NopTaskResult) where
  program call := execute call.opts call.task
  exec := exec

abbrev Calls := Pool Answer InMemoryNopTaskStore Call (Option NopTaskResult)

/-- What is left of a call that has looked its task up and is about to save it. -/
def saving (call : Call) (topoOrder : List String) (startedAtMs : Nat) : Program (Option NopTaskResult) := do
  let record : NopTaskRecord :=
    { taskId := call.task.taskId, frame := call.task, state := .pending, startedAtMs }
  let _ ← ask (.save record)
  some <$> runLimited call.opts call.task topoOrder

/-- What is left of a call that has not found its task. -/
def recording (call : Call) (topoOrder : List String) : Program (Option NopTaskResult) := do
  let startedAtMs ← ask .nowMs
  saving call topoOrder startedAtMs

/-- The call has found no record of its task and has yet to save one. -/
def Claiming (call : Call) (p : Program (Option NopTaskResult)) : Prop :=
  ∃ topoOrder, p = recording call topoOrder ∨ ∃ startedAtMs, p = saving call topoOrder startedAtMs

def Op.Quiet : Op → Prop
  | .delegate _ => False
  | _ => True

/-- The call has found no record of its task, and may still delegate. -/
def Active (call : Call) (p : Program (Option NopTaskResult)) : Prop :=
  p ≠ execute call.opts call.task ∧ ¬ Only Op.Quiet p

theorem execute_cases (call : Call) :
    (∃ result, execute call.opts call.task = done result) ∨
      ∃ topoOrder, execute call.opts call.task = some <$> submit call.opts call.task topoOrder := by
  unfold execute
  split_ifs
  · exact .inl ⟨_, rfl⟩
  · split
    · exact .inl ⟨_, rfl⟩
    · split
      · exact .inl ⟨_, rfl⟩
      · exact .inl ⟨_, rfl⟩
      · exact .inr ⟨_, rfl⟩

theorem submit_eq (call : Call) (topoOrder : List String) :
    some <$> submit call.opts call.task topoOrder =
      Prog.call (.get call.task.taskId) fun
        | some _ => done (some (.failure call.task.taskId ErrorCodes.taskAlreadyCompleted
            s!"Task '{call.task.taskId}' already exists." none))
        | none => recording call topoOrder := by
  refine congrArg (Prog.call _) (funext fun found => ?_)
  cases found <;> rfl

theorem execute_call {call : Call} {op : Op} {next : Answer op → Program (Option NopTaskResult)}
    (fresh : execute call.opts call.task = .call op next) {s t : InMemoryNopTaskStore}
    {answer : Answer op} (exec : exec op s answer t) :
    t = s ∧ op = .get call.task.taskId ∧
      ((s.lookup call.task.taskId).isSome ∧ Only Op.Quiet (next answer) ∨
        s.lookup call.task.taskId = none ∧ ∃ topoOrder, next answer = recording call topoOrder) := by
  rcases execute_cases call with ⟨result, same⟩ | ⟨topoOrder, same⟩
  · cases same.symm.trans fresh
  · rw [same, submit_eq] at fresh
    cases fresh
    obtain ⟨found, rfl⟩ := exec
    cases known : t.lookup call.task.taskId with
    | some record =>
      rw [known] at found
      subst found
      exact ⟨rfl, rfl, .inl ⟨rfl, trivial⟩⟩
    | none =>
      rw [known] at found
      subst found
      exact ⟨rfl, rfl, .inr ⟨rfl, topoOrder, rfl⟩⟩

/-- A call that is about to save its task goes on to do so, and the task is known then. -/
theorem Claiming.step {call : Call} {op : Op} {next : Answer op → Program (Option NopTaskResult)}
    (claiming : Claiming call (.call op next)) {s t : InMemoryNopTaskStore} {answer : Answer op}
    (exec : exec op s answer t) :
    Claiming call (next answer) ∨ (t.lookup call.task.taskId).isSome := by
  obtain ⟨topoOrder, same | ⟨startedAtMs, same⟩⟩ := claiming
  · cases same
    exact .inl ⟨topoOrder, .inr ⟨answer, rfl⟩⟩
  · cases same
    right
    have saved : (answer, t) = s.save _ := exec
    unfold InMemoryNopTaskStore.save at saved
    split_ifs at saved with known
    · cases saved
      exact known
    · cases saved
      rw [AList.lookup_insert]
      rfl

theorem Claiming.not_delegate {call : Call} {frame : DelegateFrame}
    {next : Delegation → Program (Option NopTaskResult)} :
    ¬ Claiming call (.call (.delegate frame) next) := by
  rintro ⟨topoOrder, same | ⟨startedAtMs, same⟩⟩
  · cases same
  · cases same

theorem active_of_delegate {call : Call} {frame : DelegateFrame}
    {next : Delegation → Program (Option NopTaskResult)} : Active call (.call (.delegate frame) next) := by
  refine ⟨fun fresh => ?_, fun quiet => quiet.1⟩
  rcases execute_cases call with ⟨result, same⟩ | ⟨topoOrder, same⟩
  · cases fresh.trans same
  · cases (fresh.trans same).trans (submit_eq call topoOrder)

variable {pool after : Calls} {event : Event Answer Call} {events : List (Event Answer Call)}

/-- Where a task that is not recorded is looked up, no call is about to record it. -/
def Undisturbed (pool : Calls) : Event Answer Call → Prop
  | .act _ (.get taskId) _ => pool.shared.lookup taskId = none →
      ∀ (i : Nat) call p, pool.threads[i]? = some (call, p) → call.task.taskId = taskId →
        ¬ Claiming call p
  | _ => True

/-- At most one call for a task may delegate, and then the task is recorded or about to be. -/
structure Exclusive (pool : Calls) : Prop where
  alone : ∀ (i j : Nat) one other p q, pool.threads[i]? = some (one, p) →
    pool.threads[j]? = some (other, q) → one.task.taskId = other.task.taskId →
    Active one p → Active other q → i = j
  recorded : ∀ (i : Nat) call p, pool.threads[i]? = some (call, p) → Active call p →
    Claiming call p ∨ (pool.shared.lookup call.task.taskId).isSome

/-- The task is recorded, and this call alone may delegate for it. -/
structure Owned (taskId : String) (owner : Nat) (pool : Calls) : Prop where
  known : (pool.shared.lookup taskId).isSome
  others : ∀ (i : Nat) call p, pool.threads[i]? = some (call, p) → call.task.taskId = taskId →
    Active call p → i = owner

theorem step_keeps (step : orchestrators.Step pool event after) {taskId : String}
    (known : (pool.shared.lookup taskId).isSome) : (after.shared.lookup taskId).isSome := by
  cases step with
  | start call => exact known
  | act found exec => exact exec_keeps exec known

theorem step_active (step : orchestrators.Step pool event after) {i : Nat} {call : Call}
    {p : Program (Option NopTaskResult)} (found : after.threads[i]? = some (call, p))
    (active : Active call p) :
    (∃ q, pool.threads[i]? = some (call, q) ∧ Active call q ∧
      (Claiming call q → Claiming call p ∨ (after.shared.lookup call.task.taskId).isSome)) ∨
    (∃ answer, event = .act i (.get call.task.taskId) answer) ∧
      pool.shared.lookup call.task.taskId = none ∧ Claiming call p := by
  rcases step.threadAt found with old | ⟨op, next, answer, rfl, acted, exec, rfl⟩ | ⟨-, rfl⟩
  · exact .inl ⟨p, old, active, .inl⟩
  · by_cases fresh : .call op next = execute call.opts call.task
    · obtain ⟨-, rfl, ⟨-, quiet⟩ | ⟨missing, topoOrder, same⟩⟩ := execute_call fresh.symm exec
      · exact absurd quiet active.2
      · exact .inr ⟨⟨answer, rfl⟩, missing, topoOrder, .inl same⟩
    · refine .inl ⟨_, acted, ⟨fresh, fun quiet => active.2 (quiet.2 answer)⟩, ?_⟩
      exact fun claiming => claiming.step exec
  · exact absurd rfl active.1

theorem Exclusive.step (exclusive : Exclusive pool)
    (step : Transition.Guarded Undisturbed orchestrators.Step pool event after) :
    Exclusive after := by
  obtain ⟨undisturbed, step⟩ := step
  -- a call that finds its task missing finds no other one at work on it
  have free : ∀ {i j : Nat} {one other : Call} {q : Program (Option NopTaskResult)},
      (∃ answer, event = .act i (.get one.task.taskId) answer) →
      pool.shared.lookup one.task.taskId = none → pool.threads[j]? = some (other, q) →
      one.task.taskId = other.task.taskId → ¬ Active other q := by
    rintro i j one other q ⟨answer, rfl⟩ missing found same active
    rcases exclusive.recorded j other q found active with claiming | known
    · exact undisturbed missing j other q found same.symm claiming
    · rw [← same, missing] at known
      cases known
  constructor
  · intro i j one other p q first second same active active'
    rcases step_active step first active with ⟨p', before, was, -⟩ | ⟨looks, missing, -⟩
    · rcases step_active step second active' with ⟨q', before', was', -⟩ | ⟨looks', missing', -⟩
      · exact exclusive.alone i j one other p' q' before before' same was was'
      · exact absurd was (free looks' missing' before same.symm)
    · rcases step_active step second active' with ⟨q', before', was', -⟩ | ⟨looks', missing', -⟩
      · exact absurd was' (free looks missing before' same)
      · obtain ⟨answer, rfl⟩ := looks
        obtain ⟨answer', same'⟩ := looks'
        injection same'
  · intro i call p found active
    rcases step_active step found active with ⟨q, before, was, goes⟩ | ⟨-, -, claiming⟩
    · rcases exclusive.recorded i call q before was with claiming | known
      · exact goes claiming
      · exact .inr (step_keeps step known)
    · exact .inl claiming

theorem Owned.step {taskId : String} {owner : Nat} (owned : Owned taskId owner pool)
    (step : orchestrators.Step pool event after) : Owned taskId owner after := by
  refine ⟨step_keeps step owned.known, fun i call p found same active => ?_⟩
  rcases step_active step found active with ⟨q, before, was, -⟩ | ⟨-, missing, -⟩
  · exact owned.others i call q before same was
  · have known := owned.known
    rw [← same, missing] at known
    cases known

theorem Exclusive.owned (exclusive : Exclusive pool) {i : Nat} {call : Call} {frame : DelegateFrame}
    {answer : Delegation} (found : ∃ p, pool.threads[i]? = some (call, p))
    (step : orchestrators.Step pool (.act i (.delegate frame) answer) after) :
    Owned call.task.taskId i pool := by
  obtain ⟨p, found⟩ := found
  cases step with
  | act acted exec =>
    cases found.symm.trans acted
    refine ⟨?_, fun j other q there same active => ?_⟩
    · rcases exclusive.recorded i call _ found active_of_delegate with claiming | known
      · exact absurd claiming Claiming.not_delegate
      · exact known
    · exact exclusive.alone j i other call q _ there found same active active_of_delegate

theorem Owned.run {taskId : String} {owner i : Nat} {call : Call} {p : Program (Option NopTaskResult)}
    (owned : Owned taskId owner pool) (run : Transition.Run orchestrators.Step pool events after)
    (caller : after.threads[i]? = some (call, p)) (same : call.task.taskId = taskId)
    (delegates : Delegates i events) : i = owner := by
  obtain ⟨frame, answer, member⟩ := delegates
  induction run with
  | refl => cases member
  | next head tail ih =>
    rcases List.mem_cons.mp member with rfl | later
    · obtain ⟨q, found⟩ := head.acting tail caller
      cases head with
      | act acted exec =>
        cases found.symm.trans acted
        exact owned.others i call _ found same active_of_delegate
    · exact ih (owned.step head) caller later

theorem Exclusive.once (exclusive : Exclusive pool)
    (run : Transition.Run (Transition.Guarded Undisturbed orchestrators.Step) pool events after)
    {i j : Nat} {one other : Call} {p q : Program (Option NopTaskResult)}
    (first : after.threads[i]? = some (one, p)) (second : after.threads[j]? = some (other, q))
    (same : one.task.taskId = other.task.taskId)
    (delegates : Delegates i events) (delegates' : Delegates j events) : i = j := by
  obtain ⟨frame, answer, member⟩ := delegates
  obtain ⟨frame', answer', member'⟩ := delegates'
  induction run with
  | refl => cases member
  | next head tail ih =>
    have rest := tail.mono fun step => step.2
    rcases List.mem_cons.mp member with now | later
    · rcases List.mem_cons.mp member' with now' | later'
      · injection now.trans now'.symm
      · subst now
        have owned := (exclusive.owned (head.2.acting rest first) head.2).step head.2
        exact (owned.run rest second same.symm ⟨frame', answer', later'⟩).symm
    · rcases List.mem_cons.mp member' with now' | later'
      · subst now'
        have owned := (exclusive.owned (head.2.acting rest second) head.2).step head.2
        exact owned.run rest first same ⟨frame, answer, later⟩
      · exact ih (exclusive.step head) first second later later'

/-- Two calls for one task do not both delegate, as long as none looks the task up while another
one is about to record it. -/
theorem delegated_once {tasks : InMemoryNopTaskStore}
    (run : Transition.Run (Transition.Guarded Undisturbed orchestrators.Step) ⟨tasks, []⟩ events pool)
    {i j : Nat} {one other : Call} {p q : Program (Option NopTaskResult)}
    (first : pool.threads[i]? = some (one, p)) (second : pool.threads[j]? = some (other, q))
    (same : one.task.taskId = other.task.taskId)
    (delegates : Delegates i events) (delegates' : Delegates j events) : i = j := by
  have idle : Exclusive ⟨tasks, []⟩ := by
    constructor
    · intro i j one other p q found
      cases found
    · intro i call p found
      cases found
  exact idle.once run first second same delegates delegates'

end Calls

namespace Twice
open scoped Chain

scoped instance hmac : HmacSha256 := ⟨fun _ _ => []⟩

def call : Call := ⟨Chain.opts, Chain.single⟩

/-- Workers complete every node, clocks stand still, and tasks are kept. -/
def handler (op : Op) (tasks : InMemoryNopTaskStore) : Answer op × InMemoryNopTaskStore :=
  match op with
  | .get taskId => (tasks.lookup taskId, tasks)
  | .save record => tasks.save record
  | .updateState taskId state => ((), tasks.updateState taskId state)
  | .updateSubtask taskId nodeId subtaskId state update =>
    ((), tasks.updateSubtask taskId nodeId subtaskId state update)
  | .iterate keys => (keys, tasks)
  | op => ((Chain.answering none op ()).1, tasks)

theorem handler_faithful (op : Op) (tasks : InMemoryNopTaskStore) :
    exec op tasks (handler op tasks).1 (handler op tasks).2 := by
  cases op with
  | get taskId => exact ⟨rfl, rfl⟩
  | iterate keys => exact ⟨.refl _, rfl⟩
  | _ => rfl

/-- Whether a call has not looked its task up yet, or has ended. -/
def outside : Program (Option NopTaskResult) → Bool
  | .call (.get _) _ => true
  | .done _ => true
  | _ => false

theorem not_claiming {call : Call} {p : Program (Option NopTaskResult)} (out : outside p = true) :
    ¬ Claiming call p := by
  rintro ⟨topoOrder, rfl | ⟨startedAtMs, rfl⟩⟩
  · cases out
  · cases out

/-- Whether the task that is looked up is recorded, or no call can be about to record it. -/
def meets (pool : Calls) : Event Answer Call → Bool
  | .act _ (.get taskId) _ =>
    (pool.shared.lookup taskId).isSome || pool.threads.all fun thread => outside thread.2
  | _ => true

theorem meets_sound (pool : Calls) (event : Event Answer Call) (met : meets pool event = true) :
    Undisturbed pool event := by
  cases event with
  | start call => trivial
  | act i op answer =>
    cases op with
    | get taskId =>
      intro missing j call p found _
      have unclaimed : (pool.shared.lookup taskId).isSome = true ∨
          (pool.threads.all fun thread => outside thread.2) = true := (Bool.or_eq_true _ _).mp met
      rcases unclaimed with known | out
      · rw [missing] at known
        cases known
      · exact not_claiming (List.all_eq_true.mp out _ (List.mem_of_getElem? found))
    | _ => trivial

/-- The second call comes when the first one is done. -/
def inTurn : List (Move Call) := [.start call, .run 0 18, .start call, .run 1 18]

/-- Both calls look the task up before either saves it. -/
def together : List (Move Call) :=
  [.start call, .start call, .run 0 1, .run 1 1, .run 0 18, .run 1 18]

/-- The second call is told that the task exists. -/
theorem one_after_the_other : ∃ events after p q,
    Transition.Run (Transition.Guarded Undisturbed orchestrators.Step) ⟨∅, []⟩ events after ∧
    after.threads[0]? = some (call, p) ∧ after.threads[1]? = some (call, q) ∧
    Delegates 0 events ∧ ¬ Delegates 1 events := by
  have run : Transition.Run (Transition.Guarded Undisturbed orchestrators.Step) ⟨∅, []⟩
      (orchestrators.play handler inTurn ⟨∅, []⟩).1 (orchestrators.play handler inTurn ⟨∅, []⟩).2 :=
    System.run_play_guarded handler_faithful meets_sound inTurn ⟨∅, []⟩ rfl
  have delegates : Delegates 0 (orchestrators.play handler inTurn ⟨∅, []⟩).1 :=
    ⟨_, _, List.mem_of_getElem? (i := 14) rfl⟩
  refine ⟨_, _, _, _, run, rfl, rfl, delegates, fun twice => ?_⟩
  have same : 0 = 1 := delegated_once run rfl rfl rfl delegates twice
  cases same

/-- The store refuses the second record, and both calls go on. -/
theorem delegated_twice : ∃ events after p q,
    Transition.Run orchestrators.Step ⟨∅, []⟩ events after ∧
    after.threads[0]? = some (call, p) ∧ after.threads[1]? = some (call, q) ∧
    Delegates 0 events ∧ Delegates 1 events := by
  have run : Transition.Run orchestrators.Step ⟨∅, []⟩
      (orchestrators.play handler together ⟨∅, []⟩).1 (orchestrators.play handler together ⟨∅, []⟩).2 :=
    System.run_play handler_faithful together ⟨∅, []⟩
  exact ⟨_, _, _, _, run, rfl, rfl, ⟨_, _, List.mem_of_getElem? (i := 16) rfl⟩,
    ⟨_, _, List.mem_of_getElem? (i := 33) rfl⟩⟩

end Twice
end Nps.Nop
