import NpsSdk.Nop.TaskPhases

/-! The recorded state of a task under cancellations beside its run. The store applies every
transition, so an end that is recorded lasts only if nobody writes after it. -/
namespace Nps.Nop
open Interaction Prog

def InMemoryNopTaskStore.stateOf (tasks : InMemoryNopTaskStore) (taskId : String) : Option TaskState :=
  (tasks.lookup taskId).map (·.state)

def Op.Within (taskId : String) : Op → Prop
  | .updateState id _ => id = taskId
  | .save record => record.taskId = taskId
  | _ => True

theorem Op.Stateless.within {taskId : String} {op : Op} (stateless : op.Stateless) :
    op.Within taskId := by
  cases op with
  | updateState id state => exact False.elim stateless
  | save record => exact False.elim stateless
  | _ => trivial

theorem Op.Midway.within {taskId : String} {op : Op} (midway : op.Midway taskId) :
    op.Within taskId := by
  cases op with
  | updateState id state => exact midway.1
  | save record => exact False.elim midway
  | _ => trivial

theorem Op.Begins.within {taskId : String} {op : Op} (begins : op.Begins taskId) :
    op.Within taskId := by
  cases op with
  | save record => exact begins.1
  | _ => trivial

section States
variable {tasks s t : InMemoryNopTaskStore} {taskId other : String} {op : Op} {answer : Answer op}

theorem stateOf_updateState (state : TaskState) : (tasks.updateState taskId state).stateOf other =
    if other = taskId then (tasks.stateOf other).map fun _ => state else tasks.stateOf other := by
  unfold InMemoryNopTaskStore.stateOf InMemoryNopTaskStore.updateState
  rw [AList.lookup_modify]
  split
  · rename_i same
    subst same
    rw [Option.map_map, Option.map_map]
    rfl
  · rfl

theorem stateOf_save {record : NopTaskRecord} (missing : tasks.stateOf record.taskId = none) :
    (tasks.save record).2.stateOf other =
      if other = record.taskId then some record.state else tasks.stateOf other := by
  have absent : ¬ (tasks.lookup record.taskId).isSome := by
    rw [Option.map_eq_none_iff.mp missing]
    decide
  unfold InMemoryNopTaskStore.stateOf InMemoryNopTaskStore.save
  rw [if_neg absent, AList.lookup_insert_if]
  split
  · rfl
  · rfl

theorem stateOf_save_known {record : NopTaskRecord} {state : TaskState}
    (known : tasks.stateOf record.taskId = some state) : (tasks.save record).2 = tasks := by
  obtain ⟨old, found, -⟩ := Option.map_eq_some_iff.mp known
  unfold InMemoryNopTaskStore.save
  rw [if_pos (by rw [found]; rfl)]

theorem Op.Stateless.stateOf (stateless : op.Stateless) (exec : exec op s answer t) :
    t.stateOf taskId = s.stateOf taskId := by
  cases op with
  | get id => exact exec.2 ▸ rfl
  | save record => exact False.elim stateless
  | updateState id state => exact False.elim stateless
  | updateSubtask id nodeId subtaskId state update =>
    cases exec
    unfold InMemoryNopTaskStore.stateOf InMemoryNopTaskStore.updateSubtask
    rw [AList.lookup_modify]
    split
    · rename_i same
      subst same
      rw [Option.map_map]
      rfl
    · rfl
  | iterate keys => exact exec.2 ▸ rfl
  | _ => exact (show t = s from exec) ▸ rfl

theorem Op.Within.stateOf (within : op.Within taskId) (exec : exec op s answer t)
    (different : other ≠ taskId) : t.stateOf other = s.stateOf other := by
  cases op with
  | updateState id state =>
    cases within
    cases exec
    rw [stateOf_updateState, if_neg different]
  | save record =>
    cases within
    obtain rfl : t = (s.save record).2 := congrArg Prod.snd exec
    cases known : s.stateOf record.taskId with
    | none => rw [stateOf_save known, if_neg different]
    | some state => rw [stateOf_save_known known]
  | _ =>
    refine Op.Stateless.stateOf ?_ exec
    trivial

end States

def Over (state : Option TaskState) : Prop :=
  state = some .completed ∨ state = some .failed ∨ state = some .cancelled

/-- A task whose time is over is not recorded as completed. -/
def Untimed (state : Option TaskState) : (op : Op) → Answer op → Prop
  | .timeUp _, isOver => isOver = true → state ≠ some .completed
  | _, _ => True

/-- What a run has still to write fits the recorded state of its task, unless that is cancelled. -/
def Fits {α : Type} (taskId : String) (state : Option TaskState) (p : Program α) : Prop :=
  state = some .cancelled ∨ (∃ result, p = done result) ∨ (Working taskId p ∧ ¬ Over state) ∨
    Concluded taskId p ∨ (Failing taskId p ∧ state ≠ some .completed)

section Steps
variable {α : Type} {taskId : String} {op : Op} {next : Answer op → Program α}
  {s t : InMemoryNopTaskStore} {answer : Answer op}

theorem Op.Midway.open_ (midway : op.Midway taskId) (exec : exec op s answer t)
    (isOpen : ¬ Over (s.stateOf taskId)) : ¬ Over (t.stateOf taskId) := by
  cases op with
  | updateState id state =>
    obtain ⟨rfl, notCompleted, notFailed, notCancelled⟩ := midway
    cases exec
    rw [stateOf_updateState, if_pos rfl]
    cases s.stateOf id with
    | none => rintro (same | same | same) <;> cases same
    | some old =>
      rintro (same | same | same)
      · exact notCompleted (Option.some.inj same)
      · exact notFailed (Option.some.inj same)
      · exact notCancelled (Option.some.inj same)
  | save record => exact False.elim midway
  | _ =>
    have same : t.stateOf taskId = s.stateOf taskId := by
      refine Op.Stateless.stateOf ?_ exec
      trivial
    rwa [same]

theorem Op.Begins.open_ (begins : op.Begins taskId) (exec : exec op s answer t)
    (isOpen : ¬ Over (s.stateOf taskId)) : ¬ Over (t.stateOf taskId) := by
  cases op with
  | save record =>
    obtain ⟨rfl, pending⟩ := begins
    obtain rfl : t = (s.save record).2 := congrArg Prod.snd exec
    cases known : s.stateOf record.taskId with
    | none =>
      rw [stateOf_save known, if_pos rfl, pending]
      rintro (same | same | same) <;> cases same
    | some state =>
      rw [stateOf_save_known known]
      exact isOpen
  | _ => exact False.elim begins

/-- A run that acts goes on to fit the state of its task, and changes none that is an end. -/
theorem Fits.acts (fits : Fits taskId (s.stateOf taskId) (.call op next))
    (uncancelled : s.stateOf taskId ≠ some .cancelled) (exec : exec op s answer t)
    (untimed : Untimed (s.stateOf taskId) op answer) :
    op.Within taskId ∧ Fits taskId (t.stateOf taskId) (next answer) ∧
      (Over (s.stateOf taskId) → t.stateOf taskId = s.stateOf taskId) := by
  rcases fits with cancelled | ⟨result, same⟩ | ⟨working, isOpen⟩ | concluded | ⟨failing, uncompleted⟩
  · exact absurd cancelled uncancelled
  · cases same
  · rcases working with ⟨midway | begins, later⟩ | ⟨ends, later⟩
    · have stays := midway.open_ exec isOpen
      exact ⟨midway.within, .inr (.inr (.inl ⟨later answer, stays⟩)), fun ended => absurd ended isOpen⟩
    · have stays := begins.open_ exec isOpen
      exact ⟨begins.within, .inr (.inr (.inl ⟨later answer, stays⟩)), fun ended => absurd ended isOpen⟩
    · refine ⟨?_, .inr (.inr (.inr (.inl (later answer)))), fun ended => absurd ended isOpen⟩
      rcases ends with rfl | rfl
      · rfl
      · rfl
  · have same : t.stateOf taskId = s.stateOf taskId := concluded.1.stateOf exec
    rw [same]
    refine ⟨concluded.1.within, ?_, fun _ => rfl⟩
    rcases concluded.2 answer with later | ⟨expires, failing⟩
    · exact .inr (.inr (.inr (.inl later)))
    · refine .inr (.inr (.inr (.inr ⟨failing, ?_⟩)))
      cases op with
      | timeUp limitMs => exact untimed expires
      | _ => exact False.elim expires
  · obtain ⟨rfl, later⟩ := failing
    cases exec
    rw [stateOf_updateState, if_pos rfl]
    refine ⟨rfl, .inr (.inr (.inr (.inr ⟨later answer, ?_⟩))), ?_⟩
    · cases s.stateOf taskId <;> rintro ⟨⟩
    · rintro (completed | failed | cancelled)
      · exact absurd completed uncompleted
      · rw [failed]
        rfl
      · exact absurd cancelled uncancelled

end Steps

/-- A call of an orchestrator on the tasks it keeps. -/
inductive TaskCall where
  | execute (run : Call)
  | cancel (taskId : String)

section Calls
variable [CharClasses] [HmacSha256]

/-- Runs answer with their result, unless they panic. -/
def taskCalls : System Answer InMemoryNopTaskStore TaskCall (Option NopTaskResult) where
  program
    | .execute run => execute run.opts run.task
    | .cancel taskId => (fun _ => none) <$> cancel taskId
  exec := exec

abbrev TaskCalls := Pool Answer InMemoryNopTaskStore TaskCall (Option NopTaskResult)

/-- One run of the task is made. -/
def SingleRun (pool : TaskCalls) : Event Answer TaskCall → Prop
  | .start (.execute run) => ∀ (i : Nat) other p, pool.threads[i]? = some (.execute other, p) →
      other.task.taskId ≠ run.task.taskId
  | _ => True

/-- Calls for tasks each of which is run once. -/
abbrev TaskStep := Transition.Guarded SingleRun taskCalls.Step

def Underway (run : Call) (p : Program (Option NopTaskResult)) : Prop :=
  p ≠ taskCalls.program (.execute run) ∧ ∀ result, p ≠ done result

/-- A cancellation does not come when the task has ended; a run that is cancelled is dropped and
acts no more; and the time limit of a run is not over when it has completed its task. -/
def InTime (pool : TaskCalls) : Event Answer TaskCall → Prop
  | .start _ => True
  | .act thread op answer =>
    (∀ run p, pool.threads[thread]? = some (.execute run, p) →
      Untimed (pool.shared.stateOf run.task.taskId) op answer ∧
        (Underway run p → pool.shared.stateOf run.task.taskId ≠ some .cancelled)) ∧
    ∀ taskId p, pool.threads[thread]? = some (.cancel taskId, p) →
      pool.shared.stateOf taskId ≠ some .completed ∧ pool.shared.stateOf taskId ≠ some .failed

/-- A run that has only been made looks its task up, and goes on if there is none. -/
theorem execute_begins {run : Call} {op : Op} {next : Answer op → Program (Option NopTaskResult)}
    (fresh : taskCalls.program (.execute run) = .call op next) {s t : InMemoryNopTaskStore}
    {answer : Answer op} (exec : exec op s answer t) :
    t = s ∧ Fits run.task.taskId (t.stateOf run.task.taskId) (next answer) := by
  change execute run.opts run.task = .call op next at fresh
  rcases execute_cases run with ⟨result, same⟩ | ⟨topoOrder, same⟩
  · rw [same] at fresh
    cases fresh
  · rw [same.trans (submit_eq run topoOrder)] at fresh
    cases fresh
    obtain ⟨found, rfl⟩ := exec
    refine ⟨rfl, ?_⟩
    cases known : t.lookup run.task.taskId with
    | some record =>
      rw [known] at found
      subst found
      exact .inr (.inl ⟨_, rfl⟩)
    | none =>
      rw [known] at found
      subst found
      refine .inr (.inr (.inl ⟨recording_working run topoOrder, ?_⟩))
      unfold InMemoryNopTaskStore.stateOf
      rw [known]
      rintro (same | same | same) <;> cases same

/-- Runs fit the states of their tasks, and cancellations record what they should. -/
structure Orderly (pool : TaskCalls) : Prop where
  runs : ∀ (i : Nat) run p, pool.threads[i]? = some (.execute run, p) →
    p = taskCalls.program (.execute run) ∨
      Fits run.task.taskId (pool.shared.stateOf run.task.taskId) p
  cancels : ∀ (i : Nat) taskId p, pool.threads[i]? = some (.cancel taskId, p) →
    p = taskCalls.program (.cancel taskId) ∨ ∃ result, p = done result
  alone : ∀ (i j : Nat) one other p q, pool.threads[i]? = some (.execute one, p) →
    pool.threads[j]? = some (.execute other, q) → one.task.taskId = other.task.taskId → i = j

section Steps
variable {pool after : TaskCalls} {event : Event Answer TaskCall} {thread : Nat} {op : Op}
  {next : Answer op → Program (Option NopTaskResult)} {answer : Answer op} {taskId : String}
  {t : InMemoryNopTaskStore}

/-- What a run does to the states of tasks. -/
theorem Orderly.run_acts (orderly : Orderly pool) {run : Call}
    (found : pool.threads[thread]? = some (.execute run, .call op next))
    (exec : exec op pool.shared answer t) (inTime : InTime pool (.act thread op answer)) :
    Fits run.task.taskId (t.stateOf run.task.taskId) (next answer) ∧
      ∀ id, id ≠ run.task.taskId ∨ Over (pool.shared.stateOf id) →
        t.stateOf id = pool.shared.stateOf id := by
  by_cases fresh : .call op next = taskCalls.program (.execute run)
  · obtain ⟨rfl, begun⟩ := execute_begins fresh.symm exec
    exact ⟨begun, fun id _ => rfl⟩
  · have fits := (orderly.runs thread run _ found).resolve_left fresh
    obtain ⟨untimed, dropped⟩ := inTime.1 run _ found
    have underway : Underway run (.call op next) := by
      refine ⟨fresh, fun result ended => ?_⟩
      cases ended
    obtain ⟨within, later, kept⟩ := fits.acts (dropped underway) exec untimed
    refine ⟨later, fun id unchanged => ?_⟩
    by_cases own : id = run.task.taskId
    · subst own
      rcases unchanged with different | ended
      · exact absurd rfl different
      · exact kept ended
    · exact within.stateOf exec own

/-- What a cancellation does to the states of tasks. -/
theorem Orderly.cancel_acts (orderly : Orderly pool)
    (found : pool.threads[thread]? = some (.cancel taskId, .call op next))
    (exec : exec op pool.shared answer t) :
    (∃ result, next answer = done result) ∧ t = pool.shared.updateState taskId .cancelled := by
  rcases orderly.cancels thread taskId _ found with fresh | ⟨result, same⟩
  · cases fresh
    exact ⟨⟨none, rfl⟩, exec⟩
  · cases same

/-- An end that is recorded stays. -/
theorem Orderly.absorbs (orderly : Orderly pool)
    (step : Transition.Guarded InTime TaskStep pool event after)
    (ended : Over (pool.shared.stateOf taskId)) :
    after.shared.stateOf taskId = pool.shared.stateOf taskId := by
  obtain ⟨inTime, -, step⟩ := step
  cases step with
  | start call => rfl
  | @act thread caller op next answer t acted exec =>
    cases caller with
    | execute run =>
      exact (orderly.run_acts acted exec inTime).2 taskId (.inr ended)
    | cancel id =>
      obtain ⟨-, rfl⟩ := orderly.cancel_acts acted exec
      dsimp only
      rw [stateOf_updateState]
      split
      · rename_i same
        subst same
        obtain ⟨notCompleted, notFailed⟩ := inTime.2 taskId _ acted
        rcases ended with completed | failed | cancelled
        · exact absurd completed notCompleted
        · exact absurd failed notFailed
        · rw [cancelled]
          rfl
      · rfl

/-- A run that waits while another call acts goes on to fit the state of its task. -/
theorem Orderly.waits (orderly : Orderly pool) {caller : TaskCall}
    (acted : pool.threads[thread]? = some (caller, .call op next))
    (exec : exec op pool.shared answer t) (inTime : InTime pool (.act thread op answer))
    {i : Nat} (different : i ≠ thread) {run : Call} {p : Program (Option NopTaskResult)}
    (old : pool.threads[i]? = some (.execute run, p)) :
    p = taskCalls.program (.execute run) ∨
      Fits run.task.taskId (t.stateOf run.task.taskId) p := by
  rcases orderly.runs i run p old with fresh | fits
  · exact .inl fresh
  cases caller with
  | execute other =>
    have others : run.task.taskId ≠ other.task.taskId := by
      intro same
      exact different (orderly.alone i thread run other _ _ old acted same)
    rw [(orderly.run_acts acted exec inTime).2 _ (.inl others)]
    exact .inr fits
  | cancel id =>
    obtain ⟨-, rfl⟩ := orderly.cancel_acts acted exec
    rw [stateOf_updateState]
    split
    · cases known : pool.shared.stateOf run.task.taskId with
      | none =>
        rw [known] at fits
        exact .inr fits
      | some state => exact .inr (.inl rfl)
    · exact .inr fits

theorem Orderly.step (orderly : Orderly pool)
    (step : Transition.Guarded InTime TaskStep pool event after) : Orderly after := by
  obtain ⟨inTime, single, step⟩ := step
  constructor
  · intro i run p found
    cases step with
    | start call =>
      rcases getElem?_concat found with old | ⟨-, same⟩
      · exact orderly.runs i run p old
      · cases same
        exact .inl rfl
    | act acted exec =>
      rcases getElem?_set_append found with ⟨different, old⟩ | ⟨rfl, same⟩ | ⟨-, -, new⟩
      · exact orderly.waits acted exec inTime different old
      · cases same
        exact .inr (orderly.run_acts acted exec inTime).1
      · cases new
  · intro i taskId p found
    rcases step.threadAt found with old | ⟨op, next, answer, rfl, acted, exec, rfl⟩ | ⟨-, rfl⟩
    · exact orderly.cancels i taskId p old
    · exact .inr (orderly.cancel_acts acted exec).1
    · exact .inl rfl
  · intro i j one other p q first second same
    cases event with
    | act thread op answer =>
      obtain ⟨p', before⟩ := step.caller_before (fun _ => rfl) first
      obtain ⟨q', before'⟩ := step.caller_before (fun _ => rfl) second
      exact orderly.alone i j one other p' q' before before' same
    | start call =>
      cases step with
      | start =>
        rcases getElem?_concat first with old | ⟨last, new⟩
        · rcases getElem?_concat second with old' | ⟨last', new'⟩
          · exact orderly.alone i j one other p q old old' same
          · cases new'
            exact absurd same (single i one p old)
        · rcases getElem?_concat second with old' | ⟨last', new'⟩
          · cases new
            exact absurd same.symm (single j other q old')
          · exact last.trans last'.symm

end Steps

/-- An end that is recorded is never changed, if a cancellation comes before the task has ended and
its run is dropped then, and the time limit is not over when the task is completed. -/
theorem terminal_absorbing {tasks : InMemoryNopTaskStore} {before later : TaskCalls}
    {events events' : List (Event Answer TaskCall)}
    (run : Transition.Run (Transition.Guarded InTime TaskStep) ⟨tasks, []⟩ events before)
    (run' : Transition.Run (Transition.Guarded InTime TaskStep) before events' later)
    {taskId : String} {state : TaskState} (recorded : before.shared.stateOf taskId = some state)
    (isEnd : state = .completed ∨ state = .failed ∨ state = .cancelled) :
    later.shared.stateOf taskId = some state := by
  have start : Orderly ⟨tasks, []⟩ := by
    constructor
    · intro i run p found
      cases found
    · intro i id p found
      cases found
    · intro i j one other p q found
      cases found
  have orderly := run.invariant (fun orderly step => orderly.step step) start
  have ended : Over (some state) := by
    rcases isEnd with rfl | rfl | rfl
    · exact .inl rfl
    · exact .inr (.inl rfl)
    · exact .inr (.inr rfl)
  have stays := run'.invariant
    (P := fun pool => Orderly pool ∧ pool.shared.stateOf taskId = some state)
    (fun held step => ⟨held.1.step step, (held.1.absorbs step (held.2 ▸ ended)).trans held.2⟩)
    ⟨orderly, recorded⟩
  exact stays.2

end Calls

namespace Cancelling
open scoped Chain Twice
open Twice (call handler handler_faithful)

def single (pool : TaskCalls) : Event Answer TaskCall → Bool
  | .start (.execute _) => pool.threads.all fun thread =>
    match thread.1 with
    | .execute _ => false
    | .cancel _ => true
  | _ => true

theorem single_sound (pool : TaskCalls) (event : Event Answer TaskCall)
    (met : single pool event = true) : SingleRun pool event := by
  cases event with
  | act thread op answer => trivial
  | start arrival =>
    cases arrival with
    | cancel taskId => trivial
    | execute run =>
      intro i other p found
      cases List.all_eq_true.mp met _ (List.mem_of_getElem? found)

def interrupted : List (Move TaskCall) :=
  [.start (.execute call), .run 0 8, .start (.cancel "one"), .run 1 1]

def played : List (Event Answer TaskCall) × TaskCalls := taskCalls.play handler interrupted ⟨∅, []⟩

def dropped : List (Move TaskCall) := [.start (.cancel "one"), .run 2 1]

def resumed : List (Move TaskCall) := [.run 0 20]

def inTime (pool : TaskCalls) (event : Event Answer TaskCall) : Bool :=
  match event with
  | .start _ => single pool event
  | .act thread _ _ =>
    match pool.threads[thread]? with
    | some (.execute run, _) => pool.shared.stateOf run.task.taskId ≠ some .completed &&
      pool.shared.stateOf run.task.taskId ≠ some .cancelled
    | some (.cancel taskId, _) => pool.shared.stateOf taskId ≠ some .completed &&
      pool.shared.stateOf taskId ≠ some .failed
    | none => true

theorem inTime_sound (pool : TaskCalls) (event : Event Answer TaskCall)
    (met : inTime pool event = true) : InTime pool event ∧ SingleRun pool event := by
  cases event with
  | start arrival => exact ⟨trivial, single_sound pool _ met⟩
  | act thread op answer =>
    refine ⟨⟨fun run p found => ?_, fun taskId p found => ?_⟩, trivial⟩
    · unfold inTime at met
      simp only [found, Bool.and_eq_true, decide_eq_true_eq] at met
      refine ⟨?_, fun _ => met.2⟩
      cases op with
      | timeUp limitMs => exact fun _ => met.1
      | _ => trivial
    · unfold inTime at met
      simp only [found, Bool.and_eq_true, decide_eq_true_eq] at met
      exact met

/-- The task stays cancelled. -/
theorem cancelled_stays : ∃ events events' before later,
    Transition.Run (Transition.Guarded InTime TaskStep) ⟨∅, []⟩ events before ∧
    Transition.Run (Transition.Guarded InTime TaskStep) before events' later ∧
    before.threads[1]? = some (.cancel "one", done none) ∧
    before.shared.stateOf "one" = some .cancelled ∧
    later.shared.stateOf "one" = some .cancelled := by
  have first : Transition.Run (Transition.Guarded (fun pool event => InTime pool event ∧
      SingleRun pool event) taskCalls.Step) ⟨∅, []⟩ played.1 played.2 :=
    System.run_play_guarded handler_faithful inTime_sound interrupted ⟨∅, []⟩ rfl
  have second : Transition.Run (Transition.Guarded (fun pool event => InTime pool event ∧
      SingleRun pool event) taskCalls.Step) played.2 (taskCalls.play handler dropped played.2).1
      (taskCalls.play handler dropped played.2).2 :=
    System.run_play_guarded handler_faithful inTime_sound dropped played.2 rfl
  have run : Transition.Run (Transition.Guarded InTime TaskStep) ⟨∅, []⟩ played.1 played.2 :=
    first.mono fun step => ⟨step.1.1, step.1.2, step.2⟩
  have run' : Transition.Run (Transition.Guarded InTime TaskStep) played.2
      (taskCalls.play handler dropped played.2).1 (taskCalls.play handler dropped played.2).2 :=
    second.mono fun step => ⟨step.1.1, step.1.2, step.2⟩
  exact ⟨_, _, _, _, run, run', rfl, rfl, terminal_absorbing run run' rfl (.inr (.inr rfl))⟩

/-- The run goes on, and its task is completed. -/
theorem cancelled_completed : ∃ events events' before later,
    Transition.Run TaskStep ⟨∅, []⟩ events before ∧ Transition.Run TaskStep before events' later ∧
    before.threads[1]? = some (.cancel "one", done none) ∧
    before.shared.stateOf "one" = some .cancelled ∧
    later.shared.stateOf "one" = some .completed := by
  have first : Transition.Run TaskStep ⟨∅, []⟩ played.1 played.2 :=
    System.run_play_guarded handler_faithful single_sound interrupted ⟨∅, []⟩ rfl
  have second : Transition.Run TaskStep played.2 (taskCalls.play handler resumed played.2).1
      (taskCalls.play handler resumed played.2).2 :=
    System.run_play_guarded handler_faithful single_sound resumed played.2 rfl
  exact ⟨_, _, _, _, first, second, rfl, rfl, rfl⟩

end Cancelling
end Nps.Nop
