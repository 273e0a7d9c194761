import NpsSdk.Lib.Json

/-! Records of asynchronous action tasks. A finished task is shown to keep its record
exactly in the runs that never touch one through an operation that does not look at the
status it finds. -/
namespace Nps.Nwp
open Json

/-- Nanoseconds since the epoch. -/
abbrev OffsetDateTime := Int

structure ActionTaskRecord where
  taskId : String
  actionId : String
  status : String
  progress : Option Float
  createdAt : OffsetDateTime
  updatedAt : OffsetDateTime
  requestId : Option String
  agentNid : Option String
  result : Option Value
  error : Option Value

def isTerminal (status : String) : Bool :=
  status = "completed" || status = "failed" || status = "cancelled"

def clamp (value low high : Float) : Float :=
  let raised := if value < low then low else value
  if raised > high then high else raised

structure InMemoryActionTaskStore where
  tasks : List (String × ActionTaskRecord) := []

namespace InMemoryActionTaskStore

def new : InMemoryActionTaskStore := {}

def create (store : InMemoryActionTaskStore) (now : OffsetDateTime) (taskId actionId : String)
    (requestId agentNid : Option String) : ActionTaskRecord × InMemoryActionTaskStore :=
  let record : ActionTaskRecord :=
    { taskId, actionId, requestId, agentNid
      status := "pending"
      progress := none
      createdAt := now
      updatedAt := now
      result := none
      error := none }
  (record, { tasks := insert taskId record store.tasks })

def get (store : InMemoryActionTaskStore) (taskId : String) : Option ActionTaskRecord :=
  Json.get taskId store.tasks

/-- Edit the record of a task in place and stamp it; without one, or when the edit refuses
it, nothing changes. -/
def edit (store : InMemoryActionTaskStore) (now : OffsetDateTime) (taskId : String)
    (change : ActionTaskRecord → Option ActionTaskRecord) : Bool × InMemoryActionTaskStore :=
  match (store.get taskId).bind change with
  | some record =>
    (true, { tasks := insert taskId { record with updatedAt := now } store.tasks })
  | none => (false, store)

def tryTransition (store : InMemoryActionTaskStore) (now : OffsetDateTime)
    (taskId expected new : String) : Bool × InMemoryActionTaskStore :=
  store.edit now taskId fun record =>
    if record.status = expected then some { record with status := new } else none

def complete (store : InMemoryActionTaskStore) (now : OffsetDateTime) (taskId : String)
    (result : Option Value) : Bool × InMemoryActionTaskStore :=
  store.edit now taskId fun record =>
    if isTerminal record.status then none
    else some { record with status := "completed", result, progress := some 1.0 }

def fail (store : InMemoryActionTaskStore) (now : OffsetDateTime) (taskId : String)
    (error : Value) : Bool × InMemoryActionTaskStore :=
  store.edit now taskId fun record =>
    if isTerminal record.status then none
    else some { record with status := "failed", error := some error }

def cancel (store : InMemoryActionTaskStore) (now : OffsetDateTime) (taskId : String) :
    Bool × InMemoryActionTaskStore :=
  store.edit now taskId fun record =>
    if isTerminal record.status then none else some { record with status := "cancelled" }

/-- The one edit that takes a finished record like any other. -/
def updateProgress (store : InMemoryActionTaskStore) (now : OffsetDateTime) (taskId : String)
    (progress : Float) : Bool × InMemoryActionTaskStore :=
  store.edit now taskId fun record =>
    some { record with progress := some (clamp progress 0.0 1.0) }

end InMemoryActionTaskStore

inductive TaskOp where
  | create (taskId actionId : String) (requestId agentNid : Option String)
  | get (taskId : String)
  | tryTransition (taskId expected new : String)
  | complete (taskId : String) (result : Option Value)
  | fail (taskId : String) (error : Value)
  | cancel (taskId : String)
  | updateProgress (taskId : String) (progress : Float)

/-- The store an operation leaves behind at a time of the clock. -/
def TaskOp.apply (store : InMemoryActionTaskStore) (now : OffsetDateTime) :
    TaskOp → InMemoryActionTaskStore
  | create taskId actionId requestId agentNid =>
    (store.create now taskId actionId requestId agentNid).2
  | get _ => store
  | tryTransition taskId expected new => (store.tryTransition now taskId expected new).2
  | complete taskId result => (store.complete now taskId result).2
  | fail taskId error => (store.fail now taskId error).2
  | cancel taskId => (store.cancel now taskId).2
  | updateProgress taskId progress => (store.updateProgress now taskId progress).2

def runTasks (store : InMemoryActionTaskStore) (ops : List (OffsetDateTime × TaskOp)) :
    InMemoryActionTaskStore :=
  ops.foldl (fun store op => op.2.apply store op.1) store

/-- What a finished task is to keep. -/
structure TaskOutcome where
  status : String
  result : Option Value
  error : Option Value
  progress : Option Float

def ActionTaskRecord.outcome (record : ActionTaskRecord) : TaskOutcome where
  status := record.status
  result := record.result
  error := record.error
  progress := record.progress

def KeepsFinished (store later : InMemoryActionTaskStore) : Prop :=
  ∀ taskId record, store.get taskId = some record → isTerminal record.status = true →
    (later.get taskId).map ActionTaskRecord.outcome = some record.outcome

/-- From any point of the run to any later one, finished tasks keep their outcome. -/
def Absorbing (store : InMemoryActionTaskStore) (ops : List (OffsetDateTime × TaskOp)) : Prop :=
  ∀ before during rest, ops = before ++ during ++ rest →
    KeepsFinished (runTasks store before) (runTasks store (before ++ during))

/-- An operation without a check of its own leaves finished tasks alone. -/
def Harmless (store : InMemoryActionTaskStore) : TaskOp → Prop
  | .create taskId _ _ _ =>
    ∀ record, store.get taskId = some record → isTerminal record.status = false
  | .tryTransition taskId expected new =>
    ∀ record, store.get taskId = some record → isTerminal record.status = true →
      record.status = expected → new = expected
  | .updateProgress taskId progress =>
    ∀ record, store.get taskId = some record → isTerminal record.status = true →
      record.progress = some (clamp progress 0.0 1.0)
  | _ => True

def RunHarmless : InMemoryActionTaskStore → List (OffsetDateTime × TaskOp) → Prop
  | _, [] => True
  | store, (now, op) :: rest => Harmless store op ∧ RunHarmless (op.apply store now) rest

namespace InMemoryActionTaskStore
variable {store : InMemoryActionTaskStore} {now : OffsetDateTime} {taskId : String}

@[simp] theorem get_new : new.get taskId = none := rfl

theorem get_create (other actionId : String) (requestId agentNid : Option String) :
    (store.create now taskId actionId requestId agentNid).2.get other =
      if other = taskId then some (store.create now taskId actionId requestId agentNid).1
      else store.get other := by
  split
  · rename_i same
    subst same
    exact get_insert_self _ _ _
  · rename_i different
    exact get_insert_ne different _ _

/-- An edit changes the record it is about, when there is one that it accepts, and no other. -/
theorem get_edit (other : String) (change : ActionTaskRecord → Option ActionTaskRecord) :
    (store.edit now taskId change).2.get other =
      if other = taskId then
        (((store.get taskId).bind change).map fun record => { record with updatedAt := now }).or
          (store.get taskId)
      else store.get other := by
  unfold edit
  split
  · rename_i record accepted
    split
    · rename_i same
      subst same
      rw [accepted]
      exact get_insert_self _ _ _
    · rename_i different
      exact get_insert_ne different _ _
  · rename_i refused
    split
    · rename_i same
      rw [same, refused]
      rfl
    · rfl

end InMemoryActionTaskStore
open InMemoryActionTaskStore

section Keeping
variable {store : InMemoryActionTaskStore} {now : OffsetDateTime} {taskId : String}

theorem KeepsFinished.refl (store : InMemoryActionTaskStore) : KeepsFinished store store := by
  intro taskId record found _
  rw [found]
  rfl

theorem KeepsFinished.trans {middle later : InMemoryActionTaskStore}
    (first : KeepsFinished store middle) (second : KeepsFinished middle later) :
    KeepsFinished store later := by
  intro taskId record found finished
  obtain ⟨kept, there, same⟩ := Option.map_eq_some_iff.mp (first taskId record found finished)
  have status : kept.status = record.status := congrArg TaskOutcome.status same
  rw [← same]
  exact second taskId kept there (status ▸ finished)

/-- An edit keeps finished tasks exactly when it refuses a finished record or leaves its
outcome as it is. -/
theorem edit_keeps_iff {change : ActionTaskRecord → Option ActionTaskRecord} :
    KeepsFinished store (store.edit now taskId change).2 ↔
      ∀ record, store.get taskId = some record → isTerminal record.status = true →
        ∀ edited, change record = some edited → edited.outcome = record.outcome := by
  constructor
  · intro keeps record found finished edited accepted
    have kept := keeps taskId record found finished
    rw [get_edit, if_pos rfl, found, Option.bind_some, accepted] at kept
    exact Option.some.inj kept
  · intro same other record found finished
    rw [get_edit]
    split
    · rename_i here
      subst here
      rw [found, Option.bind_some]
      cases accepted : change record with
      | none => rfl
      | some edited => exact congrArg some (same record found finished edited accepted)
    · rw [found]
      rfl

theorem guarded_edit_keeps {change : ActionTaskRecord → ActionTaskRecord} :
    KeepsFinished store (store.edit now taskId fun record =>
      if isTerminal record.status then none else some (change record)).2 := by
  apply edit_keeps_iff.mpr
  intro record _ finished edited accepted
  rw [if_pos finished] at accepted
  cases accepted

theorem create_keeps_iff {actionId : String} {requestId agentNid : Option String} :
    KeepsFinished store (store.create now taskId actionId requestId agentNid).2 ↔
      ∀ record, store.get taskId = some record → isTerminal record.status = false := by
  constructor
  · intro keeps record found
    by_contra finished
    rw [Bool.not_eq_false] at finished
    have kept := keeps taskId record found finished
    rw [get_create, if_pos rfl] at kept
    -- The new record is pending, which no finished one is.
    have pending : "pending" = record.status := congrArg TaskOutcome.status (Option.some.inj kept)
    rw [← pending] at finished
    exact absurd finished (by decide)
  · intro unfinished other record found finished
    rw [get_create]
    split
    · rename_i here
      subst here
      rw [unfinished record found] at finished
      cases finished
    · rw [found]
      rfl

theorem tryTransition_keeps_iff {expected new : String} :
    KeepsFinished store (store.tryTransition now taskId expected new).2 ↔
      ∀ record, store.get taskId = some record → isTerminal record.status = true →
        record.status = expected → new = expected := by
  unfold tryTransition
  rw [edit_keeps_iff]
  constructor
  · intro same record found finished holds
    have kept := same record found finished _ (if_pos holds)
    exact (congrArg TaskOutcome.status kept).trans holds
  · intro same record found finished edited accepted
    split at accepted
    · rename_i holds
      cases accepted
      have fixed : new = record.status := (same record found finished holds).trans holds.symm
      rw [fixed]
    · cases accepted

theorem updateProgress_keeps_iff {progress : Float} :
    KeepsFinished store (store.updateProgress now taskId progress).2 ↔
      ∀ record, store.get taskId = some record → isTerminal record.status = true →
        record.progress = some (clamp progress 0.0 1.0) := by
  unfold updateProgress
  rw [edit_keeps_iff]
  constructor
  · intro same record found finished
    exact (congrArg TaskOutcome.progress (same record found finished _ rfl)).symm
  · intro same record found finished edited accepted
    cases accepted
    rw [← same record found finished]

/-- One operation keeps finished tasks exactly when it is harmless. -/
theorem apply_keeps_iff {op : TaskOp} :
    KeepsFinished store (op.apply store now) ↔ Harmless store op := by
  cases op with
  | create taskId actionId requestId agentNid => exact create_keeps_iff
  | get taskId => exact iff_of_true (.refl store) trivial
  | tryTransition taskId expected new => exact tryTransition_keeps_iff
  | complete taskId result => exact iff_of_true guarded_edit_keeps trivial
  | fail taskId error => exact iff_of_true guarded_edit_keeps trivial
  | cancel taskId => exact iff_of_true guarded_edit_keeps trivial
  | updateProgress taskId progress => exact updateProgress_keeps_iff

theorem runTasks_append (first second : List (OffsetDateTime × TaskOp)) :
    runTasks store (first ++ second) = runTasks (runTasks store first) second :=
  List.foldl_append

theorem RunHarmless.keeps {ops : List (OffsetDateTime × TaskOp)} (harmless : RunHarmless store ops) :
    KeepsFinished store (runTasks store ops) := by
  induction ops generalizing store with
  | nil => exact .refl store
  | cons op rest ih =>
    obtain ⟨now, op⟩ := op
    exact (apply_keeps_iff.mpr harmless.1).trans (ih harmless.2)

theorem runHarmless_append {first second : List (OffsetDateTime × TaskOp)} :
    RunHarmless store (first ++ second) ↔
      RunHarmless store first ∧ RunHarmless (runTasks store first) second := by
  induction first generalizing store with
  | nil => exact (iff_of_eq (true_and _)).symm
  | cons op rest ih => exact (and_congr_right fun _ => ih).trans and_assoc.symm

theorem absorbing_of_cons {now : OffsetDateTime} {op : TaskOp}
    {rest : List (OffsetDateTime × TaskOp)} (absorbing : Absorbing store ((now, op) :: rest)) :
    Absorbing (op.apply store now) rest := by
  intro before during later same
  exact absorbing ((now, op) :: before) during later (congrArg ((now, op) :: ·) same)

end Keeping

/-- Finished tasks keep status, result, error and progress throughout a run exactly when
each of its operations is harmless where it is performed. -/
theorem absorbing_iff (store : InMemoryActionTaskStore) (ops : List (OffsetDateTime × TaskOp)) :
    Absorbing store ops ↔ RunHarmless store ops := by
  constructor
  · intro absorbing
    induction ops generalizing store with
    | nil => trivial
    | cons op rest ih =>
      obtain ⟨now, op⟩ := op
      have one := absorbing [] [(now, op)] rest rfl
      exact ⟨apply_keeps_iff.mp one, ih _ (absorbing_of_cons absorbing)⟩
  · rintro harmless before during rest rfl
    rw [List.append_assoc] at harmless
    have later := (runHarmless_append.mp (runHarmless_append.mp harmless).2).1
    rw [runTasks_append]
    exact later.keeps

namespace LateProgress

/-- A task is cancelled and its worker then reports how far it got. -/
def ops : List (OffsetDateTime × TaskOp) :=
  [(0, .create "t" "act" none none), (1, .cancel "t"), (2, .updateProgress "t" 0.5)]

theorem cancelled_changes : ¬ Absorbing .new ops := by
  rw [absorbing_iff]
  rintro ⟨-, -, late, -⟩
  cases late _ rfl rfl

end LateProgress
end Nps.Nwp
