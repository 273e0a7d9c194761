import NpsSdk.Nop.DuplicateTask

/-! The phases of a run, as the states it records tell them: it works on the task, records that
the task is over, and then writes no state, unless its time is over. -/
namespace Nps.Nop
open Interaction Prog

def Op.Stateless : Op → Prop
  | .updateState _ _ => False
  | .save _ => False
  | _ => True

/-- The operation writes at most a state of the task in which it is not over. -/
def Op.Midway (taskId : String) : Op → Prop
  | .updateState id state =>
    id = taskId ∧ state ≠ .completed ∧ state ≠ .failed ∧ state ≠ .cancelled
  | .save _ => False
  | _ => True

theorem Op.Stateless.midway {taskId : String} (op : Op) (stateless : op.Stateless) :
    op.Midway taskId := by
  cases op <;> trivial

section Nodes
variable {opts : NopOrchestratorOptions} {task : TaskFrame} {node : DagNode}

theorem executeNodeOnce_stateless (subtaskId idempotencyKey : String) (context : Json.Fields) :
    Only Op.Stateless (executeNodeOnce opts task node subtaskId idempotencyKey context) := by
  unfold executeNodeOnce
  split
  · trivial
  · exact ⟨trivial, fun now => ⟨trivial, fun delegation => trivial⟩⟩

theorem runAttempts_stateless (subtaskId idempotencyKey : String) (context : Json.Fields)
    (left attempt : Nat) :
    Only Op.Stateless (runAttempts opts task node subtaskId idempotencyKey context left attempt) := by
  induction left generalizing attempt with
  | zero => exact ⟨trivial, fun _ => trivial⟩
  | succ left ih =>
    refine Only.ask trivial fun _ => (executeNodeOnce_stateless _ _ _).bind fun outcome => ?_
    split_ifs
    · exact ⟨trivial, fun _ => trivial⟩
    · exact ⟨trivial, fun _ => trivial⟩
    · exact Only.ask trivial fun _ => ih (attempt + 1)

theorem executeNodeWithRetry_stateless [CharClasses] (context : Json.Fields) :
    Only Op.Stateless (executeNodeWithRetry opts task node context) := by
  refine Only.ask trivial fun subtaskId => Only.ask trivial fun idempotencyKey => ?_
  split
  · exact runAttempts_stateless _ _ _ _ _
  · exact ⟨trivial, fun _ => trivial⟩
  · exact ⟨trivial, fun _ => trivial⟩

end Nodes

section Runs
variable {opts : NopOrchestratorOptions} {task : TaskFrame}

/-- None of the futures touches a state. -/
def Stateless {α : Type} (futures : Futures Answer String α) : Prop :=
  ∀ future ∈ futures, Only Op.Stateless future.2

theorem failUnsatisfiable_stateless (ready : List DagNode) (states : NodeStates) :
    Only Op.Stateless (failUnsatisfiable task ready states) := by
  induction ready generalizing states with
  | nil => trivial
  | cons node rest ih =>
    unfold failUnsatisfiable
    split
    · exact Only.ask trivial fun subtaskId => Only.ask trivial fun _ => ih _
    · exact (ih states).bind fun _ => trivial

theorem drain_stateless (count : Nat) {inFlight : Futures Answer String NodeOutcome}
    (stateless : Stateless inFlight) : Only Op.Stateless (drain count inFlight) := by
  induction count generalizing inFlight with
  | zero => trivial
  | succ count ih =>
    refine Only.ask trivial fun choices => (awaitNext_only stateless).after fun next returns => ?_
    split
    · trivial
    · obtain ⟨-, -, -, -, rest⟩ := awaitNext_some (kept_only Op.Stateless) stateless returns
      exact ih rest

theorem compensateAll_stateless (nodeResults : Json.Fields) (nodes : List DagNode) :
    Only Op.Stateless (compensateAll opts task nodeResults nodes) := by
  induction nodes with
  | nil => trivial
  | cons node rest ih =>
    refine Only.ask trivial fun subtaskId => Only.ask trivial fun idempotencyKey => ?_
    exact (executeNodeOnce_stateless _ _ _).bind fun outcome => ih.bind fun failed => trivial

theorem compensateIf_midway (runs : Bool) (topoOrder : List String) (nodeResults : Json.Fields)
    (nodeStates : NodeStates) : Only (Op.Midway task.taskId)
      (compensateIf opts task runs topoOrder nodeResults nodeStates) := by
  unfold compensateIf
  split
  · refine Only.bind ?_ fun _ => trivial
    unfold runSagaCompensation
    dsimp only
    split_ifs
    · trivial
    · trivial
    · refine Only.ask ⟨rfl, by decide, by decide, by decide⟩ fun _ => ?_
      exact ((compensateAll_stateless _ _).mono Op.Stateless.midway).bind fun _ => trivial
  · trivial

theorem conclude_midway (topoOrder endNodeIds : List String) (last : LoopEnd) :
    Only (Op.Midway task.taskId) (conclude opts task topoOrder endNodeIds last) := by
  cases last with
  | aborted loop failedNodeId outcome => exact (compensateIf_midway _ _ _ _).bind fun _ => trivial
  | ended loop =>
    unfold conclude
    dsimp only
    split_ifs
    · exact (compensateIf_midway _ _ _ _).bind fun _ => trivial
    · exact (compensateIf_midway _ _ _ _).bind fun _ => trivial

variable [CharClasses]

theorem launch_stateless {loop : Loop} (stateless : Stateless loop.inFlight) (ready : List DagNode) :
    Stateless (launch opts task loop ready) := by
  intro future member
  rcases List.mem_append.mp member with old | new
  · exact stateless future old
  · obtain ⟨node, -, rfl⟩ := List.mem_map.mp new
    change Only Op.Stateless (executeNodeWithRetry opts task node loop.nodeResults)
    exact executeNodeWithRetry_stateless _

theorem round_stateless (endNodeIds : List String) {loop : Loop} (stateless : Stateless loop.inFlight) :
    Only Op.Stateless (round opts task endNodeIds loop) := by
  unfold round
  split
  · trivial
  · refine (failUnsatisfiable_stateless (readyNodes task loop) loop.nodeStates).bind fun pass => ?_
    have launched : Stateless (launch opts task loop pass.2) := launch_stateless stateless _
    dsimp only
    split
    · trivial
    · refine Only.ask trivial fun choices => (awaitNext_only launched).after fun next returns => ?_
      split
      · trivial
      · obtain ⟨-, -, -, -, rest⟩ := awaitNext_some (kept_only Op.Stateless) launched returns
        split
        · exact (drain_stateless _ rest).bind fun _ => trivial
        · trivial

theorem round_leaves {endNodeIds : List String} {loop next : Loop} (stateless : Stateless loop.inFlight)
    (returns : Returns (round opts task endNodeIds loop) (.inl next)) : Stateless next.inFlight := by
  unfold round at returns
  split at returns
  · cases returns_done.mp returns
  obtain ⟨pass, -, returns⟩ := returns_bind.mp returns
  have launched : Stateless (launch opts task loop pass.2) := launch_stateless stateless _
  dsimp only at returns
  split at returns
  · cases returns_done.mp returns
  obtain ⟨choices, -, returns⟩ := returns_bind.mp returns
  obtain ⟨awaited, found, returns⟩ := returns_bind.mp returns
  split at returns
  · cases returns_done.mp returns
  obtain ⟨-, -, -, -, rest⟩ := awaitNext_some (kept_only Op.Stateless) launched found
  split at returns
  · obtain ⟨-, -, returns⟩ := returns_bind.mp returns
    cases returns_done.mp returns
  · cases returns_done.mp returns
    exact rest

theorem dagLoop_stateless (endNodeIds : List String) (fuel : Nat) {loop : Loop}
    (stateless : Stateless loop.inFlight) :
    Only Op.Stateless (dagLoop opts task endNodeIds fuel loop) := by
  induction fuel generalizing loop with
  | zero => trivial
  | succ fuel ih =>
    refine (round_stateless endNodeIds stateless).after fun out returns => ?_
    cases out with
    | inl next => exact ih (round_leaves stateless returns)
    | inr last => trivial

theorem runDag_midway (topoOrder : List String) :
    Only (Op.Midway task.taskId) (runDag opts task topoOrder) := by
  refine Only.ask trivial fun endNodeIds => ?_
  have empty : Stateless ({} : Loop).inFlight := by
    intro future member
    cases member
  refine ((dagLoop_stateless endNodeIds _ empty).mono Op.Stateless.midway).bind fun last => ?_
  exact conclude_midway _ _ _

theorem runDag_final {topoOrder : List String} {result : NopTaskResult}
    (returns : Returns (runDag opts task topoOrder) result) :
    result.finalState = .completed ∨ result.finalState = .failed := by
  obtain ⟨endNodeIds, -, returns⟩ := returns_bind.mp returns
  obtain ⟨last, -, returns⟩ := returns_bind.mp returns
  cases last with
  | aborted loop failedNodeId outcome =>
    obtain ⟨compensation, -, returns⟩ := returns_bind.mp returns
    cases returns_done.mp returns
    exact .inr rfl
  | ended loop =>
    unfold conclude at returns
    dsimp only at returns
    split_ifs at returns
    · obtain ⟨compensation, -, returns⟩ := returns_bind.mp returns
      cases returns_done.mp returns
      exact .inr rfl
    · obtain ⟨compensation, -, returns⟩ := returns_bind.mp returns
      cases returns_done.mp returns
      exact .inl rfl

end Runs

section Reports
variable {opts : NopOrchestratorOptions} {task : TaskFrame}

theorem awaitProbes_stateless (count : Nat) {probes : Futures Answer String PreflightResult}
    (stateless : Stateless probes) : Only Op.Stateless (awaitProbes count probes) := by
  induction count generalizing probes with
  | zero => trivial
  | succ count ih =>
    refine Only.ask trivial fun choices => (awaitNext_only stateless).after fun next returns => ?_
    split
    · trivial
    · obtain ⟨-, -, -, -, rest⟩ := awaitNext_some (kept_only Op.Stateless) stateless returns
      split
      · exact ih rest
      · trivial

theorem runPreflight_stateless : Only Op.Stateless (runPreflight task) := by
  refine awaitProbes_stateless _ fun probe member => ?_
  obtain ⟨⟨agent, action⟩, -, rfl⟩ := List.mem_map.mp member
  exact ⟨trivial, fun _ => trivial⟩

theorem postFrom_stateless (url : String) (signature : Option String) (payload : String)
    (delay left attempt : Nat) :
    Only Op.Stateless (postFrom url signature payload delay left attempt) := by
  induction left generalizing attempt with
  | zero => trivial
  | succ left ih =>
    refine Only.ask trivial fun accepted => ?_
    dsimp only
    split
    · trivial
    · split
      · exact Only.ask trivial fun _ => ih (attempt + 1)
      · exact ih (attempt + 1)

end Reports

def Op.Ends (taskId : String) (op : Op) : Prop :=
  op = .updateState taskId .completed ∨ op = .updateState taskId .failed

def Op.Begins (taskId : String) : Op → Prop
  | .save record => record.taskId = taskId ∧ record.state = .pending
  | _ => False

def Expires : (op : Op) → Answer op → Prop
  | .timeUp _, isOver => isOver = true
  | _, _ => False

/-- What is left of a call whose time is over. -/
def Failing {α : Type} (taskId : String) (p : Program α) : Prop :=
  Only (fun op => op = .updateState taskId .failed) p

/-- The task is over: no state is written any more, unless the time limit expires. -/
def Concluded {α : Type} (taskId : String) : Program α → Prop
  | done _ => True
  | call op next => op.Stateless ∧ ∀ answer,
      Concluded taskId (next answer) ∨ (Expires op answer ∧ Failing taskId (next answer))

/-- The task is open until the program records its end. -/
def Working {α : Type} (taskId : String) : Program α → Prop
  | done _ => True
  | call op next =>
    ((op.Midway taskId ∨ op.Begins taskId) ∧ ∀ answer, Working taskId (next answer)) ∨
      (op.Ends taskId ∧ ∀ answer, Concluded taskId (next answer))

/-- The same for a program without a time limit. -/
def Phased {α : Type} (taskId : String) : Program α → Prop
  | done _ => True
  | call op next =>
    (op.Midway taskId ∧ ∀ answer, Phased taskId (next answer)) ∨
      (op.Ends taskId ∧ ∀ answer, Only Op.Stateless (next answer))

section Phases
variable {α β : Type} {taskId : String}

theorem Phased.after {p : Program α} {f : α → Program β} (first : Only (Op.Midway taskId) p)
    (second : ∀ a, Returns p a → Phased taskId (f a)) : Phased taskId (p >>= f) := by
  induction p with
  | done result => exact second result (returns_done.mpr rfl)
  | call op next ih =>
    refine .inl ⟨first.1, fun answer => ih answer (first.2 answer) fun a returns => ?_⟩
    exact second a (returns_call.mpr ⟨answer, returns⟩)

theorem Concluded.then_done {p : Program α} (concluded : Concluded taskId p) (f : α → β) :
    Concluded taskId (p >>= fun a => done (f a)) := by
  induction p with
  | done result => trivial
  | call op next ih =>
    refine ⟨concluded.1, fun answer => ?_⟩
    rcases concluded.2 answer with later | ⟨expires, failing⟩
    · exact .inl (ih answer later)
    · exact .inr ⟨expires, failing.bind fun _ => trivial⟩

theorem Working.then_done {p : Program α} (working : Working taskId p) (f : α → β) :
    Working taskId (p >>= fun a => done (f a)) := by
  induction p with
  | done result => trivial
  | call op next ih =>
    rcases working with ⟨own, later⟩ | ⟨ends, later⟩
    · exact .inl ⟨own, fun answer => ih answer (later answer)⟩
    · exact .inr ⟨ends, fun answer => (later answer).then_done f⟩

section Limits
variable {waits : Op → Bool} {limitMs : Nat} {k : Option α → Program β}

/-- After the end of a task its time limit may still expire. -/
theorem concluded_limited {p : Program α} (expired : Failing taskId (k none))
    (result : ∀ a, Only Op.Stateless (k (some a))) (only : Only Op.Stateless p) :
    Concluded taskId (withTimeout waits (.timeUp limitMs) id p >>= k) := by
  have of_only : ∀ {q : Program β}, Only Op.Stateless q → Concluded taskId q := by
    intro q only
    induction q with
    | done result => trivial
    | call op next ih => exact ⟨only.1, fun answer => .inl (ih answer (only.2 answer))⟩
  induction p with
  | done a => exact of_only (result a)
  | call op next ih =>
    unfold withTimeout
    split
    · refine ⟨trivial, fun isOver => ?_⟩
      cases isOver with
      | true => exact .inr ⟨rfl, expired⟩
      | false => exact .inl ⟨only.1, fun answer => .inl (ih answer (only.2 answer))⟩
    · exact ⟨only.1, fun answer => .inl (ih answer (only.2 answer))⟩

/-- A task under a time limit is open until its end, or that of its time, is recorded. -/
theorem working_limited {p : Program α} (expired : Failing taskId (k none))
    (gives_up : Working taskId (k none)) (result : ∀ a, Only Op.Stateless (k (some a)))
    (phased : Phased taskId p) :
    Working taskId (withTimeout waits (.timeUp limitMs) id p >>= k) := by
  have of_only : ∀ {q : Program β}, Only Op.Stateless q → Working taskId q := by
    intro q only
    induction q with
    | done result => trivial
    | call op next ih =>
      exact .inl ⟨.inl (Op.Stateless.midway op only.1), fun answer => ih answer (only.2 answer)⟩
  induction p with
  | done a => exact of_only (result a)
  | call op next ih =>
    have goes : Working taskId
        (call op fun answer => withTimeout waits (.timeUp limitMs) id (next answer) >>= k) := by
      rcases phased with ⟨midway, later⟩ | ⟨ends, later⟩
      · exact .inl ⟨.inl midway, fun answer => ih answer (later answer)⟩
      · exact .inr ⟨ends, fun answer => concluded_limited expired result (later answer)⟩
    unfold withTimeout
    split
    · refine .inl ⟨.inl trivial, fun isOver => ?_⟩
      cases isOver with
      | true => exact gives_up
      | false => exact goes
    · exact goes

end Limits
end Phases

section Lives
variable [CharClasses] [HmacSha256] {opts : NopOrchestratorOptions} {task : TaskFrame}

theorem runAndReport_phased (topoOrder : List String) :
    Phased task.taskId (runAndReport opts task topoOrder) := by
  refine .inl ⟨⟨rfl, by decide, by decide, by decide⟩, fun _ => ?_⟩
  refine Phased.after (p := runDag opts task topoOrder) (runDag_midway topoOrder) fun result returns => .inr ⟨?_, fun _ => ?_⟩
  · rcases runDag_final returns with completed | failed
    · exact .inl (by rw [completed])
    · exact .inr (by rw [failed])
  · split
    · split
      · exact (postFrom_stateless _ _ _ _ _ _).bind fun _ => trivial
      · trivial
    · trivial

theorem runLifecycle_phased (topoOrder : List String) :
    Phased task.taskId (runLifecycle opts task topoOrder) := by
  unfold runLifecycle
  split
  · refine .inl ⟨⟨rfl, by decide, by decide, by decide⟩, fun _ => ?_⟩
    have midway : Only (Op.Midway task.taskId) (runPreflight task) :=
      runPreflight_stateless.mono Op.Stateless.midway
    refine Phased.after (p := runPreflight task) midway fun found _ => ?_
    cases found with
    | some fail => exact .inr ⟨.inr rfl, fun _ => trivial⟩
    | none => exact runAndReport_phased topoOrder
  · exact runAndReport_phased topoOrder

theorem runLimited_working (topoOrder : List String) :
    Working task.taskId (runLimited opts task topoOrder) := by
  refine working_limited ?_ ?_ (fun result => trivial) (runLifecycle_phased topoOrder)
  · exact ⟨rfl, fun _ => trivial⟩
  · exact .inr ⟨.inr rfl, fun _ => trivial⟩

theorem recording_working (call : Call) (topoOrder : List String) :
    Working call.task.taskId (recording call topoOrder) := by
  refine .inl ⟨.inl trivial, fun now => .inl ⟨.inr ⟨rfl, rfl⟩, fun _ => ?_⟩⟩
  exact (runLimited_working topoOrder).then_done some

end Lives
end Nps.Nop
