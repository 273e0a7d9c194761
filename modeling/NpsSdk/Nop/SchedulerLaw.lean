import Mathlib.Data.List.Perm.Basic
import Mathlib.Data.List.Perm.Subperm
import NpsSdk.Nop.Orchestrator

/-! What the scheduler does in one turn of its loop, and what its state keeps. -/
namespace Nps.Nop
open Json (Value Fields)
open Interaction Prog

def TaskState.isTerminal (state : TaskState) : Prop :=
  state = .completed ∨ state = .failed ∨ state = .skipped ∨ state = .cancelled

section Outcomes
variable {opts : NopOrchestratorOptions} {task : TaskFrame} {node : DagNode}

def NodeOutcome.Final (outcome : NodeOutcome) : Prop := outcome.state.isTerminal

theorem readStream_final {lastSeq : Nat} {frames : List AlignStreamFrame} {outcome : NodeOutcome}
    (found : readStream opts node lastSeq frames = some outcome) : outcome.Final := by
  induction frames generalizing lastSeq with
  | nil => cases found
  | cons frame rest ih =>
    unfold readStream at found
    split_ifs at found
    · cases found
      exact .inr (.inl rfl)
    · cases found
      exact .inr (.inl rfl)
    · split at found <;> cases found
      · exact .inr (.inl rfl)
      · exact .inl rfl
    · exact ih found

theorem streamOutcome_final (delegation : Delegation) :
    (streamOutcome opts task node delegation).Final := by
  unfold streamOutcome
  split
  · exact readStream_final ‹_›
  · exact .inr (.inl rfl)

theorem executeNodeOnce_final {subtaskId idempotencyKey : String} {context : Fields}
    {outcome : NodeOutcome}
    (returns : Returns (executeNodeOnce opts task node subtaskId idempotencyKey context) outcome) :
    outcome.Final := by
  unfold executeNodeOnce at returns
  cases built : buildParams node.inputMapping context with
  | error e =>
    rw [built] at returns
    cases returns_done.mp returns
    exact .inr (.inl rfl)
  | ok params =>
    rw [built] at returns
    obtain ⟨now, delegation, same⟩ := by simpa using returns
    cases same
    exact streamOutcome_final delegation

theorem runAttempts_final {subtaskId idempotencyKey : String} {context : Fields} {left attempt : Nat}
    {outcome : NodeOutcome}
    (returns : Returns (runAttempts opts task node subtaskId idempotencyKey context left attempt)
      outcome) : outcome.Final := by
  induction left generalizing attempt with
  | zero =>
    obtain ⟨-, same⟩ := by simpa [runAttempts, updateSubtask] using returns
    exact .inr (.inl rfl)
  | succ left ih =>
    obtain ⟨-, -, returns⟩ := returns_bind.mp returns
    obtain ⟨tried, once, returns⟩ := returns_bind.mp returns
    split_ifs at returns
    · obtain ⟨-, -, returns⟩ := returns_bind.mp returns
      cases returns_done.mp returns
      exact executeNodeOnce_final once
    · obtain ⟨-, -, returns⟩ := returns_bind.mp returns
      cases returns_done.mp returns
      exact executeNodeOnce_final once
    · obtain ⟨-, -, returns⟩ := returns_bind.mp returns
      exact ih returns

variable [CharClasses]

theorem executeNodeWithRetry_final {context : Fields} {outcome : NodeOutcome}
    (returns : Returns (executeNodeWithRetry opts task node context) outcome) : outcome.Final := by
  obtain ⟨subtaskId, -, returns⟩ := returns_bind.mp returns
  obtain ⟨idempotencyKey, -, returns⟩ := returns_bind.mp returns
  split at returns
  · exact runAttempts_final returns
  · obtain ⟨-, -, returns⟩ := returns_bind.mp returns
    cases returns_done.mp returns
    exact .inr (.inr (.inl rfl))
  · obtain ⟨-, -, returns⟩ := returns_bind.mp returns
    cases returns_done.mp returns
    exact .inr (.inl rfl)

end Outcomes

section Turns
variable {opts : NopOrchestratorOptions} {task : TaskFrame}

theorem succeeded_insert {key : String} {states : NodeStates} (fresh : Json.get key states = none)
    (node : DagNode) : node.succeeded (Json.insert key .failed states) = node.succeeded states := by
  unfold DagNode.succeeded
  refine List.countP_congr fun dep _ => ?_
  by_cases same : dep = key
  · subst same
    simp [fresh]
  · rw [Json.get_insert_ne same]

theorem unsatisfiable_insert {key : String} {states : NodeStates} (fresh : Json.get key states = none)
    (node : DagNode) :
    unsatisfiable node (Json.insert key .failed states) = unsatisfiable node states := by
  rw [unsatisfiable, unsatisfiable, succeeded_insert fresh]

/-- The pass fails the nodes with too few dependencies and leaves the others ready. -/
theorem failUnsatisfiable_returns {ready ready' : List DagNode} {states states' : NodeStates}
    (fresh : ∀ node ∈ ready, Json.get node.id states = none)
    (distinct : (ready.map DagNode.id).Nodup)
    (returns : Returns (failUnsatisfiable task ready states) (states', ready')) :
    states'.Perm ((ready.filter (unsatisfiable · states)).map (fun node => (node.id, .failed)) ++
      states) ∧ ready' = ready.filter fun node => !unsatisfiable node states := by
  induction ready generalizing states states' ready' with
  | nil =>
    cases returns_done.mp returns
    exact ⟨.refl _, rfl⟩
  | cons node rest ih =>
    rw [List.forall_mem_cons] at fresh
    rw [List.map_cons, List.nodup_cons] at distinct
    unfold failUnsatisfiable at returns
    split_ifs at returns with short
    · obtain ⟨subtaskId, -, returns⟩ := returns_bind.mp returns
      obtain ⟨-, -, returns⟩ := returns_bind.mp returns
      have fresh' : ∀ other ∈ rest, Json.get other.id (Json.insert node.id .failed states) = none := by
        intro other member
        have different : other.id ≠ node.id := fun same =>
          distinct.1 (same ▸ List.mem_map_of_mem member)
        rw [Json.get_insert_ne different]
        exact fresh.2 other member
      obtain ⟨perm, left⟩ := ih fresh' distinct.2 returns
      simp only [unsatisfiable_insert fresh.1] at perm left
      simp only [List.filter_cons, short, if_true, Bool.not_true, Bool.false_eq_true, if_false]
      refine ⟨perm.trans ?_, left⟩
      exact ((Json.insert_perm fresh.1 _).append_left _).trans List.perm_middle
    · obtain ⟨⟨states₁, ready₁⟩, inside, returns⟩ := returns_bind.mp returns
      cases returns_done.mp returns
      obtain ⟨perm, left⟩ := ih fresh.2 distinct.2 inside
      rw [Bool.not_eq_true] at short
      simp only [List.filter_cons, short, if_false, Bool.false_eq_true, Bool.not_false, if_true, left]
      exact ⟨perm, trivial⟩

def failing (task : TaskFrame) (loop : Loop) : List DagNode :=
  (readyNodes task loop).filter (unsatisfiable · loop.nodeStates)

def startable (task : TaskFrame) (loop : Loop) : List DagNode :=
  (readyNodes task loop).filter fun node => !unsatisfiable node loop.nodeStates

variable [CharClasses]

variable (opts task) in
structure Passed (loop passed : Loop) : Prop where
  states : passed.nodeStates.Perm
    ((failing task loop).map (fun node => (node.id, .failed)) ++ loop.nodeStates)
  results : passed.nodeResults = loop.nodeResults
  flights : passed.inFlight = launch opts task loop (startable task loop)

def Finishes (loop : Loop) (nodeId : String) (outcome : NodeOutcome)
    (rest : Futures Answer String NodeOutcome) : Prop :=
  ∃ choices, Returns (awaitNext choices loop.inFlight) (some ((nodeId, outcome), rest))

variable (opts task) in
/-- All that a turn can do. -/
inductive Turn (endNodeIds : List String) (loop : Loop) : Loop ⊕ LoopEnd → Prop where
  | complete : task.dag.nodeIds.length ≤ loop.nodeStates.length →
      Turn endNodeIds loop (.inr (.ended loop))
  | idle {passed : Loop} : loop.nodeStates.length < task.dag.nodeIds.length →
      Passed opts task loop passed → passed.inFlight = [] →
      Turn endNodeIds loop (.inr (.ended passed))
  | settles {passed : Loop} {nodeId : String} {outcome : NodeOutcome}
      {rest : Futures Answer String NodeOutcome} :
      Passed opts task loop passed → Finishes passed nodeId outcome rest →
      Turn endNodeIds loop (.inl (passed.settle rest nodeId outcome))
  | aborts {passed : Loop} {nodeId : String} {outcome : NodeOutcome}
      {rest : Futures Answer String NodeOutcome} :
      Passed opts task loop passed → Finishes passed nodeId outcome rest →
      outcome.state = .failed →
      mustAbort task endNodeIds nodeId (passed.settle rest nodeId outcome).nodeStates = true →
      Turn endNodeIds loop (.inr (.aborted (passed.settle rest nodeId outcome) nodeId outcome))

omit [CharClasses] in
theorem readyNodes_fresh {loop : Loop} {node : DagNode} (ready : node ∈ readyNodes task loop) :
    Json.get node.id loop.nodeStates = none ∧ node.id ∉ loop.inFlight.map Prod.fst := by
  have tests := (List.mem_filter.mp ready).2
  simp only [Bool.and_eq_true, Option.isNone_iff_eq_none, decide_eq_true_eq] at tests
  exact tests.1

omit [CharClasses] in
theorem readyNodes_distinct (distinct : (task.dag.nodes.map DagNode.id).Nodup) (loop : Loop) :
    ((readyNodes task loop).map DagNode.id).Nodup :=
  distinct.sublist (List.filter_sublist.map _)

theorem round_turn {endNodeIds : List String} {loop : Loop} {out : Loop ⊕ LoopEnd}
    (distinct : (task.dag.nodes.map DagNode.id).Nodup)
    (returns : Returns (round opts task endNodeIds loop) out) : Turn opts task endNodeIds loop out := by
  unfold round at returns
  split_ifs at returns with full
  · cases returns_done.mp returns
    exact .complete full
  obtain ⟨⟨states, ready⟩, pass, returns⟩ := returns_bind.mp returns
  have passed : Passed opts task loop
      { loop with nodeStates := states, inFlight := launch opts task loop ready } := by
    obtain ⟨perm, left⟩ := failUnsatisfiable_returns (fun node ready => (readyNodes_fresh ready).1)
      (readyNodes_distinct distinct loop) pass
    exact ⟨perm, rfl, by rw [left]; rfl⟩
  dsimp only at returns
  split_ifs at returns with grounded
  · cases returns_done.mp returns
    exact .idle (Nat.lt_of_not_le full) passed (List.isEmpty_iff.mp grounded)
  obtain ⟨choices, -, returns⟩ := returns_bind.mp returns
  obtain ⟨next, awaited, returns⟩ := returns_bind.mp returns
  match next with
  | none => exact absurd awaited (awaitNext_ne_none (mt List.isEmpty_iff.mpr grounded))
  | some ((nodeId, outcome), rest) =>
    dsimp only at returns
    split_ifs at returns with lost
    · obtain ⟨-, -, returns⟩ := returns_bind.mp returns
      cases returns_done.mp returns
      exact .aborts passed ⟨choices, awaited⟩ lost.1 lost.2
    · cases returns_done.mp returns
      exact .settles passed ⟨choices, awaited⟩

end Turns

def Loop.ids (loop : Loop) : List String :=
  loop.nodeStates.map Prod.fst ++ loop.inFlight.map Prod.fst

/-- Every node is started or settled once, and comes to an end. -/
structure Loop.Sound (dag : TaskDag) (loop : Loop) : Prop where
  distinct : loop.ids.Nodup
  known : ∀ id ∈ loop.ids, id ∈ dag.nodes.map DagNode.id
  terminal : ∀ entry ∈ loop.nodeStates, entry.2.isTerminal
  final : ∀ future ∈ loop.inFlight, ∀ outcome, Returns future.2 outcome → outcome.Final

theorem kept_final : Kept fun (_ : String) (p : Prog Answer NodeOutcome) =>
    ∀ outcome, Returns p outcome → outcome.Final :=
  fun _ _ _ final answer outcome returns => final outcome (returns_call.mpr ⟨answer, returns⟩)

theorem Loop.sound_start (dag : TaskDag) : ({} : Loop).Sound dag :=
  ⟨List.nodup_nil, nofun, nofun, nofun⟩

section Sound
variable {opts : NopOrchestratorOptions} {task : TaskFrame} {loop passed : Loop}

def started (opts : NopOrchestratorOptions) (task : TaskFrame) (loop : Loop) : List DagNode :=
  (startable task loop).take (opts.maxConcurrentNodes - loop.inFlight.length)

theorem turn_ready (loop : Loop) {node : DagNode}
    (member : node ∈ failing task loop ++ started opts task loop) : node ∈ readyNodes task loop := by
  rcases List.mem_append.mp member with failed | begun
  · exact (List.mem_filter.mp failed).1
  · exact (List.mem_filter.mp (List.mem_of_mem_take begun)).1

theorem turn_distinct (distinct : (task.dag.nodes.map DagNode.id).Nodup) (loop : Loop) :
    ((failing task loop ++ started opts task loop).map DagNode.id).Nodup := by
  have all : ((failing task loop ++ startable task loop).map DagNode.id).Nodup :=
    ((List.filter_append_perm _ _).map _).nodup_iff.mpr (readyNodes_distinct distinct loop)
  exact all.sublist (((List.take_sublist _ _).append_left _).map _)

variable [CharClasses]

theorem Passed.ids_perm (turn : Passed opts task loop passed) :
    passed.ids.Perm ((failing task loop ++ started opts task loop).map DagNode.id ++ loop.ids) := by
  have flights : passed.inFlight.map Prod.fst =
      loop.inFlight.map Prod.fst ++ (started opts task loop).map DagNode.id := by
    rw [turn.flights, launch, List.map_append, List.map_map]
    rfl
  have states := turn.states.map Prod.fst
  rw [List.map_append, List.map_map] at states
  unfold Loop.ids
  rw [flights, List.map_append]
  refine (states.append_right _).trans ?_
  change ((failing task loop).map DagNode.id ++ _ ++ _).Perm _
  rw [List.append_assoc, List.append_assoc]
  refine List.Perm.append_left _ ?_
  rw [← List.append_assoc]
  exact List.perm_append_comm

theorem Passed.sound (turn : Passed opts task loop passed)
    (distinct : (task.dag.nodes.map DagNode.id).Nodup) (sound : loop.Sound task.dag) :
    passed.Sound task.dag where
  distinct := by
    rw [turn.ids_perm.nodup_iff]
    refine (turn_distinct distinct loop).append sound.distinct ?_
    intro id fresh old
    obtain ⟨node, member, rfl⟩ := List.mem_map.mp fresh
    obtain ⟨unsettled, grounded⟩ := readyNodes_fresh (turn_ready loop member)
    rcases List.mem_append.mp old with settled | flying
    · exact Json.get_eq_none.mp unsettled settled
    · exact grounded flying
  known := by
    intro id member
    rcases List.mem_append.mp (turn.ids_perm.mem_iff.mp member) with fresh | old
    · obtain ⟨node, here, rfl⟩ := List.mem_map.mp fresh
      exact List.mem_map_of_mem (List.mem_filter.mp (turn_ready loop here)).1
    · exact sound.known id old
  terminal := by
    intro entry member
    rcases List.mem_append.mp (turn.states.mem_iff.mp member) with fresh | old
    · obtain ⟨node, -, rfl⟩ := List.mem_map.mp fresh
      exact .inr (.inl rfl)
    · exact sound.terminal entry old
  final := by
    rw [turn.flights]
    intro future member
    rcases List.mem_append.mp member with old | fresh
    · exact sound.final future old
    · obtain ⟨node, -, rfl⟩ := List.mem_map.mp fresh
      intro outcome returns
      change Returns (executeNodeWithRetry opts task node loop.nodeResults) outcome at returns
      exact executeNodeWithRetry_final returns

omit [CharClasses] in
theorem Finishes.spec {nodeId : String} {outcome : NodeOutcome}
    {rest : Futures Answer String NodeOutcome} (finishes : Finishes loop nodeId outcome rest)
    (sound : loop.Sound task.dag) : (nodeId :: rest.map Prod.fst).Perm (loop.inFlight.map Prod.fst) ∧
      outcome.Final ∧ ∀ future ∈ rest, ∀ outcome, Returns future.2 outcome → outcome.Final := by
  obtain ⟨choices, returns⟩ := finishes
  obtain ⟨i, position, left, final, others⟩ := awaitNext_some kept_final sound.final returns
  obtain ⟨bound, same⟩ := List.getElem?_eq_some_iff.mp position
  refine ⟨?_, final _ (returns_done.mpr rfl), others⟩
  rw [left, ← same]
  exact List.getElem_cons_eraseIdx_perm bound

omit [CharClasses] in
theorem Finishes.states_perm {nodeId : String} {outcome : NodeOutcome}
    {rest : Futures Answer String NodeOutcome} (finishes : Finishes loop nodeId outcome rest)
    (sound : loop.Sound task.dag) : Json.get nodeId loop.nodeStates = none ∧
      (loop.settle rest nodeId outcome).nodeStates.Perm ((nodeId, outcome.state) :: loop.nodeStates) := by
  have flying : nodeId ∈ loop.inFlight.map Prod.fst :=
    (finishes.spec sound).1.mem_iff.mp (List.mem_cons_self ..)
  have fresh : Json.get nodeId loop.nodeStates = none :=
    Json.get_eq_none.mpr fun settled => List.disjoint_of_nodup_append sound.distinct settled flying
  exact ⟨fresh, Json.insert_perm fresh outcome.state⟩

omit [CharClasses] in
theorem Finishes.ids_perm {nodeId : String} {outcome : NodeOutcome}
    {rest : Futures Answer String NodeOutcome} (finishes : Finishes loop nodeId outcome rest)
    (sound : loop.Sound task.dag) : (loop.settle rest nodeId outcome).ids.Perm loop.ids := by
  have states := (finishes.states_perm sound).2
  refine ((states.map Prod.fst).append_right _).trans ?_
  exact List.perm_middle.symm.trans ((finishes.spec sound).1.append_left _)

omit [CharClasses] in
theorem Finishes.sound {nodeId : String} {outcome : NodeOutcome}
    {rest : Futures Answer String NodeOutcome} (finishes : Finishes loop nodeId outcome rest)
    (sound : loop.Sound task.dag) : (loop.settle rest nodeId outcome).Sound task.dag ∧
      (loop.settle rest nodeId outcome).nodeStates.length = loop.nodeStates.length + 1 := by
  obtain ⟨-, final, others⟩ := finishes.spec sound
  obtain ⟨-, states⟩ := finishes.states_perm sound
  have ids := finishes.ids_perm sound
  refine ⟨⟨ids.nodup_iff.mpr sound.distinct, fun id member => sound.known id (ids.mem_iff.mp member),
    ?_, others⟩, states.length_eq⟩
  intro entry member
  rcases List.mem_cons.mp (states.mem_iff.mp member) with rfl | old
  · exact final
  · exact sound.terminal entry old

end Sound
end Nps.Nop
