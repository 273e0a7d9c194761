import NpsSdk.Lib.Traces
import NpsSdk.Nop.Scheduler
import NpsSdk.Nop.Topology

/-! The compensation of completed nodes: which nodes it delegates, and in which order. The order is
that of validation, which looks at edges, while nodes are started by their upstream nodes. -/
namespace Nps.Nop
open Json (Value Fields)
open Interaction Prog Precedence

def Op.delegatee : Op → Option String
  | .delegate frame => some frame.nodeId
  | _ => none

def delegated (trace : List (Sigma Answer)) : List String := trace.filterMap (·.1.delegatee)

@[simp] theorem delegated_nil : delegated [] = [] := rfl

@[simp] theorem delegated_cons (entry : Sigma Answer) (trace : List (Sigma Answer)) :
    delegated (entry :: trace) = entry.1.delegatee.toList ++ delegated trace := by
  unfold delegated
  rw [List.filterMap_cons]
  cases entry.1.delegatee <;> rfl

@[simp] theorem delegated_append (first second : List (Sigma Answer)) :
    delegated (first ++ second) = delegated first ++ delegated second := List.filterMap_append

section Delegated
variable {opts : NopOrchestratorOptions} {task : TaskFrame} {nodeResults : Fields}
  {trace : List (Sigma Answer)}

def compensationBuilds (nodeResults : Fields) (node : DagNode) : Bool :=
  (buildParams node.compensateParamsMapping nodeResults).toOption.isSome

def compensable (nodeResults : Fields) (node : DagNode) : Bool :=
  !blankAction node && compensationBuilds nodeResults node

theorem compensationNode_delegated {node : DagNode} {subtaskId idempotencyKey : String}
    {outcome : NodeOutcome}
    (performs : Performs (executeNodeOnce opts task (compensationNode node) subtaskId idempotencyKey
      nodeResults) trace outcome) :
    delegated trace = if compensationBuilds nodeResults node then [node.id] else [] := by
  unfold executeNodeOnce at performs
  unfold compensationBuilds
  have mapping : (compensationNode node).inputMapping = node.compensateParamsMapping := rfl
  rw [mapping] at performs
  cases built : buildParams node.compensateParamsMapping nodeResults with
  | error e =>
    rw [built] at performs
    obtain ⟨rfl, -⟩ := performs_done.mp performs
    rfl
  | ok params =>
    rw [built] at performs
    obtain ⟨now, _, rfl, sends⟩ := performs_ask.mp performs
    obtain ⟨delegation, _, rfl, ends⟩ := performs_ask.mp sends
    obtain ⟨rfl, -⟩ := performs_done.mp ends
    rfl

theorem compensateAll_delegated {nodes : List DagNode} {failed : List String}
    (performs : Performs (compensateAll opts task nodeResults nodes) trace failed) :
    delegated trace = (nodes.filter (compensationBuilds nodeResults)).map DagNode.id := by
  induction nodes generalizing trace failed with
  | nil =>
    obtain ⟨rfl, -⟩ := performs_done.mp performs
    rfl
  | cons node rest ih =>
    obtain ⟨subtaskId, _, rfl, named⟩ := performs_ask.mp performs
    obtain ⟨idempotencyKey, _, rfl, tries⟩ := performs_ask.mp named
    obtain ⟨outcome, once, _, rfl, tried, goes⟩ := performs_bind.mp tries
    obtain ⟨others, later, last, rfl, all, ends⟩ := performs_bind.mp goes
    obtain ⟨rfl, -⟩ := performs_done.mp ends
    rw [delegated_cons, delegated_cons, delegated_append, delegated_append,
      compensationNode_delegated tried, ih all, List.filter_cons]
    split <;> simp [Op.delegatee]

/-- Compensation is refused as a whole where a completed node names none. -/
def refusesCompensation (task : TaskFrame) (completed : List DagNode) : Prop :=
  CompensationPolicy.isStrict task.compensationPolicy = true ∧
    (completed.filter blankAction).map DagNode.id ≠ []

/-- The nodes that are compensated, in order. -/
theorem runSagaCompensation_delegated {topoOrder : List String} {nodeStates : NodeStates}
    {result : SagaCompensationResult}
    (performs : Performs (runSagaCompensation opts task topoOrder nodeResults nodeStates) trace result)
    (accepts : ¬ refusesCompensation task (completedNodes task topoOrder nodeStates)) :
    delegated trace = ((completedNodes task topoOrder nodeStates).filter
      (compensable nodeResults)).map DagNode.id := by
  have both : (completedNodes task topoOrder nodeStates).filter (compensable nodeResults) =
      ((completedNodes task topoOrder nodeStates).filter fun node => !blankAction node).filter
        (compensationBuilds nodeResults) := by
    rw [List.filter_filter]
    exact List.filter_congr fun node _ => Bool.and_comm _ _
  unfold runSagaCompensation at performs
  dsimp only at performs
  rw [both]
  split at performs
  · exact absurd ‹_› accepts
  · split at performs
    · rename_i nothing
      obtain ⟨rfl, -⟩ := performs_done.mp performs
      rw [nothing]
      rfl
    · obtain ⟨-, _, rfl, starts⟩ := performs_ask.mp performs
      obtain ⟨failed, first, last, rfl, all, ends⟩ := performs_bind.mp starts
      obtain ⟨rfl, -⟩ := performs_done.mp ends
      rw [delegated_cons, delegated_append, compensateAll_delegated all]
      simp [Op.delegatee]

theorem runSagaCompensation_refused {topoOrder : List String} {nodeStates : NodeStates}
    {result : SagaCompensationResult}
    (performs : Performs (runSagaCompensation opts task topoOrder nodeResults nodeStates) trace result)
    (refuses : refusesCompensation task (completedNodes task topoOrder nodeStates)) :
    delegated trace = [] := by
  unfold runSagaCompensation at performs
  dsimp only at performs
  split at performs
  · obtain ⟨rfl, -⟩ := performs_done.mp performs
    rfl
  · exact absurd refuses ‹_›

end Delegated

section Completed
variable {task : TaskFrame} {order : List String} {nodeStates : NodeStates} {nodeResults : Fields}

theorem node?_id {dag : TaskDag} {id : String} {node : DagNode} (found : dag.node? id = some node) :
    node ∈ dag.nodes ∧ node.id = id := by
  obtain ⟨same, -⟩ := List.find?_eq_some_iff_append.mp found
  have member : node ∈ dag.nodes.reverse := List.mem_of_find?_eq_some found
  exact ⟨List.mem_reverse.mp member, of_decide_eq_true same⟩

theorem node?_self {dag : TaskDag} (distinct : (dag.nodes.map DagNode.id).Nodup) {node : DagNode}
    (member : node ∈ dag.nodes) : dag.node? node.id = some node := by
  cases found : dag.node? node.id with
  | none =>
    have other := List.find?_eq_none.mp found node (List.mem_reverse.mpr member)
    exact absurd (decide_eq_true rfl) other
  | some other =>
    obtain ⟨there, same⟩ := node?_id found
    rw [List.inj_on_of_nodup_map distinct there member same]

theorem node?_ids {dag : TaskDag} (distinct : (dag.nodes.map DagNode.id).Nodup) {ids : List String}
    (known : ∀ id ∈ ids, id ∈ dag.nodes.map DagNode.id) :
    (ids.filterMap dag.node?).map DagNode.id = ids := by
  have own : ∀ id ∈ ids, (dag.node? id).map DagNode.id = some id := by
    intro id member
    obtain ⟨node, there, rfl⟩ := List.mem_map.mp (known id member)
    rw [node?_self distinct there]
    rfl
  rw [List.map_filterMap, List.filterMap_congr own, List.filterMap_some]

theorem completedNodes_ids (accepted : Accepted task.dag order) :
    (completedNodes task order nodeStates).map DagNode.id =
      (order.filter fun id => Json.get id nodeStates = some .completed).reverse := by
  unfold completedNodes
  rw [List.map_reverse, node?_ids accepted.distinct]
  intro id member
  exact accepted.order_spec.1.mem_iff.mp (List.mem_filter.mp member).1

theorem mem_completedNodes (accepted : Accepted task.dag order) {node : DagNode} :
    node ∈ completedNodes task order nodeStates ↔
      node ∈ task.dag.nodes ∧ Json.get node.id nodeStates = some .completed := by
  unfold completedNodes
  rw [List.mem_reverse, List.mem_filterMap]
  constructor
  · rintro ⟨id, member, found⟩
    obtain ⟨there, rfl⟩ := node?_id found
    exact ⟨there, of_decide_eq_true (List.mem_filter.mp member).2⟩
  · rintro ⟨there, completed⟩
    have listed := accepted.order_spec.1.mem_iff.mpr (List.mem_map_of_mem there)
    refine ⟨node.id, List.mem_filter.mpr ⟨listed, decide_eq_true completed⟩, ?_⟩
    exact node?_self accepted.distinct there

theorem completedNodes_before (accepted : Accepted task.dag order) {u v : DagNode}
    (first : u ∈ completedNodes task order nodeStates)
    (second : v ∈ completedNodes task order nodeStates) (before : Before order u.id v.id) :
    Before (completedNodes task order nodeStates) v u := by
  obtain ⟨here, completed⟩ := (mem_completedNodes accepted).mp first
  obtain ⟨there, completed'⟩ := (mem_completedNodes accepted).mp second
  have kept : Before (order.filter fun id => Json.get id nodeStates = some .completed) u.id v.id :=
    before.filter (decide_eq_true completed) (decide_eq_true completed')
  have nodes := List.Sublist.filterMap task.dag.node? kept
  unfold completedNodes
  rw [before_reverse]
  unfold Before
  simpa [node?_self accepted.distinct here, node?_self accepted.distinct there] using nodes

def compensated (task : TaskFrame) (order : List String) (nodeResults : Fields)
    (nodeStates : NodeStates) : List String :=
  ((completedNodes task order nodeStates).filter (compensable nodeResults)).map DagNode.id

theorem compensated_sublist (accepted : Accepted task.dag order) :
    (compensated task order nodeResults nodeStates).Sublist order.reverse := by
  have ids : (compensated task order nodeResults nodeStates).Sublist
      ((completedNodes task order nodeStates).map DagNode.id) := List.filter_sublist.map _
  rw [completedNodes_ids accepted] at ids
  exact ids.trans (List.filter_sublist.reverse)

end Completed

/-- The node waits for the other one, as an edge or its own list of upstream nodes says. -/
def Feeds (dag : TaskDag) (u v : String) : Prop :=
  ⟨u, v⟩ ∈ dag.edges ∨ ∃ node ∈ dag.nodes, node.id = v ∧ u ∈ node.deps

abbrev DependsOn (dag : TaskDag) (v u : String) : Prop := Relation.TransGen (Feeds dag) u v

/-- A node is compensated before those that it depends on. -/
def ReverseOrder (dag : TaskDag) (dispatched : List String) : Prop :=
  ∀ u ∈ dispatched, ∀ v ∈ dispatched, DependsOn dag v u → Before dispatched v u

section Orders
variable {opts : NopOrchestratorOptions} {task : TaskFrame} {order : List String}

theorem exec_answers (op : Op) (s : InMemoryNopTaskStore) : ∃ answer t, exec op s answer t := by
  cases op with
  | get id => exact ⟨_, _, rfl, rfl⟩
  | save record => exact ⟨_, _, rfl⟩
  | updateState id state => exact ⟨(), _, rfl⟩
  | updateSubtask id nodeId subtaskId state update => exact ⟨(), _, rfl⟩
  | newUuid => exact ⟨"", s, rfl⟩
  | nowMs => exact ⟨(0 : Nat), s, rfl⟩
  | sleep ms => exact ⟨(), s, rfl⟩
  | delegate frame => exact ⟨⟨[], false⟩, s, rfl⟩
  | preflight agentNid action npt capabilities => exact ⟨⟨agentNid, true, none⟩, s, rfl⟩
  | timeUp limitMs => exact ⟨false, s, rfl⟩
  | choose => exact ⟨[], s, rfl⟩
  | iterate keys => exact ⟨keys, s, .refl _, rfl⟩
  | post url signature payload => exact ⟨true, s, rfl⟩

theorem mem_compensated {nodeResults : Fields} {nodeStates : NodeStates} {node : DagNode}
    (completed : node ∈ completedNodes task order nodeStates)
    (able : compensable nodeResults node = true) :
    node.id ∈ compensated task order nodeResults nodeStates :=
  List.mem_map_of_mem (List.mem_filter.mpr ⟨completed, able⟩)

/-- Compensation runs in reverse order of dependency, for whatever nodes have completed, exactly if
the order has every node that can be compensated after those that it depends on, edges apart. -/
theorem reverse_order_iff (valid : validateDag task.dag = .ok order) (nodeResults : Fields) :
    (∀ nodeStates s trace result t,
      Traces exec (runSagaCompensation opts task order nodeResults nodeStates) s trace result t →
        ReverseOrder task.dag (delegated trace)) ↔
      ∀ u ∈ task.dag.nodes, ∀ v ∈ task.dag.nodes, compensable nodeResults u = true →
        compensable nodeResults v = true → DependsOn task.dag v.id u.id →
        ¬ Relation.TransGen (HasEdge task.dag) u.id v.id → Before order u.id v.id := by
  have accepted := validateDag_accepted valid
  constructor
  · intro reverses u here v there able able' depends _
    -- just these two nodes have completed
    let nodeStates : NodeStates := [(u.id, .completed), (v.id, .completed)]
    have first : u ∈ completedNodes task order nodeStates :=
      (mem_completedNodes accepted).mpr ⟨here, by simp [nodeStates, Json.get]⟩
    have second : v ∈ completedNodes task order nodeStates :=
      (mem_completedNodes accepted).mpr ⟨there, by simp [nodeStates, Json.get]⟩
    have accepts : ¬ refusesCompensation task (completedNodes task order nodeStates) := by
      rintro ⟨-, missing⟩
      refine missing (List.map_eq_nil_iff.mpr (List.filter_eq_nil_iff.mpr fun node member => ?_))
      obtain ⟨inside, completed⟩ := (mem_completedNodes accepted).mp member
      have either : node.id = u.id ∨ node.id = v.id := by
        by_contra neither
        rw [not_or] at neither
        simp [nodeStates, Json.get, neither.1, neither.2] at completed
      have names : ∀ other, compensable nodeResults other = true → blankAction other ≠ true := by
        intro other able blank
        simp [compensable, blank] at able
      rcases either with same | same
      · rw [List.inj_on_of_nodup_map accepted.distinct inside here same]
        exact names u able
      · rw [List.inj_on_of_nodup_map accepted.distinct inside there same]
        exact names v able'
    obtain ⟨trace, result, t, traces⟩ := traces_exist exec_answers
      (runSagaCompensation opts task order nodeResults nodeStates) ∅
    have dispatched : delegated trace = compensated task order nodeResults nodeStates :=
      runSagaCompensation_delegated traces.performs accepts
    have before := reverses _ _ _ _ _ traces u.id (dispatched ▸ mem_compensated first able) v.id
      (dispatched ▸ mem_compensated second able') depends
    rw [dispatched] at before
    exact before_reverse.mp (before.mono (compensated_sublist accepted))
  · intro sorted nodeStates s trace result t traces u first v second depends
    by_cases refuses : refusesCompensation task (completedNodes task order nodeStates)
    · rw [runSagaCompensation_refused traces.performs refuses] at first
      cases first
    · rw [runSagaCompensation_delegated traces.performs refuses] at first second ⊢
      obtain ⟨u, member, rfl⟩ := List.mem_map.mp first
      obtain ⟨v, member', rfl⟩ := List.mem_map.mp second
      obtain ⟨completed, able⟩ := List.mem_filter.mp member
      obtain ⟨completed', able'⟩ := List.mem_filter.mp member'
      have before : Before order u.id v.id := by
        by_cases linked : Relation.TransGen (HasEdge task.dag) u.id v.id
        · exact order_along_edges accepted linked
        · have here := ((mem_completedNodes accepted).mp completed).1
          have there := ((mem_completedNodes accepted).mp completed').1
          exact sorted u here v there able able' depends linked
      exact ((completedNodes_before accepted completed completed' before).filter able' able).map _

end Orders

namespace Booking

def node (id : String) (inputFrom : Option (List String)) : DagNode where
  id
  action := "nwp://worker/run"
  agent := "urn:nps:agent:worker"
  inputFrom
  compensateAction := some "nwp://worker/undo"

def reserve : DagNode := node "reserve" none

def charge : DagNode := node "charge" (some ["reserve"])

def opts : NopOrchestratorOptions := { maxConcurrentNodes := 4 }

/-- The graph lists its nodes in order of dependency, and has no edges. -/
def task : TaskFrame := { taskId := "booking", dag := { nodes := [reserve, charge] } }

def reordered : TaskFrame := { taskId := "booking", dag := { nodes := [charge, reserve] } }

theorem depends {u v : String} (chain : DependsOn task.dag v u) : u = "reserve" ∧ v = "charge" := by
  have feeds : ∀ a b, Feeds task.dag a b → a = "reserve" ∧ b = "charge" := by
    rintro a b (edge | ⟨upstream, member, rfl, listed⟩)
    · cases edge
    · rcases List.mem_cons.mp member with rfl | later
      · cases listed
      · cases List.mem_singleton.mp later
        exact ⟨List.mem_singleton.mp listed, rfl⟩
  induction chain with
  | single step => exact feeds _ _ step
  | tail chain step ih =>
    have again := (feeds _ _ step).1
    rw [ih.2] at again
    exact absurd again (by decide)

theorem charge_undone_first : validateDag task.dag = .ok ["reserve", "charge"] ∧
    ∀ nodeStates s trace result t,
      Traces exec (runSagaCompensation opts task ["reserve", "charge"] [] nodeStates) s trace result t →
        ReverseOrder task.dag (delegated trace) := by
  refine ⟨rfl, (reverse_order_iff rfl []).mpr ?_⟩
  intro u here v there able able' chain _
  obtain ⟨first, second⟩ := depends chain
  rw [first, second]
  exact List.Sublist.refl _

/-- Both nodes have completed, and the reservation is undone before the charge. -/
theorem reservation_undone_first : ∃ nodeStates s trace result t,
    validateDag reordered.dag = .ok ["charge", "reserve"] ∧
    Traces exec (runSagaCompensation opts reordered ["charge", "reserve"] [] nodeStates) s trace result
      t ∧ delegated trace = ["reserve", "charge"] ∧
    ¬ ReverseOrder reordered.dag (delegated trace) := by
  obtain ⟨trace, result, t, traces⟩ := traces_exist exec_answers (runSagaCompensation opts reordered
    ["charge", "reserve"] [] [("charge", .completed), ("reserve", .completed)]) ∅
  have dispatched : delegated trace = ["reserve", "charge"] := by
    refine runSagaCompensation_delegated traces.performs ?_
    rintro ⟨strict, -⟩
    cases strict
  refine ⟨_, _, trace, result, t, rfl, traces, dispatched, fun reverses => ?_⟩
  rw [dispatched] at reverses
  have before := reverses "reserve" (by decide) "charge" (by decide)
    (.single (.inr ⟨charge, List.mem_cons_self, rfl, List.mem_cons_self⟩))
  exact absurd before (by unfold Before; decide)

end Booking
end Nps.Nop
