import NpsSdk.Nop.Topology

/-! Which graphs are accepted: those that meet every limit and have no cycle. -/
namespace Nps.Nop
open Precedence

/-- A node is reached from itself along edges. -/
def TaskDag.Cyclic (dag : TaskDag) : Prop := ∃ id, Relation.TransGen (HasEdge dag) id id

structure TaskDag.WellFormed (dag : TaskDag) : Prop where
  some_ : dag.nodes ≠ []
  small : dag.nodes.length ≤ maxDagNodes
  distinct : (dag.nodes.map DagNode.id).Nodup
  ends : ∀ edge ∈ dag.edges,
    edge.source ∈ dag.nodes.map DagNode.id ∧ edge.target ∈ dag.nodes.map DagNode.id
  upstreams : ∀ node ∈ dag.nodes, ∀ inputs, node.inputFrom = some inputs →
    ∀ upstream ∈ inputs, upstream ∈ dag.nodes.map DagNode.id
  start : ∃ node ∈ dag.nodes, ∀ edge ∈ dag.edges, edge.target ≠ node.id
  finish : ∃ node ∈ dag.nodes, ∀ edge ∈ dag.edges, edge.source ≠ node.id
  conditions : ∀ node ∈ dag.nodes, ∀ condition, node.condition = some condition →
    condition.toList.length ≤ maxConditionLength

/-- The edges into every node can be counted in an `i32`. -/
def TaskDag.Countable (dag : TaskDag) : Prop := ∀ id, edgesInto dag.edges id < 2 ^ 31

section Checks
variable {nodes : List DagNode} {edges : List DagEdge} {ids seen : List String} {node : DagNode}

theorem duplicateId_eq_none : duplicateId seen nodes = none ↔
    (nodes.map DagNode.id).Nodup ∧ ∀ node ∈ nodes, node.id ∉ seen := by
  refine ⟨duplicateId_none, ?_⟩
  induction nodes generalizing seen with
  | nil => exact fun _ => rfl
  | cons node rest ih =>
    rintro ⟨distinct, fresh⟩
    rw [List.map_cons, List.nodup_cons] at distinct
    rw [List.forall_mem_cons] at fresh
    unfold duplicateId
    rw [if_neg fresh.1]
    refine ih ⟨distinct.2, fun other member => ?_⟩
    intro early
    rcases List.mem_cons.mp early with same | early
    · exact distinct.1 (List.mem_map.mpr ⟨other, member, same⟩)
    · exact fresh.2 other member early

theorem unknownUpstream_eq_none : unknownUpstream ids node = none ↔
    ∀ inputs, node.inputFrom = some inputs → ∀ upstream ∈ inputs, upstream ∈ ids := by
  unfold unknownUpstream
  rw [Option.map_eq_none_iff, List.find?_eq_none]
  cases node.inputFrom with
  | none => simp
  | some inputs => simp

theorem longCondition_eq_false : longCondition node = false ↔
    ∀ condition, node.condition = some condition →
      condition.toList.length ≤ maxConditionLength := by
  unfold longCondition
  cases node.condition with
  | none => simp
  | some condition => simp

theorem edgesInto_eq_zero {id : String} :
    edgesInto edges id = 0 ↔ ∀ edge ∈ edges, edge.target ≠ id := by
  simp [edgesInto]

theorem neighbors_eq_nil {id : String} :
    neighbors edges id = [] ↔ ∀ edge ∈ edges, edge.source ≠ id := by
  simp [neighbors]

theorem start_iff {inDegree : List (String × Int)} (counts : ∀ id, countOf inDegree id = edgesInto edges id) :
    (nodes.map DagNode.id).all (fun id => countOf inDegree id ≠ 0) = false ↔
    ∃ node ∈ nodes, ∀ edge ∈ edges, edge.target ≠ node.id := by
  simp [counts, edgesInto_eq_zero]

theorem finish_iff : (nodes.map DagNode.id).all (fun id => neighbors edges id ≠ []) = false ↔
    ∃ node ∈ nodes, ∀ edge ∈ edges, edge.source ≠ node.id := by
  simp [neighbors_eq_nil]

end Checks

section Validation
variable {dag : TaskDag}

/-- A graph that passes the checks is accepted when all of its nodes are sorted; one that does not
is refused for another reason than a cycle, and one whose edges cannot be counted for no reason. -/
theorem validateDag_cases (dag : TaskDag) :
    (dag.WellFormed ∧ dag.Countable ∧ ∃ inDegree,
      (∀ id, countOf inDegree id = edgesInto dag.edges id) ∧ validateDag dag =
      (if (topologicalOrder dag inDegree).length ≠ (dag.nodes.map DagNode.id).length then
        .error (.refused ⟨ErrorCodes.taskDagCycle, "DAG contains a cycle."⟩)
      else .ok (topologicalOrder dag inDegree))) ∨
    (¬ dag.WellFormed ∧ ∃ refusal, validateDag dag = .error (.refused refusal) ∧
      refusal.errorCode ≠ ErrorCodes.taskDagCycle) ∨
    ¬ dag.Countable ∧ validateDag dag = .error .overflow := by
  have other : ErrorCodes.taskDagInvalid ≠ ErrorCodes.taskDagCycle := by decide
  have tooLarge : ErrorCodes.taskDagTooLarge ≠ ErrorCodes.taskDagCycle := by decide
  have tooLong : ErrorCodes.conditionEvalError ≠ ErrorCodes.taskDagCycle := by decide
  have initial (id : String) :
      countOf (Json.sortEntries ((dag.nodes.map DagNode.id).map fun id => (id, 0))) id < 2 ^ 31 := by
    rw [countOf_initial]
    decide
  unfold validateDag
  dsimp only
  split
  · rename_i empty
    exact .inr (.inl ⟨fun formed => formed.some_ empty, _, rfl, other⟩)
  rename_i some_
  split
  · rename_i large
    exact .inr (.inl ⟨fun formed => Nat.not_lt.mpr formed.small large, _, rfl, tooLarge⟩)
  rename_i small
  split
  · rename_i repeated
    refine .inr (.inl ⟨fun formed => ?_, _, rfl, other⟩)
    cases repeated.symm.trans (duplicateId_eq_none.mpr ⟨formed.distinct, by simp⟩)
  rename_i unique
  rcases countEdges_cases (dag.nodes.map DagNode.id) dag.edges _ initial with
    ⟨ends, countable, inDegree, ok, counts⟩ | ⟨loose, refusal, refused, invalid⟩ | ⟨many, overflow⟩
  · rw [ok]
    simp only [countOf_initial, Int.zero_add] at counts countable
    dsimp only
    split
    · rename_i unknown
      refine .inr (.inl ⟨fun formed => ?_, _, rfl, other⟩)
      cases unknown.symm.trans (List.findSome?_eq_none_iff.mpr fun node member =>
        unknownUpstream_eq_none.mpr (formed.upstreams node member))
    rename_i upstreams
    split
    · rename_i closed
      refine .inr (.inl ⟨fun formed => ?_, _, rfl, other⟩)
      cases closed.symm.trans ((start_iff counts).mpr formed.start)
    rename_i start
    split
    · rename_i closed
      refine .inr (.inl ⟨fun formed => ?_, _, rfl, other⟩)
      cases closed.symm.trans (finish_iff.mpr formed.finish)
    rename_i finish
    split
    · rename_i node long
      refine .inr (.inl ⟨fun formed => ?_, _, rfl, tooLong⟩)
      have short :=
        longCondition_eq_false.mpr (formed.conditions node (List.mem_of_find?_eq_some long))
      cases short.symm.trans (List.find?_some long)
    · rename_i short
      refine .inl ⟨?_, fun id => ?_, inDegree, counts, rfl⟩
      · exact {
          some_ := some_
          small := Nat.le_of_not_lt small
          distinct := (duplicateId_eq_none.mp unique).1
          ends := ends
          upstreams := fun node member => unknownUpstream_eq_none.mp
            (List.findSome?_eq_none_iff.mp upstreams node member)
          start := (start_iff counts).mp (Bool.eq_false_of_not_eq_true start)
          finish := finish_iff.mp (Bool.eq_false_of_not_eq_true finish)
          conditions := fun node member => longCondition_eq_false.mp
            (Bool.eq_false_of_not_eq_true (List.find?_eq_none.mp short node member)) }
      · exact_mod_cast countable id
  · rw [refused]
    refine .inr (.inl ⟨fun formed => loose formed.ends, refusal, rfl, ?_⟩)
    rw [invalid]
    exact other
  · rw [overflow]
    refine .inr (.inr ⟨fun countable => many fun id => ?_, rfl⟩)
    rw [countOf_initial, Int.zero_add]
    exact_mod_cast countable id

/-- Some nodes are left when the queue is empty exactly where there is a cycle. -/
theorem sorted_iff_acyclic (formed : dag.WellFormed) {inDegree : List (String × Int)}
    (counts : ∀ id, countOf inDegree id = edgesInto dag.edges id) :
    (topologicalOrder dag inDegree).length = (dag.nodes.map DagNode.id).length ↔ ¬ dag.Cyclic := by
  have known (ends : String × String) (member : ends ∈ dag.edges.map DagEdge.ends) :
      ends.1 ∈ dag.nodes.map DagNode.id ∧ ends.2 ∈ dag.nodes.map DagNode.id := by
    obtain ⟨edge, there, rfl⟩ := List.mem_map.mp member
    exact formed.ends edge there
  have paths : (fun a b => (a, b) ∈ dag.edges.map DagEdge.ends) = HasEdge dag := by
    funext a b
    exact propext mem_ends
  obtain ⟨sorted, left, last⟩ :=
    topologicalOrder_spec formed.distinct (fun edge member => (formed.ends edge member).2) counts
  have few := (sorted.distinct.subperm sorted.known).length_le
  rw [List.nil_append] at few
  constructor
  · rintro whole ⟨id, cycle⟩
    obtain ⟨all, along⟩ := sorted.order_spec (fun ends member => (known ends member).2)
      whole.ge
    rw [← paths] at cycle
    exact Kahn.acyclic_of_order (all.nodup_iff.mpr formed.distinct) along id cycle
  · intro acyclic
    by_contra short
    have stuck := lt_of_le_of_ne few short
    have cyclic := last.cyclic (fun _ ready => ready) (fun ends member => (known ends member).1) stuck
      formed.distinct
    rw [paths] at cyclic
    exact acyclic cyclic

/-- A graph is accepted exactly when it is well formed and has no cycle, as far as its edges can be
counted. -/
theorem accepted_iff (dag : TaskDag) :
    (∃ order, validateDag dag = .ok order) ↔ dag.WellFormed ∧ ¬ dag.Cyclic ∧ dag.Countable := by
  rcases validateDag_cases dag with ⟨formed, countable, inDegree, counts, outcome⟩ |
    ⟨malformed, refusal, outcome, -⟩ | ⟨many, outcome⟩
  · rw [outcome, ← sorted_iff_acyclic formed counts]
    by_cases whole : (topologicalOrder dag inDegree).length = (dag.nodes.map DagNode.id).length
    · simp only [whole, ne_eq, not_true_eq_false, if_false, formed, countable, and_self, iff_true]
      exact ⟨_, rfl⟩
    · simp only [whole, ne_eq, not_false_eq_true, if_true, false_and, and_false, iff_false]
      rintro ⟨order, ⟨⟩⟩
  · rw [outcome]
    simp [malformed]
  · rw [outcome]
    simp [many]

theorem cycle_refused {refusal : Refusal} (refused : validateDag dag = .error (.refused refusal))
    (cycle : refusal.errorCode = ErrorCodes.taskDagCycle) : dag.Cyclic := by
  rcases validateDag_cases dag with ⟨formed, -, inDegree, counts, outcome⟩ |
    ⟨-, other, outcome, different⟩ | ⟨-, outcome⟩
  · rw [outcome] at refused
    split_ifs at refused with short
    by_contra acyclic
    exact short ((sorted_iff_acyclic formed counts).mpr acyclic)
  · cases outcome.symm.trans refused
    exact absurd cycle different
  · cases outcome.symm.trans refused

/-- A graph is accepted exactly when it is well formed and has no cycle. The order it is given has
every node once and the source of an edge before its target, and no graph without a cycle is refused
for one. -/
structure TaskDag.Validated (dag : TaskDag) : Prop where
  accepted : (∃ order, validateDag dag = .ok order) ↔ dag.WellFormed ∧ ¬ dag.Cyclic
  ordered : ∀ order, validateDag dag = .ok order → order.Perm (dag.nodes.map DagNode.id) ∧
    ∀ edge ∈ dag.edges, Before order edge.source edge.target
  cycle : ∀ refusal, validateDag dag = .error (.refused refusal) →
    refusal.errorCode = ErrorCodes.taskDagCycle → dag.Cyclic

/-- A graph is judged rightly unless it could be accepted, but for a node into which there are more
edges than an `i32` counts. -/
theorem dag_validated_iff (dag : TaskDag) :
    dag.Validated ↔ (dag.WellFormed → ¬ dag.Cyclic → dag.Countable) := by
  constructor
  · intro validated formed acyclic
    exact ((accepted_iff dag).mp (validated.accepted.mpr ⟨formed, acyclic⟩)).2.2
  · intro countable
    refine ⟨(accepted_iff dag).trans ?_, ?_, ?_⟩
    · rw [← and_assoc, and_iff_left_iff_imp]
      exact fun good => countable good.1 good.2
    · exact fun order valid => (validateDag_accepted valid).order_spec
    · exact fun refusal refused cycle => cycle_refused refused cycle

end Validation

namespace ParallelEdges

def node (id : String) : DagNode := { id, action := "nwp://w/run", agent := "urn:nps:agent:ca:w" }

def dag (n : Nat) : TaskDag := { nodes := [node "a", node "b"], edges := List.replicate n ⟨"a", "b"⟩ }

theorem well_formed (n : Nat) : (dag n).WellFormed := by
  have same (edge : DagEdge) (member : edge ∈ (dag n).edges) : edge = ⟨"a", "b"⟩ :=
    List.eq_of_mem_replicate member
  have plain (node : DagNode) (member : node ∈ (dag n).nodes) :
      node.inputFrom = none ∧ node.condition = none := by
    rcases List.mem_pair.mp member with rfl | rfl <;> exact ⟨rfl, rfl⟩
  constructor
  · exact List.cons_ne_nil _ _
  · exact Nat.le_add_left 2 30
  · exact (by decide : ["a", "b"].Nodup)
  · intro edge member
    rw [same edge member]
    exact (by decide : "a" ∈ ["a", "b"] ∧ "b" ∈ ["a", "b"])
  · intro node member inputs given
    cases (plain node member).1.symm.trans given
  · refine ⟨node "a", List.mem_cons_self, fun edge member => ?_⟩
    rw [same edge member]
    exact (by decide : "b" ≠ "a")
  · refine ⟨node "b", List.mem_cons_of_mem _ List.mem_cons_self, fun edge member => ?_⟩
    rw [same edge member]
    exact (by decide : "a" ≠ "b")
  · intro node member condition given
    cases (plain node member).2.symm.trans given

theorem acyclic (n : Nat) : ¬ (dag n).Cyclic := by
  rintro ⟨id, cycle⟩
  obtain ⟨next, out, -⟩ := Relation.TransGen.head'_iff.mp cycle
  obtain ⟨last, -, back⟩ := Relation.TransGen.tail'_iff.mp cycle
  injection List.eq_of_mem_replicate out with source
  injection List.eq_of_mem_replicate back with _ target
  exact absurd (source.symm.trans target) (by decide)

theorem edges_counted (n : Nat) : edgesInto (dag n).edges "b" = n :=
  (List.countP_replicate ..).trans (if_pos rfl)

/-- With an edge more than an `i32` counts, the validation of the chain panics. -/
theorem overflows {n : Nat} (many : 2 ^ 31 ≤ n) : validateDag (dag n) = .error .overflow := by
  have uncountable (countable : (dag n).Countable) : False := by
    have few := countable "b"
    rw [edges_counted] at few
    exact Nat.not_lt.mpr many few
  rcases validateDag_cases (dag n) with ⟨-, countable, -⟩ | ⟨malformed, -⟩ | ⟨-, overflow⟩
  · exact (uncountable countable).elim
  · exact absurd (well_formed n) malformed
  · exact overflow

/-- The chain with 2³¹ parallel edges could be accepted, and is not. -/
theorem chain_panics : ¬ (dag (2 ^ 31)).Validated := by
  intro validated
  obtain ⟨order, accepted⟩ := validated.accepted.mpr ⟨well_formed _, acyclic _⟩
  cases (overflows (Nat.le_refl _)).symm.trans accepted

end ParallelEdges
end Nps.Nop
