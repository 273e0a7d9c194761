import NpsSdk.Lib.Kahn
import NpsSdk.Nop.Validation

/-! The order that validation gives the nodes of an accepted graph: every node once, and the
source of every edge before its target. -/
namespace Nps.Nop
open Json Precedence

def DagEdge.ends (edge : DagEdge) : String × String := (edge.source, edge.target)

def HasEdge (dag : TaskDag) (u v : String) : Prop := ⟨u, v⟩ ∈ dag.edges

def edgesInto (edges : List DagEdge) (id : String) : Nat := edges.countP (·.target = id)

section Ends
variable {edges : List DagEdge}

theorem mem_ends {u v : String} : (u, v) ∈ edges.map DagEdge.ends ↔ ⟨u, v⟩ ∈ edges := by
  constructor
  · intro member
    obtain ⟨⟨source, target⟩, there, same⟩ := List.mem_map.mp member
    cases same
    exact there
  · exact List.mem_map_of_mem

theorem targets_ends (id : String) : Kahn.targets (edges.map DagEdge.ends) id = neighbors edges id := by
  unfold Kahn.targets neighbors
  rw [List.filter_map, List.map_map]
  rfl

theorem edgesInto_ends (id : String) :
    Kahn.inDegree (edges.map DagEdge.ends) id = edgesInto edges id := by
  unfold Kahn.inDegree edgesInto
  rw [List.countP_map]
  rfl

theorem edgesInto_cons (edge : DagEdge) (id : String) : edgesInto (edge :: edges) id =
    edgesInto edges id + if id = edge.target then 1 else 0 := by
  unfold edgesInto
  rw [List.countP_cons]
  by_cases same : id = edge.target <;> simp [same, Ne.symm]

end Ends

section Counting
variable {ids : List String} {edges : List DagEdge} {counts counted : List (String × Int)}

theorem countOf_insert (target : String) (d : Int) (id : String) :
    countOf (insert target d counts) id = if id = target then d else countOf counts id := by
  unfold countOf
  split_ifs with same
  · rw [same, get_insert_self]
    rfl
  · rw [get_insert_ne same]

theorem countOf_initial (ids : List String) (id : String) :
    countOf (sortEntries (ids.map fun id => (id, 0))) id = 0 := by
  unfold countOf
  rw [get_sortEntries]
  cases found : get id (ids.map fun id => (id, (0 : Int))) with
  | none => rfl
  | some d =>
    obtain ⟨key, -, same⟩ := List.mem_map.mp (mem_of_get found)
    cases same
    rfl

/-- Edges are counted until one joins no nodes or is one too many for an `i32`. -/
theorem countEdges_cases (ids : List String) (edges : List DagEdge) (counts : List (String × Int))
    (small : ∀ id, countOf counts id < 2 ^ 31) :
    ((∀ edge ∈ edges, edge.source ∈ ids ∧ edge.target ∈ ids) ∧
      (∀ id, countOf counts id + edgesInto edges id < 2 ^ 31) ∧
      ∃ counted, countEdges ids edges counts = .ok counted ∧
        ∀ id, countOf counted id = countOf counts id + edgesInto edges id) ∨
    (¬ (∀ edge ∈ edges, edge.source ∈ ids ∧ edge.target ∈ ids) ∧ ∃ refusal,
      countEdges ids edges counts = .error (.refused refusal) ∧
      refusal.errorCode = ErrorCodes.taskDagInvalid) ∨
    (¬ ∀ id, countOf counts id + edgesInto edges id < 2 ^ 31) ∧
      countEdges ids edges counts = .error .overflow := by
  induction edges generalizing counts with
  | nil =>
    refine .inl ⟨by simp, fun id => ?_, counts, rfl, fun id => ?_⟩
    · simpa [edgesInto] using small id
    · simp [edgesInto]
  | cons edge rest ih =>
    simp only [List.forall_mem_cons]
    unfold countEdges
    by_cases source : edge.source ∈ ids
    · by_cases target : edge.target ∈ ids
      · rw [if_neg (not_not.mpr source), if_neg (not_not.mpr target)]
        dsimp only
        by_cases fits : countOf counts edge.target + 1 < 2 ^ 31
        · rw [if_pos fits]
          have moved (id : String) : countOf counts id + edgesInto (edge :: rest) id =
              countOf (insert edge.target (countOf counts edge.target + 1) counts) id +
                edgesInto rest id := by
            rw [countOf_insert, edgesInto_cons]
            split_ifs with same
            · subst same
              push_cast
              omega
            · simp
          have small' (id : String) :
              countOf (insert edge.target (countOf counts edge.target + 1) counts) id < 2 ^ 31 := by
            rw [countOf_insert]
            split_ifs
            · exact fits
            · exact small id
          simp only [moved, source, target, and_self, true_and]
          exact ih _ small'
        · rw [if_neg fits]
          refine .inr (.inr ⟨fun all => ?_, rfl⟩)
          have one := all edge.target
          rw [edgesInto_cons, if_pos rfl] at one
          push_cast at one
          omega
      · rw [if_neg (not_not.mpr source), if_pos target]
        exact .inr (.inl ⟨fun all => target all.1.2, _, rfl, rfl⟩)
    · rw [if_pos source]
      exact .inr (.inl ⟨fun all => source all.1.1, _, rfl, rfl⟩)

end Counting

section Queue
variable {remaining : List (String × Int)} {queue ids popped : List String} {edges : List DagEdge}
  {count : String → Nat}

theorem release_count (neighbor id : String) :
    countOf (release (remaining, queue) neighbor).1 id =
      countOf remaining id - if id = neighbor then 1 else 0 := by
  unfold release
  dsimp only
  rw [countOf_insert]
  split_ifs with same
  · rw [same]
  · rw [Int.sub_zero]

theorem mem_release_queue (neighbor id : String) : id ∈ (release (remaining, queue) neighbor).2 ↔
    id ∈ queue ∨ id = neighbor ∧ countOf remaining neighbor = 1 := by
  have last : countOf remaining neighbor - 1 = 0 ↔ countOf remaining neighbor = 1 := by
    omega
  unfold release
  dsimp only
  rw [← last]
  split_ifs with done <;> simp [done]

/-- Every node loses as many edges as it is named, and is queued when it loses the last. -/
theorem release_all (nexts : List String) (counted : ∀ id, countOf remaining id = count id)
    (enough : ∀ id, nexts.count id ≤ count id) (idle : ∀ id ∈ queue, count id = 0)
    (distinct : queue.Nodup) :
    (∀ id, countOf (nexts.foldl release (remaining, queue)).1 id =
      (count id - nexts.count id : Nat)) ∧
    (nexts.foldl release (remaining, queue)).2.Nodup ∧
    ∀ id, id ∈ (nexts.foldl release (remaining, queue)).2 ↔
      id ∈ queue ∨ id ∈ nexts ∧ count id - nexts.count id = 0 := by
  induction nexts generalizing remaining queue count with
  | nil => exact ⟨by simpa using counted, distinct, by simp⟩
  | cons next rest ih =>
    have named (id : String) : (next :: rest).count id =
        rest.count id + if id = next then 1 else 0 := by
      rw [List.count_cons]
      by_cases same : id = next <;> simp [same, Ne.symm]
    have positive : 0 < count next := by
      have all := enough next
      rw [List.count_cons_self] at all
      omega
    have waiting : next ∉ queue := fun member => by
      have := idle next member
      omega
    have queued (id : String) : id ∈ (release (remaining, queue) next).2 ↔
        id ∈ queue ∨ id = next ∧ count next = 1 := by
      rw [mem_release_queue, counted]
      norm_cast
    have counted' (id : String) : countOf (release (remaining, queue) next).1 id =
        (count id - if id = next then 1 else 0 : Nat) := by
      rw [release_count, counted]
      split_ifs with same
      · subst same
        omega
      · simp
    have enough' (id : String) : rest.count id ≤ count id - if id = next then 1 else 0 := by
      have all := enough id
      rw [named] at all
      omega
    have idle' (id : String) (member : id ∈ (release (remaining, queue) next).2) :
        (count id - if id = next then 1 else 0) = 0 := by
      rcases (queued id).mp member with old | ⟨rfl, last⟩
      · rw [idle id old, Nat.zero_sub]
      · rw [if_pos rfl, last]
    have nodup : (release (remaining, queue) next).2.Nodup := by
      unfold release
      dsimp only
      split
      · refine distinct.append (List.nodup_singleton next) ?_
        simpa using waiting
      · exact distinct
    obtain ⟨counts, distinct', reached⟩ := ih counted' enough' idle' nodup
    refine ⟨fun id => ?_, distinct', fun id => ?_⟩
    · rw [List.foldl_cons, counts, named, Nat.sub_sub, Nat.add_comm]
    · rw [List.foldl_cons, reached, queued, named, List.mem_cons]
      by_cases same : id = next
      · subst same
        have all := enough' id
        simp only [if_true, true_and, true_or, waiting, false_or] at all ⊢
        by_cases again : id ∈ rest
        · simp only [again, true_and]
          omega
        · rw [List.count_eq_zero.mpr again]
          simp only [again, false_and, or_false]
          omega
      · simp [same]

/-- What the queue puts out is sorted, and in the end nothing is left that has no open edges. -/
theorem kahn_spec (known : ∀ edge ∈ edges.map DagEdge.ends, edge.2 ∈ ids) (fuel : Nat)
    (progress : Kahn.Progress ids (edges.map DagEdge.ends) popped count (· ∈ queue))
    (counted : ∀ id, countOf remaining id = count id)
    (outside : ∀ id, id ∉ ids → count id = 0) (distinct : queue.Nodup)
    (enough : ids.length ≤ fuel + popped.length) :
    Kahn.Sorted ids (edges.map DagEdge.ends) popped (kahn edges fuel remaining queue) ∧
      ∃ left, Kahn.Progress ids (edges.map DagEdge.ends)
        (popped ++ kahn edges fuel remaining queue) left (fun _ => False) := by
  have idle {popped queue : List String} {count : String → Nat} (progress : Kahn.Progress ids
      (edges.map DagEdge.ends) popped count (· ∈ queue)) (none_ : ∀ id, id ∉ queue) :
      Kahn.Progress ids (edges.map DagEdge.ends) (popped ++ []) count (fun _ => False) := by
    have empty : (· ∈ queue) = fun _ => False := funext fun id => eq_false (none_ id)
    rw [List.append_nil, ← empty]
    exact progress
  induction fuel generalizing popped remaining queue count with
  | zero =>
    rw [Nat.zero_add] at enough
    exact ⟨progress.sorted_nil, count, idle progress fun id => progress.done enough⟩
  | succ fuel ih =>
    cases queue with
    | nil => exact ⟨progress.sorted_nil, count, idle progress fun id => List.not_mem_nil⟩
    | cons current queue =>
      have taken : current ∈ current :: queue := List.mem_cons_self
      obtain ⟨fresh, distinct⟩ := List.nodup_cons.mp distinct
      have most (id : String) : (neighbors edges current).count id ≤ count id := by
        by_cases member : id ∈ ids
        · rw [← targets_ends]
          exact progress.enough taken member
        · rw [List.count_eq_zero.mpr fun pointed => member ?_]
          · exact Nat.zero_le _
          · rw [← targets_ends, Kahn.mem_targets] at pointed
            exact known _ pointed
      have closed (id : String) (member : id ∈ queue) : count id = 0 := by
        obtain ⟨inside, -, closed⟩ := (progress.ready_iff id).mp (List.mem_cons_of_mem _ member)
        rw [progress.counts id inside, closed]
      obtain ⟨counted', distinct', queued⟩ := release_all (neighbors edges current) counted most
        closed distinct
      have progress' : Kahn.Progress ids (edges.map DagEdge.ends) (popped ++ [current])
          (fun id => count id - (neighbors edges current).count id)
          (· ∈ ((neighbors edges current).foldl release (remaining, queue)).2) := by
        refine progress.pop taken known (fun id _ => ?_) (fun id => ?_)
        · rw [targets_ends]
        · rw [queued, targets_ends, List.mem_cons]
          refine or_congr_left ?_
          by_cases same : id = current
          · simp [same, fresh]
          · simp [same]
      have shift (out : List String) : popped ++ [current] ++ out = popped ++ current :: out := by
        simp
      obtain ⟨sorted, left, last⟩ := ih progress' counted'
        (fun id foreign => by rw [outside id foreign, Nat.zero_sub]) distinct' (by
          rw [List.length_append, List.length_singleton]
          omega)
      rw [shift] at last
      exact ⟨progress.sorted_cons taken sorted, left, last⟩

end Queue

section Accepted
variable {dag : TaskDag} {order : List String}


theorem unknownUpstream_none {ids : List String} {node : DagNode}
    (known : unknownUpstream ids node = none) : ∀ dep ∈ node.inputFrom.getD [], dep ∈ ids := by
  have missing := List.find?_eq_none.mp (Option.map_eq_none_iff.mp known)
  intro dep member
  simpa using missing dep member

variable (dag order) in
/-- What validation has made sure of. -/
structure Accepted : Prop where
  distinct : (dag.nodes.map DagNode.id).Nodup
  ends : ∀ edge ∈ dag.edges,
    edge.source ∈ dag.nodes.map DagNode.id ∧ edge.target ∈ dag.nodes.map DagNode.id
  upstreams : ∀ node ∈ dag.nodes, ∀ dep ∈ node.inputFrom.getD [], dep ∈ dag.nodes.map DagNode.id
  sorted : ∃ inDegree, (∀ id, countOf inDegree id = edgesInto dag.edges id) ∧
    order = topologicalOrder dag inDegree
  whole : order.length = (dag.nodes.map DagNode.id).length

theorem validateDag_accepted (valid : validateDag dag = .ok order) : Accepted dag order := by
  have distinct := validateDag_nodup valid
  cases unique : duplicateId [] dag.nodes with
  | some id =>
    simp only [validateDag, unique] at valid
    split_ifs at valid
  | none =>
    rcases countEdges_cases (dag.nodes.map DagNode.id) dag.edges
        (sortEntries ((dag.nodes.map DagNode.id).map fun id => (id, 0)))
        (fun id => by rw [countOf_initial]; decide) with
      ⟨ends, -, inDegree, ok, counts⟩ | ⟨-, refusal, refused, -⟩ | ⟨-, overflow⟩
    · cases upstreams : dag.nodes.findSome? (unknownUpstream (dag.nodes.map DagNode.id)) with
      | some message =>
        simp only [validateDag, unique, ok, upstreams] at valid
        split_ifs at valid
      | none =>
        cases long : dag.nodes.find? longCondition with
        | some node =>
          simp only [validateDag, unique, ok, upstreams, long] at valid
          split_ifs at valid
        | none =>
          simp only [validateDag, unique, ok, upstreams, long] at valid
          split_ifs at valid with _ _ _ _ whole
          cases valid
          refine ⟨distinct, ends, fun node member => ?_, ⟨inDegree, fun id => ?_, rfl⟩,
            not_not.mp whole⟩
          · exact unknownUpstream_none (List.findSome?_eq_none_iff.mp upstreams node member)
          · rw [counts, countOf_initial, Int.zero_add]
    · simp only [validateDag, unique, refused] at valid
      split_ifs at valid
    · simp only [validateDag, unique, overflow] at valid
      split_ifs at valid

theorem topologicalOrder_spec (distinct : (dag.nodes.map DagNode.id).Nodup)
    (known : ∀ edge ∈ dag.edges, edge.target ∈ dag.nodes.map DagNode.id)
    {inDegree : List (String × Int)}
    (counts : ∀ id, countOf inDegree id = edgesInto dag.edges id) :
    Kahn.Sorted (dag.nodes.map DagNode.id) (dag.edges.map DagEdge.ends) []
        (topologicalOrder dag inDegree) ∧
      ∃ left, Kahn.Progress (dag.nodes.map DagNode.id) (dag.edges.map DagEdge.ends)
        (topologicalOrder dag inDegree) left (fun _ => False) := by
  have outside (id : String) (foreign : id ∉ dag.nodes.map DagNode.id) : edgesInto dag.edges id = 0 := by
    refine List.countP_eq_zero.mpr fun edge there target => ?_
    exact foreign (of_decide_eq_true target ▸ known edge there)
  refine kahn_spec ?_ _ (.start (fun id _ => (edgesInto_ends id).symm) fun id => ?_) counts
    outside (distinct.filter _) (Nat.le_refl _)
  · intro ends member
    obtain ⟨edge, there, rfl⟩ := List.mem_map.mp member
    exact known edge there
  · rw [edgesInto_ends, List.mem_filter, decide_eq_true_eq, counts, Int.natCast_eq_zero]

/-- The order of an accepted graph has every node once, and the source of an edge before its
target. -/
theorem Accepted.order_spec (accepted : Accepted dag order) :
    order.Perm (dag.nodes.map DagNode.id) ∧
      ∀ edge ∈ dag.edges, Before order edge.source edge.target := by
  have known (edge : DagEdge) (member : edge ∈ dag.edges) : edge.target ∈ dag.nodes.map DagNode.id :=
    (accepted.ends edge member).2
  obtain ⟨inDegree, counts, same⟩ := accepted.sorted
  have sorted := (topologicalOrder_spec accepted.distinct known counts).1
  rw [← same] at sorted
  have targets (ends : String × String) (member : ends ∈ dag.edges.map DagEdge.ends) :
      ends.2 ∈ dag.nodes.map DagNode.id := by
    obtain ⟨edge, there, rfl⟩ := List.mem_map.mp member
    exact known edge there
  obtain ⟨all, before⟩ := sorted.order_spec targets accepted.whole.ge
  exact ⟨all, fun edge member => before _ _ (mem_ends.mpr member)⟩

/-- Along edges the order of an accepted graph is one of dependency. -/
theorem order_along_edges (accepted : Accepted dag order) {u v : String}
    (chain : Relation.TransGen (HasEdge dag) u v) : Before order u v := by
  obtain ⟨all, along⟩ := accepted.order_spec
  exact Kahn.before_of_path (all.nodup_iff.mpr accepted.distinct) (fun _ _ => along ⟨_, _⟩) chain

end Accepted
end Nps.Nop
