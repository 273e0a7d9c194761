import NpsSdk.Lib.JsonNumber
import NpsSdk.Lib.JsonOrder
import NpsSdk.Lib.Kahn
import NpsSdk.Lib.Outcome

/-! How the portable profile reads its input; and the nodes of a portable task in their stable
topological order: of the nodes that are ready, the one with the least id comes first. -/
namespace Nps.Nop.PortableProfile
open Json

def field (value : Value) (key : String) : Option Value := value.asObject.bind (Json.get key)

def boolValue (value : Value) (key : String) (fallback : Bool) : Bool :=
  ((field value key).bind Value.asBool).getD fallback

def usizeValue (value : Value) (key : String) (fallback : Nat) : Nat :=
  ((field value key).bind Value.asU64).getD fallback

def asI64 : Value → Option Int
  | .number n => n.asI64
  | _ => none

def i64Value (value : Value) (key : String) (fallback : Int) : Int :=
  ((field value key).bind asI64).getD fallback

def stringValue (value : Value) (key : String) : Option String :=
  (field value key).bind Value.asStr

end Nps.Nop.PortableProfile

namespace Nps.Nop.PortableProfile
open Json Outcome

inductive Fault where
  | addition
  | subtraction
  /-- A map is indexed with a key that it does not have. -/
  | missing
  /-- The fuel given was not enough. -/
  | endless
deriving DecidableEq

abbrev Evaluating := Except Fault

def addUsize (a b : Nat) : Evaluating Nat := if a + b < 2 ^ 64 then .ok (a + b) else .error .addition

def subUsize (a b : Nat) : Evaluating Nat := if b ≤ a then .ok (a - b) else .error .subtraction

def readNodes : List Value → Fields → Option Fields
  | [], nodes => some nodes
  | node :: rest, nodes =>
    match stringValue node "id" with
    | none => none
    | some id =>
      match get id nodes with
      | some _ => none
      | none => readNodes rest (insert id node nodes)

def taskNodes (task : Value) : Option Fields :=
  ((field task "nodes").bind Value.asArray).bind (readNodes · [])

def nodeAt (nodes : Fields) (id : String) : Evaluating Value :=
  match get id nodes with
  | some node => .ok node
  | none => .error .missing

def dependencies (node : Value) : List String :=
  (((field node "depends_on").bind Value.asArray).map (·.filterMap Value.asStr)).getD []

def nodeIds (nodes : Fields) : List String := nodes.map Prod.fst

def edges (nodes : Fields) : List (String × String) :=
  nodes.flatMap fun entry => (dependencies entry.2).map fun dependency => (dependency, entry.1)

theorem readNodes_distinct {values : List Value} {nodes all : Fields} (distinct : (nodeIds nodes).Nodup)
    (read : readNodes values nodes = some all) : (nodeIds all).Nodup := by
  induction values generalizing nodes with
  | nil =>
    cases read
    exact distinct
  | cons node rest ih =>
    unfold readNodes at read
    cases named : stringValue node "id" with
    | none => simp [named] at read
    | some id =>
      cases known : get id nodes with
      | some old => simp [named, known] at read
      | none =>
        simp only [named, known] at read
        refine ih ?_ read
        have inserted : (nodeIds (insert id node nodes)).Perm (id :: nodeIds nodes) :=
          (insert_perm known node).map Prod.fst
        exact inserted.nodup_iff.mpr (List.nodup_cons.mpr ⟨get_eq_none.mp known, distinct⟩)

theorem taskNodes_distinct {task : Value} {nodes : Fields} (read : taskNodes task = some nodes) :
    (nodeIds nodes).Nodup := by
  obtain ⟨values, -, read⟩ := Option.bind_eq_some_iff.mp read
  have empty : (nodeIds []).Nodup := List.nodup_nil
  exact readNodes_distinct empty read

theorem nodeAt_ok {nodes : Fields} {id : String} (member : id ∈ nodeIds nodes) :
    ∃ node, get id nodes = some node ∧ nodeAt nodes id = .ok node := by
  unfold nodeAt
  cases found : get id nodes with
  | none => exact absurd member (get_eq_none.mp found)
  | some node => exact ⟨node, rfl, rfl⟩

theorem mem_edges {nodes : Fields} {id dependency : String} {node : Value}
    (found : get id nodes = some node) (member : dependency ∈ dependencies node) :
    (dependency, id) ∈ edges nodes :=
  List.mem_flatMap.mpr ⟨(id, node), mem_of_get found, List.mem_map_of_mem member⟩

theorem edges_target {nodes : Fields} {edge : String × String} (member : edge ∈ edges nodes) :
    edge.2 ∈ nodeIds nodes := by
  obtain ⟨entry, inside, made⟩ := List.mem_flatMap.mp member
  obtain ⟨dependency, -, rfl⟩ := List.mem_map.mp made
  exact List.mem_map_of_mem inside

/-- An ordered set of ids, with one more. -/
def insertId (id : String) : List String → List String
  | [] => [id]
  | other :: rest =>
    if keyLess id other then id :: other :: rest
    else if id = other then other :: rest
    else other :: insertId id rest

/-- Each of the nodes has one dependency less to wait for, and may be ready then. -/
def release : List String → List (String × Nat) → List String →
    Evaluating (Option (List (String × Nat) × List String))
  | [], indegree, ready => .ok (some (indegree, ready))
  | next :: rest, indegree, ready =>
    match get next indegree with
    | none => .ok none
    | some value => do
      let value ← subUsize value 1
      release rest (insert next value indegree) (if value = 0 then insertId next ready else ready)

def takeReady (edges : List (String × String)) : (fuel : Nat) → List (String × Nat) → List String →
    Evaluating (Option (List String))
  | 0, _, _ => .error .endless
  | _ + 1, _, [] => .ok (some [])
  | fuel + 1, indegree, id :: ready => do
    let nextValues := (Kahn.targets edges id).mergeSort fun a b => !keyLess b a
    match ← release nextValues indegree ready with
    | none => return none
    | some (indegree, ready) => return (← takeReady edges fuel indegree ready).map (id :: ·)

/-- The order of the nodes, none where a dependency is unknown or there is a cycle. -/
def stableTopology (nodes : Fields) : Evaluating (Option (List String)) :=
  let ids := nodeIds nodes
  let edges := edges nodes
  if edges.all fun edge => edge.1 ∈ ids then do
    let indegree := ids.map fun id => (id, Kahn.inDegree edges id)
    let ready := ids.filter fun id => Kahn.inDegree edges id = 0
    let order ← takeReady edges (nodes.length + 1) indegree ready
    return order.filter fun order => order.length = nodes.length
  else .ok none

def countOf (indegree : List (String × Nat)) (id : String) : Nat := (get id indegree).getD 0

section Release
variable {id next : String} {ready : List String} {indegree : List (String × Nat)}

theorem insertId_perm (fresh : id ∉ ready) : (insertId id ready).Perm (id :: ready) := by
  induction ready with
  | nil => exact .refl _
  | cons other rest ih =>
    obtain ⟨different, later⟩ := not_or.mp (mt List.mem_cons.mpr fresh)
    unfold insertId
    split
    · exact .refl _
    · exact ((ih later).cons other).trans (.swap ..)

def Queued (ready : List String) : Prop := ready.Pairwise fun a b => a.toList < b.toList

theorem insertId_queued (queued : Queued ready) (fresh : id ∉ ready) : Queued (insertId id ready) := by
  induction ready with
  | nil => exact List.pairwise_singleton _ _
  | cons other rest ih =>
    obtain ⟨different, later⟩ := not_or.mp (mt List.mem_cons.mpr fresh)
    obtain ⟨above, others⟩ := List.pairwise_cons.mp queued
    unfold insertId
    rw [if_neg different]
    split
    · rename_i less
      refine List.pairwise_cons.mpr ⟨fun next member => ?_, queued⟩
      have below := keyLess_iff.mp less
      rcases List.mem_cons.mp member with rfl | after
      · exact below
      · exact lt_trans below (above next after)
    · rename_i notLess
      refine List.pairwise_cons.mpr ⟨fun next member => ?_, ih others later⟩
      rcases List.mem_cons.mp ((insertId_perm later).mem_iff.mp member) with rfl | after
      · rcases lt_trichotomy other.toList next.toList with less | same | more
        · exact less
        · exact absurd (String.toList_inj.mp same).symm different
        · exact absurd (keyLess_iff.mpr more) notLess
      · exact above next after

theorem countOf_insert (value : Nat) :
    countOf (insert next value indegree) id = if id = next then value else countOf indegree id := by
  unfold countOf
  split
  · rename_i same
    rw [same, get_insert_self]
    rfl
  · rename_i different
    rw [get_insert_ne different]

/-- Every node loses as many as it is named, and is ready, in its place, if none is left. -/
theorem release_spec (nexts : List String) (indegree : List (String × Nat)) (ready : List String)
    (enough : ∀ id ∈ nexts, nexts.count id ≤ countOf indegree id) (distinct : ready.Nodup)
    (idle : ∀ id ∈ ready, countOf indegree id = 0) :
    ∃ indegree' ready', release nexts indegree ready = .ok (some (indegree', ready')) ∧
      (∀ id, countOf indegree' id = countOf indegree id - nexts.count id) ∧ ready'.Nodup ∧
      (∀ id, id ∈ ready' ↔ id ∈ ready ∨ id ∈ nexts ∧ countOf indegree' id = 0) ∧
      (Queued ready → Queued ready') := by
  induction nexts generalizing indegree ready with
  | nil => exact ⟨indegree, ready, rfl, fun id => by simp, distinct, fun id => by simp, fun queued => queued⟩
  | cons next rest ih =>
    have positive : 0 < countOf indegree next := by
      have all := enough next List.mem_cons_self
      rw [List.count_cons_self] at all
      omega
    have waiting : next ∉ ready := fun member => by
      have := idle next member
      omega
    obtain ⟨value, found, counted⟩ : ∃ value, get next indegree = some value ∧
        countOf indegree next = value := by
      unfold countOf at positive ⊢
      cases found : get next indegree with
      | none => simp [found] at positive
      | some value => exact ⟨value, rfl, rfl⟩
    have lowered : subUsize value 1 = .ok (value - 1) := if_pos (by omega)
    have counts : ∀ id, countOf (insert next (value - 1) indegree) id =
        countOf indegree id - if id = next then 1 else 0 := by
      intro id
      rw [countOf_insert]
      split
      · rename_i same
        rw [same, counted]
      · rfl
    have grown : ∀ id, id ∈ (if value - 1 = 0 then insertId next ready else ready) ↔
        id ∈ ready ∨ id = next ∧ value - 1 = 0 := by
      intro id
      split
      · rename_i last
        simp [(insertId_perm waiting).mem_iff, last, or_comm]
      · rename_i more
        simp [more]
    obtain ⟨indegree', ready', run, counts', distinct', ready_iff, queued'⟩ :=
      ih (insert next (value - 1) indegree) (if value - 1 = 0 then insertId next ready else ready)
        (by
          intro id member
          have all := enough id (List.mem_cons_of_mem _ member)
          rw [List.count_cons] at all
          rw [counts]
          by_cases same : id = next <;> simp_all <;> omega)
        (by
          split
          · exact (insertId_perm waiting).nodup_iff.mpr (List.nodup_cons.mpr ⟨waiting, distinct⟩)
          · exact distinct)
        (by
          intro id member
          rw [counts]
          rcases (grown id).mp member with old | ⟨same, last⟩
          · rw [idle id old, Nat.zero_sub]
          · rw [same, counted, if_pos rfl]
            exact last)
    have counted' : ∀ id, countOf indegree' id = countOf indegree id - (next :: rest).count id := by
      intro id
      rw [counts', counts, List.count_cons]
      by_cases same : id = next
      · simp only [same, beq_self_eq_true, if_true]
        omega
      · simp [same, Ne.symm same]
    refine ⟨indegree', ready', ?_, counted', distinct', ?_, fun queued => queued' ?_⟩
    · unfold release
      rw [found]
      simp only [lowered, ok_bind]
      exact run
    · intro id
      rw [ready_iff, grown, List.mem_cons, or_assoc, or_and_right]
      refine or_congr_right ?_
      by_cases same : id = next
      · have left := counted' next
        have all := enough next List.mem_cons_self
        rw [List.count_cons_self, counted] at left all
        subst same
        simp only [true_and]
        constructor
        · rintro (last | later)
          · left
            omega
          · exact .inr later
        · rintro (done | later)
          · by_cases again : id ∈ rest
            · exact .inr ⟨again, done⟩
            · rw [List.count_eq_zero.mpr again] at left all
              left
              omega
          · exact .inr later
      · simp [same]
    · split
      · exact insertId_queued queued waiting
      · exact queued

end Release

section Order
variable {ids popped ready : List String} {edges : List (String × String)}
  {indegree : List (String × Nat)}

/-- No count falls below zero, and the fuel lasts; in the end nothing is left that could be taken. -/
theorem takeReady_spec (ends : ∀ edge ∈ edges, edge.2 ∈ ids) {fuel : Nat}
    (progress : Kahn.Progress ids edges popped (countOf indegree) (· ∈ ready))
    (distinct : ready.Nodup) (enough : ids.length < fuel + popped.length) :
    ∃ out, takeReady edges fuel indegree ready = .ok (some out) ∧
      Kahn.Sorted ids edges popped out ∧
      (∃ left, Kahn.Progress ids edges (popped ++ out) left fun _ => False) ∧
      (Queued ready → Kahn.LeastFirst (fun a b => a.toList < b.toList) ids edges popped out) := by
  induction fuel generalizing popped indegree ready with
  | zero =>
    have few := (progress.distinct.subperm progress.known).length_le
    omega
  | succ fuel ih =>
    cases ready with
    | nil =>
      refine ⟨[], rfl, progress.sorted_nil, ⟨countOf indegree, ?_⟩, fun _ front id back same => by simp at same⟩
      rw [List.append_nil]
      simpa using progress
    | cons id ready =>
      have taken : id ∈ id :: ready := List.mem_cons_self
      obtain ⟨fresh, distinct⟩ := List.nodup_cons.mp distinct
      have sorted : ((Kahn.targets edges id).mergeSort fun a b => !keyLess b a).Perm
          (Kahn.targets edges id) := List.mergeSort_perm ..
      obtain ⟨indegree', ready', released, counts, distinct', ready_iff, queued'⟩ :=
        release_spec ((Kahn.targets edges id).mergeSort fun a b => !keyLess b a) indegree ready
          (by
            intro next member
            rw [sorted.count_eq]
            exact progress.enough taken (ends (id, next) (Kahn.mem_targets.mp (sorted.mem_iff.mp member))))
          distinct
          (by
            intro other member
            obtain ⟨known, -, closed⟩ := (progress.ready_iff other).mp (List.mem_cons_of_mem _ member)
            rw [progress.counts other known, closed])
      have progress' : Kahn.Progress ids edges (popped ++ [id]) (countOf indegree') (· ∈ ready') := by
        refine progress.pop taken ends (fun other _ => ?_) (fun other => ?_)
        · rw [counts, sorted.count_eq]
        · rw [ready_iff, sorted.mem_iff, List.mem_cons]
          refine or_congr_left ?_
          by_cases same : other = id
          · simp [same, fresh]
          · simp [same]
      obtain ⟨out, run, rest, ⟨left, last⟩, least⟩ := ih progress' distinct' (by
        rw [List.length_append, List.length_singleton]
        omega)
      refine ⟨id :: out, ?_, progress.sorted_cons taken rest, ⟨left, by simpa using last⟩, fun queued => ?_⟩
      · unfold takeReady
        simp only [released, ok_bind, run, pure_eq, Option.map_some]
      · obtain ⟨first, others⟩ := List.pairwise_cons.mp queued
        refine progress.least_cons (fun other waiting less => ?_) (least (queued' others))
        rcases List.mem_cons.mp waiting with rfl | after
        · exact lt_irrefl _ less
        · exact lt_asymm less (first other after)

end Order

section Accepted
variable {nodes : Fields} {topo : List String}

theorem get_tabulated (ids : List String) (f : String → Nat) (id : String) :
    get id (ids.map fun id => (id, f id)) = if id ∈ ids then some (f id) else none := by
  induction ids with
  | nil => rfl
  | cons first rest ih =>
    simp only [List.map_cons, Json.get, ih, List.mem_cons]
    by_cases same : id = first <;> simp [same]

/-- What holds of an accepted order: every node comes once, and what a node depends on comes before
it. -/
structure Ordered (nodes : Fields) (topo : List String) : Prop where
  all : topo.Perm (nodeIds nodes)
  before : ∀ source target, (source, target) ∈ edges nodes → Precedence.Before topo source target
  known : ∀ edge ∈ edges nodes, edge.1 ∈ nodeIds nodes

theorem takeReady_start (distinct : (nodeIds nodes).Nodup) :
    ∃ out, takeReady (edges nodes) (nodes.length + 1)
        ((nodeIds nodes).map fun id => (id, Kahn.inDegree (edges nodes) id))
        ((nodeIds nodes).filter fun id => Kahn.inDegree (edges nodes) id = 0) = .ok (some out) ∧
      Kahn.Sorted (nodeIds nodes) (edges nodes) [] out ∧
      (∃ left, Kahn.Progress (nodeIds nodes) (edges nodes) ([] ++ out) left fun _ => False) ∧
      (Queued ((nodeIds nodes).filter fun id => Kahn.inDegree (edges nodes) id = 0) →
        Kahn.LeastFirst (fun a b => a.toList < b.toList) (nodeIds nodes) (edges nodes) [] out) := by
  refine takeReady_spec (fun edge => edges_target) (.start ?_ ?_) (distinct.filter _) ?_
  · intro id member
    rw [countOf, get_tabulated, if_pos member]
    rfl
  · intro id
    simp
  · simp [nodeIds]

theorem stableTopology_total (distinct : (nodeIds nodes).Nodup) :
    ∃ order, stableTopology nodes = .ok order := by
  obtain ⟨out, run, -⟩ := takeReady_start distinct
  unfold stableTopology
  simp only [run, ok_bind]
  split
  · exact ⟨_, rfl⟩
  · exact ⟨_, rfl⟩

theorem stableTopology_ordered (distinct : (nodeIds nodes).Nodup)
    (accepted : stableTopology nodes = .ok (some topo)) : Ordered nodes topo := by
  obtain ⟨out, run, sorted, -⟩ := takeReady_start distinct
  unfold stableTopology at accepted
  simp only [run, ok_bind, pure_eq] at accepted
  split at accepted
  · rename_i known
    obtain ⟨same, whole⟩ := Option.filter_eq_some_iff.mp (Except.ok.inj accepted)
    obtain rfl := Option.some.inj same
    have length : (nodeIds nodes).length ≤ out.length := by
      rw [nodeIds, List.length_map]
      exact (of_decide_eq_true whole).ge
    obtain ⟨all, before⟩ := sorted.order_spec (fun edge => edges_target) length
    refine ⟨all, before, fun edge member => ?_⟩
    simpa using List.all_eq_true.mp known edge member
  · cases accepted

end Accepted
end Nps.Nop.PortableProfile
