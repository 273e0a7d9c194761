import NpsSdk.Nop.PortableProfile.Topology

/-! When the nodes of a portable task have a stable topological order, and which one it is. -/
namespace Nps.Nop.PortableProfile
open Json Outcome

def Needs (nodes : Fields) (dependency id : String) : Prop :=
  ∃ node, get id nodes = some node ∧ dependency ∈ dependencies node

def Known (nodes : Fields) : Prop := ∀ dependency id, Needs nodes dependency id → dependency ∈ nodeIds nodes

/-- No node depends on itself, directly or not. -/
def Acyclic (nodes : Fields) : Prop := ∀ id, ¬ Relation.TransGen (Needs nodes) id id

/-- Every node once, what it depends on before it, and at every position the least id of those whose
dependencies have all come before. -/
structure StableOrder (nodes : Fields) (topo : List String) : Prop where
  all : topo.Perm (nodeIds nodes)
  after : ∀ front id back, topo = front ++ id :: back →
    ∀ dependency, Needs nodes dependency id → dependency ∈ front
  least : ∀ front id back, topo = front ++ id :: back → ∀ other ∈ nodeIds nodes, other ∉ front →
    (∀ dependency, Needs nodes dependency other → dependency ∈ front) → ¬ other.toList < id.toList

section Orders
variable {nodes : Fields} {topo : List String}

theorem needs_iff (distinct : (nodeIds nodes).Nodup) {dependency id : String} :
    Needs nodes dependency id ↔ (dependency, id) ∈ edges nodes := by
  constructor
  · rintro ⟨node, found, member⟩
    exact mem_edges found member
  · intro member
    obtain ⟨entry, inside, made⟩ := List.mem_flatMap.mp member
    obtain ⟨other, there, same⟩ := List.mem_map.mp made
    cases same
    exact ⟨entry.2, (get_eq_some distinct).mpr inside, there⟩

/-- The stable orders are those that the sort puts out when it puts out all nodes. -/
theorem stableOrder_iff (distinct : (nodeIds nodes).Nodup) : StableOrder nodes topo ↔
    topo.length = nodes.length ∧ Kahn.Sorted (nodeIds nodes) (edges nodes) [] topo ∧
      Kahn.LeastFirst (fun a b => a.toList < b.toList) (nodeIds nodes) (edges nodes) [] topo := by
  simp only [Kahn.LeastFirst, List.nil_append, ← needs_iff distinct]
  constructor
  · rintro ⟨all, after, least⟩
    refine ⟨all.length_eq.trans (List.length_map _), ⟨?_, ?_, ?_⟩, least⟩
    · exact all.nodup_iff.mpr distinct
    · exact fun id member => all.mem_iff.mp member
    · simpa only [List.nil_append, ← needs_iff distinct] using after
  · rintro ⟨length, sorted, least⟩
    have whole : (nodeIds nodes).length ≤ topo.length := by rw [length, nodeIds, List.length_map]
    refine ⟨(sorted.order_spec (fun edge => edges_target) whole).1, ?_, least⟩
    simpa only [List.nil_append, ← needs_iff distinct] using sorted.after

theorem StableOrder.acyclic (distinct : (nodeIds nodes).Nodup) (stable : StableOrder nodes topo) :
    Known nodes ∧ Acyclic nodes := by
  have before : ∀ dependency id, Needs nodes dependency id → Precedence.Before topo dependency id := by
    intro dependency id needs
    have member := edges_target ((needs_iff distinct).mp needs)
    obtain ⟨front, back, same⟩ := List.append_of_mem (stable.all.mem_iff.mpr member)
    exact Precedence.before_iff.mpr ⟨front, back, same, stable.after front id back same dependency needs⟩
  constructor
  · intro dependency id needs
    exact stable.all.mem_iff.mp (before dependency id needs).left
  · exact Kahn.acyclic_of_order (stable.all.nodup_iff.mpr distinct) before

theorem StableOrder.unique (distinct : (nodeIds nodes).Nodup) {other : List String}
    (stable : StableOrder nodes topo) (stable' : StableOrder nodes other) : topo = other := by
  obtain ⟨length, sorted, least⟩ := (stableOrder_iff distinct).mp stable
  obtain ⟨length', sorted', least'⟩ := (stableOrder_iff distinct).mp stable'
  refine least.unique (fun a b notLess notMore => ?_) (length.trans length'.symm) sorted least' sorted'
  exact String.toList_inj.mp (le_antisymm (not_lt.mp notMore) (not_lt.mp notLess))

/-- Where all dependencies are nodes and none of them goes round, the sort does not get stuck. -/
theorem stableTopology_some (ascending : Ascending nodes) (known : Known nodes) (acyclic : Acyclic nodes) :
    ∃ topo, stableTopology nodes = .ok (some topo) ∧ StableOrder nodes topo := by
  have distinct : (nodeIds nodes).Nodup := ascending.distinct
  have sources : ∀ edge ∈ edges nodes, edge.1 ∈ nodeIds nodes := by
    rintro ⟨dependency, id⟩ member
    exact known dependency id ((needs_iff distinct).mpr member)
  obtain ⟨out, run, sorted, ⟨left, last⟩, least⟩ := takeReady_start distinct
  have queued : Queued (nodeIds nodes) := List.pairwise_map.mpr ascending
  have whole : out.length = nodes.length := by
    have most := (sorted.distinct.subperm sorted.known).length_le
    rw [nodeIds, List.length_map] at most
    refine le_antisymm most (Nat.le_of_not_lt fun stuck => ?_)
    rw [List.nil_append] at last
    obtain ⟨id, cycle⟩ := last.cyclic (fun _ ready => ready) sources
      (by rwa [nodeIds, List.length_map]) distinct
    have needs : (fun a b => (a, b) ∈ edges nodes) ≤ Needs nodes :=
      fun a b member => (needs_iff distinct).mpr member
    exact acyclic id (Relation.TransGen.mono needs id id cycle)
  have ends : (edges nodes).all (fun edge => edge.1 ∈ nodeIds nodes) = true :=
    List.all_eq_true.mpr fun edge member => decide_eq_true (sources edge member)
  refine ⟨out, ?_, (stableOrder_iff distinct).mpr ⟨whole, sorted, least (queued.filter _)⟩⟩
  unfold stableTopology
  simp only [ends, if_true, run, ok_bind, pure_eq, Option.filter_some, whole, decide_true]

end Orders

theorem insert_comm {α : Type} {entries : List (String × α)} (ascending : Ascending entries)
    {a b : String} (different : a ≠ b) (x y : α) :
    insert a x (insert b y entries) = insert b y (insert a x entries) := by
  refine ((ascending.insert b y).insert a x).ext ((ascending.insert a x).insert b y) fun key => ?_
  by_cases first : key = a
  · subst first
    rw [get_insert_self, get_insert_ne different, get_insert_self]
  · by_cases second : key = b
    · subst second
      rw [get_insert_ne first, get_insert_self, get_insert_self]
    · rw [get_insert_ne first, get_insert_ne second, get_insert_ne second, get_insert_ne first]

/-- The map of the nodes does not tell in which order they were listed. -/
theorem readNodes_perm {values values' : List Value} (perm : values.Perm values') {nodes : Fields}
    (ascending : Ascending nodes) : readNodes values nodes = readNodes values' nodes := by
  induction perm generalizing nodes with
  | nil => rfl
  | cons node _ ih =>
    unfold readNodes
    cases stringValue node "id" with
    | none => rfl
    | some id =>
      dsimp only
      cases get id nodes with
      | some old => rfl
      | none => exact ih (ascending.insert id node)
  | swap first second rest =>
    simp only [readNodes]
    cases stringValue first "id" with
    | none =>
      cases stringValue second "id" with
      | none => rfl
      | some b =>
        dsimp only
        cases get b nodes <;> rfl
    | some a =>
      cases stringValue second "id" with
      | none =>
        dsimp only
        cases get a nodes <;> rfl
      | some b =>
        dsimp only
        by_cases same : a = b
        · subst same
          simp only [get_insert_self]
        · simp only [get_insert_ne same, get_insert_ne (Ne.symm same),
            insert_comm ascending same first second]
          cases get a nodes <;> cases get b nodes <;> rfl
  | trans _ _ ih ih' => exact (ih ascending).trans (ih' ascending)

/-- A task has a stable order exactly if its dependencies are nodes and none of them goes round; it
is the only one, and its nodes may be listed in any order. -/
theorem stable_topology_spec {nodes : Fields} (ascending : Ascending nodes) :
    (∃ order, stableTopology nodes = .ok order) ∧
    ((∃ topo, stableTopology nodes = .ok (some topo)) ↔ Known nodes ∧ Acyclic nodes) ∧
    (∀ topo, stableTopology nodes = .ok (some topo) ↔ StableOrder nodes topo) ∧
    (∀ topo other, StableOrder nodes topo → StableOrder nodes other → topo = other) ∧
    ∀ values values', readNodes values [] = some nodes → values'.Perm values →
      readNodes values' [] = some nodes := by
  have distinct : (nodeIds nodes).Nodup := ascending.distinct
  have stable : ∀ topo, stableTopology nodes = .ok (some topo) ↔ StableOrder nodes topo := by
    intro topo
    constructor
    · intro accepted
      obtain ⟨all, before, known⟩ := stableTopology_ordered distinct accepted
      have acyclic := Kahn.acyclic_of_order (all.nodup_iff.mpr distinct) fun dependency id needs =>
        before dependency id ((needs_iff distinct).mp needs)
      have nodesOnly : Known nodes := fun dependency id needs =>
        known (dependency, id) ((needs_iff distinct).mp needs)
      obtain ⟨out, run, stable⟩ := stableTopology_some ascending nodesOnly acyclic
      obtain rfl := Option.some.inj (Except.ok.inj (run.symm.trans accepted))
      exact stable
    · intro stable
      obtain ⟨known, acyclic⟩ := stable.acyclic distinct
      obtain ⟨out, run, stable'⟩ := stableTopology_some ascending known acyclic
      rw [stable.unique distinct stable']
      exact run
  refine ⟨stableTopology_total distinct, ⟨?_, ?_⟩, stable, fun topo other => StableOrder.unique distinct, ?_⟩
  · rintro ⟨topo, accepted⟩
    exact ((stable topo).mp accepted).acyclic distinct
  · rintro ⟨known, acyclic⟩
    obtain ⟨topo, run, -⟩ := stableTopology_some ascending known acyclic
    exact ⟨topo, run⟩
  · intro values values' read perm
    rw [readNodes_perm perm List.Pairwise.nil]
    exact read

namespace Chain

def nodes : Fields :=
  [("charge", .object [("depends_on", .array [.string "reserve"])]), ("reserve", .object [])]

theorem reserve_first : StableOrder nodes ["reserve", "charge"] := by
  have ascending : Ascending nodes := List.pairwise_pair.mpr (by decide)
  have last : takeReady (edges nodes) 2 [("charge", 0), ("reserve", 0)] ["charge"] =
      .ok (some ["charge"]) := by
    have none_ : Kahn.targets (edges nodes) "charge" = [] := rfl
    rw [takeReady, none_, List.mergeSort_nil]
    rfl
  have both : takeReady (edges nodes) 3 [("charge", 1), ("reserve", 0)] ["reserve"] =
      .ok (some ["reserve", "charge"]) := by
    have targets : Kahn.targets (edges nodes) "reserve" = ["charge"] := rfl
    rw [takeReady, targets, List.mergeSort_singleton]
    change (takeReady (edges nodes) 2 [("charge", 0), ("reserve", 0)] ["charge"] >>= _) = _
    rw [last]
    rfl
  have accepted : stableTopology nodes = .ok (some ["reserve", "charge"]) := by
    change (takeReady (edges nodes) 3 [("charge", 1), ("reserve", 0)] ["reserve"] >>= _) = _
    rw [both]
    rfl
  exact ((stable_topology_spec ascending).2.2.1 _).mp accepted

end Chain
end Nps.Nop.PortableProfile
