import Mathlib.Algebra.Group.Nat.Defs
import Mathlib.Data.Fintype.Card
import Mathlib.Data.Fintype.EquivFin
import Mathlib.Data.Fintype.Sets
import Mathlib.Data.List.Nodup
import Mathlib.Data.List.Perm.Subperm
import Mathlib.Logic.Relation

/-! Sorting the nodes of a graph topologically by taking away one node without open edges after the
other. Edges are pairs of a source and a target. -/
namespace Precedence
variable {α β : Type} {l m : List α} {a b c : α}

def Before (l : List α) (a b : α) : Prop := [a, b].Sublist l

theorem before_iff : Before l a b ↔ ∃ front back, l = front ++ b :: back ∧ a ∈ front := by
  constructor
  · intro before
    have both : ([a] ++ [b]).Sublist l := before
    obtain ⟨first, rest, rfl, left, right⟩ := List.append_sublist_iff.mp both
    obtain ⟨middle, back, rfl⟩ := List.append_of_mem (List.singleton_sublist.mp right)
    refine ⟨first ++ middle, back, (List.append_assoc ..).symm, ?_⟩
    exact List.mem_append_left _ (List.singleton_sublist.mp left)
  · rintro ⟨front, back, rfl, member⟩
    have left : [a].Sublist front := List.singleton_sublist.mpr member
    have right : [b].Sublist (b :: back) := List.singleton_sublist.mpr List.mem_cons_self
    exact left.append right

theorem Before.left (before : Before l a b) : a ∈ l := before.subset List.mem_cons_self

theorem Before.mono (before : Before l a b) (sub : l.Sublist m) : Before m a b :=
  List.Sublist.trans before sub

theorem Before.filter (before : Before l a b) {keep : α → Bool} (left : keep a = true)
    (right : keep b = true) : Before (l.filter keep) a b := by
  have kept : ([a, b].filter keep).Sublist (l.filter keep) := List.Sublist.filter keep before
  rwa [List.filter_cons_of_pos left, List.filter_cons_of_pos right] at kept

theorem Before.map (before : Before l a b) (f : α → β) : Before (l.map f) (f a) (f b) :=
  List.Sublist.map f before

@[simp] theorem before_reverse : Before l.reverse a b ↔ Before l b a := by
  change ([b, a].reverse).Sublist l.reverse ↔ _
  exact List.reverse_sublist

theorem Before.ne (before : Before l a b) (distinct : l.Nodup) : a ≠ b := by
  have pair := distinct.sublist before
  simpa using pair

theorem Before.trans (first : Before l a b) (second : Before l b c) (distinct : l.Nodup) :
    Before l a c := by
  obtain ⟨front, back, rfl, member⟩ := before_iff.mp first
  have later : c ∈ back := by
    have front_lacks : b ∉ front := fun early =>
      List.disjoint_of_nodup_append distinct early List.mem_cons_self
    obtain ⟨front', back', same, member'⟩ := before_iff.mp second
    rcases List.append_eq_append_iff.mp same with ⟨middle, rfl, tail⟩ | ⟨middle, rfl, tail⟩
    · cases middle with
      | nil =>
        rw [List.append_nil] at member'
        exact absurd member' front_lacks
      | cons head middle =>
        cases tail
        simp
    · exact absurd (List.mem_append_left _ member') front_lacks
  have left : [a].Sublist front := List.singleton_sublist.mpr member
  have right : [c].Sublist (b :: back) := List.singleton_sublist.mpr (List.mem_cons_of_mem _ later)
  exact left.append right

end Precedence

namespace Kahn
open Precedence
variable {α : Type} [DecidableEq α] {ids popped : List α} {edges : List (α × α)} {current id : α}

def targets (edges : List (α × α)) (source : α) : List α :=
  (edges.filter (·.1 = source)).map Prod.snd

def inDegree (edges : List (α × α)) (id : α) : Nat := edges.countP (·.2 = id)

def openEdges (edges : List (α × α)) (popped : List α) (id : α) : Nat :=
  edges.countP fun edge => edge.2 = id && edge.1 ∉ popped

theorem openEdges_nil : openEdges edges [] id = inDegree edges id := by
  simp [openEdges, inDegree]

theorem mem_targets {source target : α} : target ∈ targets edges source ↔ (source, target) ∈ edges := by
  simp [targets]

theorem count_targets_cons (edge : α × α) : (targets (edge :: edges) current).count id =
    (targets edges current).count id + if edge.2 = id ∧ edge.1 = current then 1 else 0 := by
  unfold targets
  by_cases source : edge.1 = current
  · simp only [List.filter_cons, source, decide_true, if_true, List.map_cons, List.count_cons,
      beq_iff_eq, and_true]
  · simp only [List.filter_cons, source, decide_false, Bool.false_eq_true, if_false, and_false,
      Nat.add_zero]

theorem openEdges_cons (edge : α × α) : openEdges (edge :: edges) popped id =
    openEdges edges popped id + if edge.2 = id ∧ edge.1 ∉ popped then 1 else 0 := by
  simp only [openEdges, List.countP_cons, Bool.and_eq_true, decide_eq_true_eq]

theorem openEdges_pop (fresh : current ∉ popped) (id : α) :
    openEdges edges (popped ++ [current]) id + (targets edges current).count id =
      openEdges edges popped id := by
  induction edges with
  | nil => rfl
  | cons edge rest ih =>
    simp only [openEdges_cons, count_targets_cons, List.mem_append, List.mem_singleton]
    by_cases source : edge.1 = current
    · simp only [source, fresh, or_true, not_true, and_false, if_false, not_false_iff, and_true]
      omega
    · simp only [source, or_false, and_false, if_false]
      omega

theorem sources_popped (closed : openEdges edges popped id = 0) {source : α}
    (member : (source, id) ∈ edges) : source ∈ popped := by
  have taken := List.countP_eq_zero.mp closed _ member
  simpa using taken

/-- What the loop keeps: the counts are those of the open edges, and the nodes that are ready are
those that have none and are still there. -/
structure Progress (ids : List α) (edges : List (α × α)) (popped : List α) (remaining : α → Nat)
    (ready : α → Prop) : Prop where
  counts : ∀ id ∈ ids, remaining id = openEdges edges popped id
  ready_iff : ∀ id, ready id ↔ id ∈ ids ∧ id ∉ popped ∧ openEdges edges popped id = 0
  distinct : popped.Nodup
  known : ∀ id ∈ popped, id ∈ ids
  closed : ∀ id ∈ popped, openEdges edges popped id = 0

/-- What is taken away in some order, each node once and after the sources of the edges into it. -/
structure Sorted (ids : List α) (edges : List (α × α)) (popped out : List α) : Prop where
  distinct : (popped ++ out).Nodup
  known : ∀ id ∈ out, id ∈ ids
  after : ∀ front id back, out = front ++ id :: back →
    ∀ source, (source, id) ∈ edges → source ∈ popped ++ front

variable {remaining remaining' : α → Nat} {ready ready' : α → Prop} {out : List α}

theorem Progress.start (empty : ∀ id ∈ ids, remaining id = inDegree edges id)
    (free : ∀ id, ready id ↔ id ∈ ids ∧ inDegree edges id = 0) :
    Progress ids edges [] remaining ready where
  counts id member := by rw [empty id member, openEdges_nil]
  ready_iff id := by simp [free, openEdges_nil]
  distinct := List.nodup_nil
  known := by simp
  closed := by simp

theorem Progress.fresh (progress : Progress ids edges popped remaining ready) (taken : ready current) :
    current ∉ popped := ((progress.ready_iff current).mp taken).2.1

theorem Progress.enough (progress : Progress ids edges popped remaining ready) (taken : ready current)
    (member : id ∈ ids) : (targets edges current).count id ≤ remaining id := by
  have closes : openEdges edges (popped ++ [current]) id + (targets edges current).count id =
      openEdges edges popped id := openEdges_pop (progress.fresh taken) id
  rw [progress.counts id member]
  omega

theorem Progress.pop (progress : Progress ids edges popped remaining ready) (taken : ready current)
    (ends : ∀ edge ∈ edges, edge.2 ∈ ids)
    (counts : ∀ id ∈ ids, remaining' id = remaining id - (targets edges current).count id)
    (queued : ∀ id, ready' id ↔
      ready id ∧ id ≠ current ∨ id ∈ targets edges current ∧ remaining' id = 0) :
    Progress ids edges (popped ++ [current]) remaining' ready' := by
  have fresh := progress.fresh taken
  have closes : ∀ id, openEdges edges (popped ++ [current]) id + (targets edges current).count id =
      openEdges edges popped id := openEdges_pop fresh
  have counts' : ∀ id ∈ ids, remaining' id = openEdges edges (popped ++ [current]) id := by
    intro id member
    have closed := closes id
    rw [counts id member, progress.counts id member]
    omega
  have settled : ∀ id ∈ popped ++ [current], openEdges edges popped id = 0 := by
    intro id member
    rcases List.mem_append.mp member with old | same
    · exact progress.closed id old
    · rw [List.mem_singleton.mp same]
      exact ((progress.ready_iff current).mp taken).2.2
  constructor
  · exact counts'
  · intro id
    have closed := closes id
    rw [queued, progress.ready_iff]
    constructor
    · rintro (⟨⟨member, waiting, done⟩, other⟩ | ⟨pointed, done⟩)
      · refine ⟨member, by simp [waiting, other], ?_⟩
        omega
      · have member := ends _ (mem_targets.mp pointed)
        have counted := List.count_pos_iff.mpr pointed
        rw [counts' id member] at done
        refine ⟨member, fun early => ?_, done⟩
        have := settled id early
        omega
    · rintro ⟨member, waiting, done⟩
      by_cases pointed : id ∈ targets edges current
      · exact .inr ⟨pointed, (counts' id member).trans done⟩
      · rw [List.count_eq_zero.mpr pointed] at closed
        simp only [List.mem_append, List.mem_singleton, not_or] at waiting
        exact .inl ⟨⟨member, waiting.1, closed.symm.trans done⟩, waiting.2⟩
  · exact progress.distinct.append (List.nodup_singleton _) (by simpa using fresh)
  · intro id member
    rcases List.mem_append.mp member with old | same
    · exact progress.known id old
    · rw [List.mem_singleton.mp same]
      exact ((progress.ready_iff current).mp taken).1
  · intro id member
    have closed := closes id
    have := settled id member
    omega

theorem Progress.sorted_nil (progress : Progress ids edges popped remaining ready) :
    Sorted ids edges popped [] := ⟨by simpa using progress.distinct, by simp, by simp⟩

theorem Progress.sorted_cons (progress : Progress ids edges popped remaining ready)
    (taken : ready current) (rest : Sorted ids edges (popped ++ [current]) out) :
    Sorted ids edges popped (current :: out) := by
  obtain ⟨member, -, closed⟩ := (progress.ready_iff current).mp taken
  have shift : popped ++ [current] ++ out = popped ++ current :: out := by simp
  refine ⟨shift ▸ rest.distinct, ?_, ?_⟩
  · intro id later
    rcases List.mem_cons.mp later with rfl | later
    · exact member
    · exact rest.known id later
  · intro front id back same source edge
    cases front with
    | nil =>
      cases same
      rw [List.append_nil]
      exact sources_popped closed edge
    | cons first front =>
      obtain ⟨rfl, later⟩ := List.cons.inj same
      have inside := rest.after front id back later source edge
      simpa using inside

/-- At every position no node comes later that is less and has had all its sources by then. -/
def LeastFirst (less : α → α → Prop) (ids : List α) (edges : List (α × α)) (popped out : List α) : Prop :=
  ∀ front id back, out = front ++ id :: back → ∀ other ∈ ids, other ∉ popped ++ front →
    (∀ source, (source, other) ∈ edges → source ∈ popped ++ front) → ¬ less other id

theorem openEdges_eq_zero :
    openEdges edges popped id = 0 ↔ ∀ source, (source, id) ∈ edges → source ∈ popped := by
  constructor
  · exact fun closed source member => sources_popped closed member
  · intro taken
    refine List.countP_eq_zero.mpr ?_
    rintro ⟨source, target⟩ member
    simp only [Bool.and_eq_true, decide_eq_true_eq, not_and, not_not]
    rintro rfl
    exact taken source member

/-- Whoever always takes the least of what is ready takes the least first. -/
theorem Progress.least_cons {less : α → α → Prop}
    (progress : Progress ids edges popped remaining ready)
    (least : ∀ other, ready other → ¬ less other current)
    (rest : LeastFirst less ids edges (popped ++ [current]) out) :
    LeastFirst less ids edges popped (current :: out) := by
  intro front id back same other member fresh sources
  cases front with
  | nil =>
    cases same
    rw [List.append_nil] at fresh sources
    exact least other ((progress.ready_iff other).mpr ⟨member, fresh, openEdges_eq_zero.mpr sources⟩)
  | cons first front =>
    obtain ⟨rfl, later⟩ := List.cons.inj same
    refine rest front id back later other member ?_ ?_
    · simpa using fresh
    · simpa using sources

omit [DecidableEq α] in
theorem Sorted.tail (sorted : Sorted ids edges popped (current :: out)) :
    Sorted ids edges (popped ++ [current]) out := by
  have shift : popped ++ [current] ++ out = popped ++ current :: out := by simp
  refine ⟨shift ▸ sorted.distinct, fun id later => sorted.known id (List.mem_cons_of_mem _ later), ?_⟩
  intro front id back same source edge
  have inside := sorted.after (current :: front) id back (by rw [same, List.cons_append]) source edge
  simpa using inside

omit [DecidableEq α] in
theorem LeastFirst.tail {less : α → α → Prop} (least : LeastFirst less ids edges popped (current :: out)) :
    LeastFirst less ids edges (popped ++ [current]) out := by
  intro front id back same other member fresh sources
  refine least (current :: front) id back (by rw [same, List.cons_append]) other member ?_ ?_
  · simpa using fresh
  · simpa using sources

omit [DecidableEq α] in
/-- What may come next and what comes next are compared with each other both ways. -/
theorem LeastFirst.head {less : α → α → Prop} {next : α} {rest : List α}
    (least : LeastFirst less ids edges popped (current :: out))
    (sorted : Sorted ids edges popped (next :: rest)) : ¬ less next current := by
  refine least [] current out rfl next (sorted.known next List.mem_cons_self) ?_ ?_
  · rw [List.append_nil]
    exact fun early => List.disjoint_of_nodup_append sorted.distinct early List.mem_cons_self
  · exact sorted.after [] next rest rfl

omit [DecidableEq α] in
/-- There is only one sorted order that has the least first. -/
theorem LeastFirst.unique {less : α → α → Prop} (total : ∀ a b, ¬ less a b → ¬ less b a → a = b)
    {out' : List α} (length : out.length = out'.length) (least : LeastFirst less ids edges popped out)
    (sorted : Sorted ids edges popped out) (least' : LeastFirst less ids edges popped out')
    (sorted' : Sorted ids edges popped out') : out = out' := by
  induction out generalizing popped out' with
  | nil => exact (List.eq_nil_of_length_eq_zero length.symm).symm
  | cons first rest ih =>
    cases out' with
    | nil => simp at length
    | cons first' rest' =>
      obtain rfl : first = first' := total _ _ (least'.head sorted) (least.head sorted')
      have lengths : rest.length = rest'.length := by simpa using length
      rw [ih lengths least.tail sorted.tail least'.tail sorted'.tail]

theorem Progress.done (progress : Progress ids edges popped remaining ready)
    (all : ids.length ≤ popped.length) : ¬ ready id := by
  intro waiting
  obtain ⟨member, fresh, -⟩ := (progress.ready_iff id).mp waiting
  have whole : popped.Perm ids := (progress.distinct.subperm progress.known).perm_of_length_le all
  exact fresh (whole.mem_iff.mpr member)

omit [DecidableEq α] in
/-- If every node comes out, each source of an edge comes out before its target. -/
theorem Sorted.order_spec (sorted : Sorted ids edges [] out) (ends : ∀ edge ∈ edges, edge.2 ∈ ids)
    (whole : ids.length ≤ out.length) :
    out.Perm ids ∧ ∀ source target, (source, target) ∈ edges → Before out source target := by
  have all : out.Perm ids := (sorted.distinct.subperm sorted.known).perm_of_length_le whole
  refine ⟨all, fun source target member => before_iff.mpr ?_⟩
  obtain ⟨front, back, same⟩ := List.append_of_mem (all.mem_iff.mpr (ends _ member))
  exact ⟨front, back, same, sorted.after front _ back same source member⟩

section Cycles
variable {r : α → α → Prop}

/-- Among finitely many elements that all come after another one of them, some come after themselves. -/
theorem exists_cycle {left : List α} (some_ : id ∈ left) (each : ∀ b ∈ left, ∃ a ∈ left, r a b) :
    ∃ a, Relation.TransGen r a a := by
  by_contra none_
  push Not at none_
  let later (a b : {a // a ∈ left}) : Prop := Relation.TransGen r a.1 b.1
  have trans : IsTrans {a // a ∈ left} later := ⟨fun _ _ _ => Relation.TransGen.trans⟩
  have irrefl : Std.Irrefl later := ⟨fun a => none_ a.1⟩
  have founded : WellFounded later := Finite.wellFounded_of_trans_of_irrefl later
  have nothing (b : {a // a ∈ left}) : False := by
    induction b using founded.induction with
    | _ b ih =>
      obtain ⟨before, member, precedes⟩ := each b.1 b.2
      exact ih ⟨before, member⟩ (.single precedes)
  exact nothing ⟨id, some_⟩

/-- If nothing is ready although nodes are left, these are kept by a cycle. -/
theorem Progress.cyclic (progress : Progress ids edges popped remaining ready)
    (idle : ∀ id, ¬ ready id) (sources : ∀ edge ∈ edges, edge.1 ∈ ids)
    (left : popped.length < ids.length) (distinct : ids.Nodup) :
    ∃ id, Relation.TransGen (fun a b => (a, b) ∈ edges) id id := by
  have held : ∀ id ∈ ids.filter (· ∉ popped),
      ∃ source ∈ ids.filter (· ∉ popped), (source, id) ∈ edges := by
    intro id member
    obtain ⟨known, waiting⟩ := List.mem_filter.mp member
    have kept : openEdges edges popped id ≠ 0 := fun closed =>
      idle id ((progress.ready_iff id).mpr ⟨known, of_decide_eq_true waiting, closed⟩)
    obtain ⟨edge, there, holds⟩ := List.countP_pos_iff.mp (Nat.pos_of_ne_zero kept)
    obtain ⟨target, fresh⟩ := Bool.and_eq_true_iff.mp holds
    obtain ⟨source, target'⟩ := edge
    obtain rfl : target' = id := of_decide_eq_true target
    exact ⟨source, List.mem_filter.mpr ⟨sources _ there, fresh⟩, there⟩
  cases waiting : ids.filter (· ∉ popped) with
  | nil =>
    have all : ∀ id ∈ ids, id ∈ popped := by simpa using waiting
    have few := (distinct.subperm all).length_le
    omega
  | cons id rest =>
    have first : id ∈ ids.filter (· ∉ popped) := by
      rw [waiting]
      exact List.mem_cons_self
    exact exists_cycle first held

omit [DecidableEq α] in
theorem before_of_path {order : List α} (distinct : order.Nodup)
    (along : ∀ a b, r a b → Before order a b) {a b : α} (path : Relation.TransGen r a b) :
    Before order a b := by
  induction path with
  | single edge => exact along _ _ edge
  | tail path edge ih => exact ih.trans (along _ _ edge) distinct

omit [DecidableEq α] in
theorem acyclic_of_order {order : List α} (distinct : order.Nodup)
    (along : ∀ a b, r a b → Before order a b) (a : α) : ¬ Relation.TransGen r a a := by
  intro path
  exact (before_of_path distinct along path).ne distinct rfl

end Cycles
end Kahn
