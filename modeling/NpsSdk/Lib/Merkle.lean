import Mathlib.Tactic.Common
import Mathlib.Algebra.Group.Nat.Defs
import Mathlib.Data.Nat.Log

/-! Merkle trees. A tree of any shape is hashed through tagged inputs, a leaf is found by the sides
taken on the way down from the root, and an audit path is folded on the way up. -/
namespace Merkle
variable {α β η : Type}

/-- The inputs that a hash function is given for leaves and for pairs of digests. -/
structure Hashing (α β η : Type) where
  leaf : α → β
  node : η → η → β
  digest : β → η
  leaf_inj : ∀ {a b}, leaf a = leaf b → a = b
  node_inj : ∀ {l r l' r'}, node l r = node l' r' → l = l' ∧ r = r'
  apart : ∀ a l r, leaf a ≠ node l r

/-- No two of the inputs are different and have one digest. -/
def Hashing.CollisionFree (h : Hashing α β η) (inputs : List β) : Prop :=
  ∀ x ∈ inputs, ∀ y ∈ inputs, h.digest x = h.digest y → x = y

theorem Hashing.CollisionFree.subset {h : Hashing α β η} {inputs fewer : List β}
    (free : h.CollisionFree inputs) (within : fewer ⊆ inputs) : h.CollisionFree fewer :=
  fun x first y second => free x (within first) y (within second)

inductive HashTree (α : Type) where
  | leaf (a : α)
  | node (left right : HashTree α)
deriving DecidableEq

abbrev Side := Bool

namespace HashTree

def size : HashTree α → Nat
  | leaf _ => 1
  | node left right => left.size + right.size

def leaves : HashTree α → List α
  | leaf a => [a]
  | node left right => left.leaves ++ right.leaves

def height : HashTree α → Nat
  | leaf _ => 0
  | node left right => max left.height right.height + 1

def route : HashTree α → Nat → List Side
  | leaf _, _ => []
  | node left right, index =>
    if index < left.size then false :: left.route index else true :: right.route (index - left.size)

def descend : HashTree α → List Side → Option α
  | leaf a, [] => some a
  | node left right, side :: sides => (if side then right else left).descend sides
  | _, _ => none

/-- Where the sides are not those of the route, both subtrees are the same. -/
def Passes [DecidableEq α] : HashTree α → (route sides : List Side) → Prop
  | node left right, turn :: route, side :: sides =>
    (side = turn ∨ left = right) ∧ (if turn then right else left).Passes route sides
  | _, _, _ => True

variable (h : Hashing α β η)

def root : HashTree α → η
  | leaf a => h.digest (h.leaf a)
  | node left right => h.digest (h.node left.root right.root)

def inputs : HashTree α → List β
  | leaf a => [h.leaf a]
  | node left right => h.node (left.root h) (right.root h) :: (left.inputs ++ right.inputs)

def path : HashTree α → Nat → List η
  | leaf _, _ => []
  | node left right, index =>
    if index < left.size then left.path index ++ [right.root h]
    else right.path (index - left.size) ++ [left.root h]

end HashTree

section Fold
variable (h : Hashing α β η)

def beside (side : Side) (sibling digest : η) : β :=
  if side then h.node sibling digest else h.node digest sibling

def climb (a : α) : List (Side × η) → η
  | [] => h.digest (h.leaf a)
  | (side, sibling) :: steps => h.digest (beside h side sibling (climb a steps))

def climbed (a : α) : List (Side × η) → List β
  | [] => [h.leaf a]
  | (side, sibling) :: steps => beside h side sibling (climb h a steps) :: climbed a steps

end Fold

namespace HashTree

theorem leaves_length (t : HashTree α) : t.leaves.length = t.size := by
  induction t with
  | leaf a => rfl
  | node left right ihl ihr => simp only [leaves, size, List.length_append, ihl, ihr]

theorem descend_route (t : HashTree α) {index : Nat} (inside : index < t.size) :
    t.descend (t.route index) = t.leaves[index]? := by
  induction t generalizing index with
  | leaf a =>
    cases Nat.lt_one_iff.mp inside
    rfl
  | node left right ihl ihr =>
    simp only [route, leaves]
    split
    · rename_i first
      rw [List.getElem?_append_left (by rwa [leaves_length]), ← ihl first]
      rfl
    · rename_i later
      rw [List.getElem?_append_right (by rw [leaves_length]; omega), leaves_length,
        ← ihr (by simp only [size] at inside; omega)]
      rfl

/-- Sides that lead to a leaf are the route of one. -/
theorem route_of_descend {t : HashTree α} {sides : List Side} {a : α} (found : t.descend sides = some a) :
    ∃ index, index < t.size ∧ t.route index = sides := by
  induction t generalizing sides with
  | leaf b =>
    cases sides with
    | nil => exact ⟨0, Nat.zero_lt_one, rfl⟩
    | cons => cases found
  | node left right ihl ihr =>
    cases sides with
    | nil => cases found
    | cons side rest =>
      cases side with
      | false =>
        obtain ⟨index, inside, same⟩ := ihl found
        refine ⟨index, Nat.lt_add_right _ inside, ?_⟩
        rw [route, if_pos inside, same]
      | true =>
        obtain ⟨index, inside, same⟩ := ihr found
        refine ⟨left.size + index, Nat.add_lt_add_left inside _, ?_⟩
        rw [route, if_neg (by omega), Nat.add_sub_cancel_left, same]

theorem descend_mem {t : HashTree α} {sides : List Side} {a : α} (found : t.descend sides = some a) :
    a ∈ t.leaves := by
  obtain ⟨index, inside, rfl⟩ := route_of_descend found
  rw [t.descend_route inside] at found
  exact List.mem_of_getElem? found

theorem descend_height {t : HashTree α} {sides : List Side} {a : α} (found : t.descend sides = some a) :
    sides.length ≤ t.height := by
  induction t generalizing sides with
  | leaf b =>
    cases sides with
    | nil => exact Nat.le_refl 0
    | cons => cases found
  | node left right ihl ihr =>
    cases sides with
    | nil => cases found
    | cons side rest =>
      simp only [height, List.length_cons, Nat.add_le_add_iff_right]
      cases side with
      | false => exact (ihl found).trans (Nat.le_max_left _ _)
      | true => exact (ihr found).trans (Nat.le_max_right _ _)

def siblings (h : Hashing α β η) : HashTree α → List Side → List η
  | node left right, side :: sides =>
    (if side then left else right).root h :: (if side then right else left).siblings h sides
  | _, _ => []

theorem siblings_length (h : Hashing α β η) {t : HashTree α} {sides : List Side} {a : α}
    (found : t.descend sides = some a) : (t.siblings h sides).length = sides.length := by
  induction t generalizing sides with
  | leaf b =>
    cases sides with
    | nil => rfl
    | cons => cases found
  | node left right ihl ihr =>
    cases sides with
    | nil => cases found
    | cons side rest =>
      cases side with
      | false => exact congrArg (· + 1) (ihl found)
      | true => exact congrArg (· + 1) (ihr found)

theorem path_reverse (h : Hashing α β η) (t : HashTree α) (index : Nat) :
    (t.path h index).reverse = t.siblings h (t.route index) := by
  induction t generalizing index with
  | leaf a => rfl
  | node left right ihl ihr =>
    simp only [path, route]
    split
    · rw [List.reverse_append, ihl]
      rfl
    · rw [List.reverse_append, ihr]
      rfl

end HashTree

section Collisions
variable {h : Hashing α β η}

/-- Without collisions, a digest is the root of one tree. -/
theorem HashTree.root_inj {t u : HashTree α} (free : h.CollisionFree (t.inputs h ++ u.inputs h))
    (same : t.root h = u.root h) : t = u := by
  induction t generalizing u with
  | leaf a =>
    cases u with
    | leaf b =>
      have input := free (h.leaf a) (by simp [HashTree.inputs]) (h.leaf b) (by simp [HashTree.inputs]) same
      rw [h.leaf_inj input]
    | node left right =>
      have input := free (h.leaf a) (by simp [HashTree.inputs])
        (h.node (left.root h) (right.root h)) (by simp [HashTree.inputs]) same
      exact absurd input (h.apart _ _ _)
  | node left right ihl ihr =>
    cases u with
    | leaf b =>
      have input := free (h.node (left.root h) (right.root h)) (by simp [HashTree.inputs])
        (h.leaf b) (by simp [HashTree.inputs]) same
      exact absurd input.symm (h.apart _ _ _)
    | node left' right' =>
      have input := free (h.node (left.root h) (right.root h)) (by simp [HashTree.inputs])
        (h.node (left'.root h) (right'.root h)) (by simp [HashTree.inputs]) same
      obtain ⟨first, second⟩ := h.node_inj input
      have lefts : left = left' := by
        apply ihl (free.subset ?_) first
        intro x member
        simp only [HashTree.inputs, List.mem_append, List.mem_cons] at member ⊢
        tauto
      have rights : right = right' := by
        apply ihr (free.subset ?_) second
        intro x member
        simp only [HashTree.inputs, List.mem_append, List.mem_cons] at member ⊢
        tauto
      rw [lefts, rights]

theorem beside_inj {side : Side} {left right : HashTree α} {sibling digest : η}
    (same : beside h side sibling digest = h.node (left.root h) (right.root h)) :
    digest = (if side then right else left).root h ∧
      sibling = (if side then left else right).root h := by
  cases side with
  | false => exact h.node_inj same
  | true => exact (h.node_inj same).symm

theorem leaf_ne_beside {side : Side} {a : α} {sibling digest : η} :
    h.leaf a ≠ beside h side sibling digest := by
  cases side with
  | false => exact h.apart _ _ _
  | true => exact h.apart _ _ _

theorem mem_subtree {side : Side} {left right : HashTree α} {x : β}
    (member : x ∈ (if side then right else left).inputs h) : x ∈ (HashTree.node left right).inputs h := by
  simp only [HashTree.inputs, List.mem_cons, List.mem_append]
  cases side with
  | false => exact .inr (.inl member)
  | true => exact .inr (.inr member)

/-- A fold that comes to the root of a tree begins at the leaf that its sides lead to. -/
theorem descend_of_climb {t : HashTree α} {a : α} {steps : List (Side × η)}
    (free : h.CollisionFree (t.inputs h ++ climbed h a steps))
    (same : climb h a steps = t.root h) : t.descend (steps.map Prod.fst) = some a := by
  induction steps generalizing t with
  | nil =>
    have first : h.leaf a ∈ t.inputs h ++ climbed h a [] :=
      List.mem_append_right _ (List.mem_singleton_self _)
    cases t with
    | leaf b =>
      have input := free _ first (h.leaf b) (List.mem_append_left _ (List.mem_singleton_self _)) same
      rw [h.leaf_inj input]
      rfl
    | node left right =>
      have input := free _ first (h.node (left.root h) (right.root h))
        (List.mem_append_left _ List.mem_cons_self) same
      exact absurd input (h.apart _ _ _)
  | cons step steps ih =>
    obtain ⟨side, sibling⟩ := step
    have last : beside h side sibling (climb h a steps) ∈
        t.inputs h ++ climbed h a ((side, sibling) :: steps) :=
      List.mem_append_right _ List.mem_cons_self
    cases t with
    | leaf b =>
      have input := free _ last (h.leaf b) (List.mem_append_left _ (List.mem_singleton_self _)) same
      exact absurd input.symm leaf_ne_beside
    | node left right =>
      have input := free _ last (h.node (left.root h) (right.root h))
        (List.mem_append_left _ List.mem_cons_self) same
      apply ih (free.subset ?_) (beside_inj input).1
      intro x member
      rcases List.mem_append.mp member with within | later
      · exact List.mem_append_left _ (mem_subtree within)
      · exact List.mem_append_right _ (List.mem_cons_of_mem _ later)

/-- Folded with its own sides, an audit path comes to the root and hashes nothing new. -/
theorem climb_route {t : HashTree α} {route : List Side} {a : α} (found : t.descend route = some a) :
    climb h a (route.zip (t.siblings h route)) = t.root h ∧
      climbed h a (route.zip (t.siblings h route)) ⊆ t.inputs h := by
  induction t generalizing route with
  | leaf b =>
    cases route with
    | nil =>
      cases found
      exact ⟨rfl, List.Subset.refl _⟩
    | cons => cases found
  | node left right ihl ihr =>
    cases route with
    | nil => cases found
    | cons side rest =>
      have below : climb h a (rest.zip ((if side then right else left).siblings h rest)) =
            (if side then right else left).root h ∧
          climbed h a (rest.zip ((if side then right else left).siblings h rest)) ⊆
            (if side then right else left).inputs h := by
        cases side with
        | false => exact ihl found
        | true => exact ihr found
      have input : beside h side ((if side then left else right).root h)
          (climb h a (rest.zip ((if side then right else left).siblings h rest))) =
          h.node (left.root h) (right.root h) := by
        rw [below.1]
        cases side with
        | false => rfl
        | true => rfl
      refine ⟨congrArg h.digest input, ?_⟩
      intro x member
      rcases List.mem_cons.mp member with same | later
      · rw [same.trans input]
        exact List.mem_cons_self
      · exact mem_subtree (below.2 later)

/-- An audit path that is folded with other sides comes to the root where they make no difference. -/
theorem climb_of_passes [DecidableEq α] {t : HashTree α} {route sides : List Side} {a : α}
    (found : t.descend route = some a) (length : sides.length = route.length)
    (passes : t.Passes route sides) : climb h a (sides.zip (t.siblings h route)) = t.root h := by
  induction t generalizing route sides with
  | leaf b =>
    cases route with
    | nil =>
      cases found
      cases List.eq_nil_of_length_eq_zero length
      rfl
    | cons => cases found
  | node left right ihl ihr =>
    cases route with
    | nil => cases found
    | cons turn rest =>
      obtain _ | ⟨side, sides⟩ := sides
      · cases length
      obtain ⟨here, later⟩ := passes
      have below : climb h a (sides.zip ((if turn then right else left).siblings h rest)) =
          (if turn then right else left).root h := by
        cases turn with
        | false => exact ihl found (Nat.succ.inj length) later
        | true => exact ihr found (Nat.succ.inj length) later
      have input : beside h side ((if turn then left else right).root h)
          ((if turn then right else left).root h) = h.node (left.root h) (right.root h) := by
        rcases here with rfl | rfl
        · cases side <;> rfl
        · cases side <;> simp [beside]
      exact congrArg h.digest ((congrArg _ below).trans input)

/-- Without collisions it comes there only so. -/
theorem passes_of_climb [DecidableEq α] {t : HashTree α} {route sides : List Side} {a : α}
    (found : t.descend route = some a) (length : sides.length = route.length)
    (free : h.CollisionFree (t.inputs h ++ climbed h a (sides.zip (t.siblings h route))))
    (same : climb h a (sides.zip (t.siblings h route)) = t.root h) : t.Passes route sides := by
  induction t generalizing route sides with
  | leaf b => simp only [HashTree.Passes]
  | node left right ihl ihr =>
    cases route with
    | nil => cases found
    | cons turn rest =>
      obtain _ | ⟨side, sides⟩ := sides
      · cases length
      have fewer : h.CollisionFree ((if turn then right else left).inputs h ++
          climbed h a (sides.zip ((if turn then right else left).siblings h rest))) := by
        apply free.subset
        intro x member
        rcases List.mem_append.mp member with within | later
        · exact List.mem_append_left _ (mem_subtree within)
        · exact List.mem_append_right _ (List.mem_cons_of_mem _ later)
      have below (same : climb h a (sides.zip ((if turn then right else left).siblings h rest)) =
          (if turn then right else left).root h) : (if turn then right else left).Passes rest sides := by
        cases turn with
        | false => exact ihl found (Nat.succ.inj length) fewer same
        | true => exact ihr found (Nat.succ.inj length) fewer same
      have input : beside h side ((if turn then left else right).root h)
          (climb h a (sides.zip ((if turn then right else left).siblings h rest))) =
            h.node (left.root h) (right.root h) :=
        free _ (List.mem_append_right _ List.mem_cons_self) _
          (List.mem_append_left _ List.mem_cons_self) same
      have inputs : h.CollisionFree (left.inputs h ++ right.inputs h) :=
        free.subset fun x member => List.mem_append_left _ (List.mem_cons_of_mem _ member)
      obtain ⟨digest, sibling⟩ := beside_inj input
      by_cases own : side = turn
      · subst own
        exact ⟨.inl rfl, below digest⟩
      · -- the digest is on the wrong side, so the sibling has the root of both subtrees
        have roots : left.root h = right.root h := by
          cases side <;> cases turn <;> first | exact absurd rfl own | exact sibling | exact sibling.symm
        have equal := HashTree.root_inj inputs roots
        subst equal
        refine ⟨.inr rfl, below ?_⟩
        simpa only [ite_self] using digest

end Collisions

def split (count : Nat) : Nat := 2 ^ Nat.log 2 (count - 1)

theorem split_pos (count : Nat) : 0 < split count := Nat.pow_pos Nat.zero_lt_two

theorem split_lt {count : Nat} (several : 2 ≤ count) : split count < count := by
  have below : split count ≤ count - 1 := Nat.pow_log_le_self 2 (by omega)
  omega

theorem le_two_split {count : Nat} (several : 2 ≤ count) : count ≤ 2 * split count := by
  have above : count - 1 < 2 ^ (Nat.log 2 (count - 1) + 1) :=
    Nat.lt_pow_succ_log_self Nat.one_lt_two _
  rw [Nat.pow_succ] at above
  unfold split
  omega

theorem split_le {count k : Nat} (several : 2 ≤ count) (small : count ≤ 2 ^ (k + 1)) :
    split count ≤ 2 ^ k := by
  have below : Nat.log 2 (count - 1) < k + 1 := Nat.log_lt_of_lt_pow (by omega) (by omega)
  exact Nat.pow_le_pow_right Nat.zero_lt_two (Nat.le_of_lt_succ below)

/-- The left subtree has as many leaves as the largest power of two below the number of all. -/
def HashTree.ofList : (leaves : List α) → leaves ≠ [] → HashTree α
  | [a], _ => .leaf a
  | a :: b :: rest, _ =>
    let count := split (rest.length + 2)
    have first : (a :: b :: rest).take count ≠ [] := by
      simp [count, (split_pos _).ne']
    have second : (a :: b :: rest).drop count ≠ [] := by
      have below := split_lt (Nat.le_add_left 2 rest.length)
      simp only [ne_eq, List.drop_eq_nil_iff, List.length_cons, count]
      omega
    .node (ofList ((a :: b :: rest).take count) first) (ofList ((a :: b :: rest).drop count) second)
termination_by leaves => leaves.length
decreasing_by
  · have below := split_lt (Nat.le_add_left 2 rest.length)
    simp only [List.length_take, List.length_cons]
    omega
  · have positive := split_pos (rest.length + 2)
    simp only [List.length_drop, List.length_cons]
    omega

namespace HashTree

theorem ofList_leaves (leaves : List α) (some_ : leaves ≠ []) :
    (ofList leaves some_).leaves = leaves := by
  fun_induction ofList leaves some_ with
  | case1 a => rfl
  | case2 a b rest _ count first second _ ihl ihr =>
    rw [HashTree.leaves, ihl, ihr, List.take_append_drop]

theorem ofList_size (leaves : List α) (some_ : leaves ≠ []) :
    (ofList leaves some_).size = leaves.length := by
  rw [← leaves_length, ofList_leaves]

theorem ofList_height {k : Nat} (leaves : List α) (some_ : leaves ≠ [])
    (small : leaves.length ≤ 2 ^ k) : (ofList leaves some_).height ≤ k := by
  fun_induction ofList leaves some_ generalizing k with
  | case1 a => exact Nat.zero_le k
  | case2 a b rest _ count first second _ ihl =>
    rename_i ihr
    simp only [List.length_cons] at small
    have several : 2 ≤ rest.length + 2 := Nat.le_add_left 2 rest.length
    obtain _ | k := k
    · omega
    have left := split_le several small
    have right := le_two_split several
    rw [height, Nat.add_le_add_iff_right, Nat.max_le]
    constructor
    · apply ihl
      rw [List.length_take]
      exact (Nat.min_le_left _ _).trans left
    · apply ihr
      simp only [List.length_drop, List.length_cons, count]
      omega

end HashTree
end Merkle
