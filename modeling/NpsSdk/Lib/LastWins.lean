import Mathlib.Data.List.Perm.Basic
import NpsSdk.Lib.JsonMaps

/-! Maps that are put together from several sources: under each key the last source wins, so it
matters in which order they come. -/

namespace List
variable {α β : Type}

/-- An element can be put at any place behind all the others of a kind that it is not of itself. -/
theorem exists_perm_at {l : List α} {x : α} {p : Nat} (kind : α → Bool) (member : x ∈ l)
    (other : kind x = false) (few : l.countP kind ≤ p) (place : p < l.length) :
    ∃ order : List α, order.Perm l ∧ order[p]? = some x ∧
      ∀ k y, p < k → order[k]? = some y → kind y = false := by
  obtain ⟨front, back, rfl⟩ := append_of_mem member
  let rest := (front ++ back).filter kind ++ (front ++ back).filter fun y => !kind y
  have arranged : rest.Perm (front ++ back) := filter_append_perm _ _
  have size := arranged.length_eq
  simp only [length_append, length_cons] at place size
  have full : (rest.take p).length = p := by
    rw [length_take, size]
    omega
  refine ⟨rest.take p ++ x :: rest.drop p, ?_, ?_, ?_⟩
  · refine (perm_middle.trans ?_).trans perm_middle.symm
    rw [take_append_drop]
    exact arranged.cons x
  · rw [getElem?_append_right (Nat.le_of_eq full), full, Nat.sub_self]
    rfl
  · intro k y later found
    rw [getElem?_append_right (by omega), full] at found
    obtain ⟨j, rfl⟩ : ∃ j, k = p + 1 + j := ⟨k - (p + 1), by omega⟩
    rw [show p + 1 + j - p = j + 1 by omega, getElem?_cons_succ] at found
    have gone : ((front ++ back).filter kind).length ≤ p := by
      rw [← countP_eq_length_filter]
      rw [countP_append, countP_cons, other] at few
      simpa using few
    have there := mem_of_getElem? found
    rw [drop_append, drop_eq_nil_of_le gone, nil_append] at there
    simpa using (mem_filter.mp (mem_of_mem_drop there)).2

/-- Every order of what a selection keeps comes from an order of the list. -/
theorem exists_perm_filterMap {f : α → Option β} {l : List α} {order : List β}
    (perm : order.Perm (l.filterMap f)) : ∃ l' : List α, l'.Perm l ∧ l'.filterMap f = order := by
  induction order generalizing l with
  | nil => exact ⟨l, .refl l, perm.nil_eq.symm⟩
  | cons y order ih =>
    obtain ⟨x, member, given⟩ := mem_filterMap.mp (perm.mem_iff.mp mem_cons_self)
    obtain ⟨front, back, rfl⟩ := append_of_mem member
    have moved : ((front ++ x :: back).filterMap f).Perm (y :: (front ++ back).filterMap f) := by
      have middle : (front ++ x :: back).Perm (x :: (front ++ back)) := perm_middle
      have selected := middle.filterMap f
      rwa [filterMap_cons_some given] at selected
    obtain ⟨rest, same, kept⟩ := ih (perm.trans moved).cons_inv
    refine ⟨x :: rest, (same.cons x).trans perm_middle.symm, ?_⟩
    rw [filterMap_cons_some given, kept]

end List

namespace LastWins
variable {α β : Type} {gives : Nat → α → Option β} {i : Nat} {sources : List α} {value : β}

/-- What the last source gives that gives anything; a source knows its position. -/
def last (gives : Nat → α → Option β) : (i : Nat) → List α → Option β
  | _, [] => none
  | i, source :: rest => (last gives (i + 1) rest).or (gives i source)

theorem last_eq_none : last gives i sources = none ↔
    ∀ j source, sources[j]? = some source → gives (i + j) source = none := by
  induction sources generalizing i with
  | nil => simp [last]
  | cons source rest ih =>
    rw [last, Option.or_eq_none_iff, ih]
    constructor
    · rintro ⟨later, first⟩ j other found
      cases j with
      | zero =>
        cases found
        exact first
      | succ j =>
        have none_ := later j other found
        rwa [Nat.add_right_comm] at none_
    · intro all
      refine ⟨fun j other found => ?_, all 0 source rfl⟩
      rw [Nat.add_right_comm]
      exact all (j + 1) other found

theorem last_eq_some : last gives i sources = some value ↔
    ∃ j source, sources[j]? = some source ∧ gives (i + j) source = some value ∧
      ∀ k other, j < k → sources[k]? = some other → gives (i + k) other = none := by
  induction sources generalizing i with
  | nil => simp [last]
  | cons source rest ih =>
    rw [last, Option.or_eq_some_iff, ih]
    constructor
    · rintro (⟨j, found, there, given, later⟩ | ⟨none_, given⟩)
      · rw [Nat.add_right_comm] at given
        refine ⟨j + 1, found, there, given, fun k other after at_ => ?_⟩
        cases k with
        | zero => omega
        | succ k =>
          have nothing := later k other (by omega) at_
          rwa [Nat.add_right_comm] at nothing
      · refine ⟨0, source, rfl, given, fun k other after at_ => ?_⟩
        cases k with
        | zero => omega
        | succ k =>
          have nothing := last_eq_none.mp none_ k other at_
          rwa [Nat.add_right_comm] at nothing
    · rintro ⟨j, found, there, given, later⟩
      cases j with
      | zero =>
        cases there
        refine .inr ⟨last_eq_none.mpr fun k other at_ => ?_, given⟩
        rw [Nat.add_right_comm]
        exact later (k + 1) other k.succ_pos at_
      | succ j =>
        refine .inl ⟨j, found, there, ?_, fun k other after at_ => ?_⟩
        · rw [Nat.add_right_comm]
          exact given
        · rw [Nat.add_right_comm]
          exact later (k + 1) other (Nat.succ_lt_succ after) at_

end LastWins

namespace Json
variable {β : Type} {entries other : List (String × β)} {key : String}

theorem keyLess_iff {a b : String} : keyLess a b = true ↔ a.toList < b.toList := decide_eq_true_iff

/-- The entries of a map, which has one for each of its keys. -/
def Ascending (entries : List (String × β)) : Prop :=
  entries.Pairwise fun first second => first.1.toList < second.1.toList

theorem Ascending.insert (ascending : Ascending entries) (key : String) (value : β) :
    Ascending (Json.insert key value entries) := by
  induction entries with
  | nil => exact List.pairwise_singleton _ _
  | cons entry rest ih =>
    obtain ⟨first, old⟩ := entry
    obtain ⟨above, later⟩ := List.pairwise_cons.mp ascending
    unfold Json.insert
    split
    · rename_i less
      have below := keyLess_iff.mp less
      refine List.pairwise_cons.mpr ⟨fun entry member => ?_, ascending⟩
      rcases List.mem_cons.mp member with rfl | after
      · exact below
      · exact lt_trans below (above entry after)
    · rename_i notLess
      split
      · rename_i same
        subst same
        exact List.pairwise_cons.mpr ⟨above, later⟩
      · rename_i different
        refine List.pairwise_cons.mpr ⟨fun entry member => ?_, ih later⟩
        have greater : first.toList < key.toList := by
          rcases lt_trichotomy first.toList key.toList with less | same | more
          · exact less
          · exact absurd (String.toList_inj.mp same).symm different
          · exact absurd (keyLess_iff.mpr more) notLess
        by_cases new : entry.1 = key
        · exact new ▸ greater
        · have there : get entry.1 (Json.insert key value rest) ≠ none := by
            rw [Ne, get_eq_none, not_not]
            exact List.mem_map_of_mem member
          rw [get_insert_ne new, Ne, get_eq_none, not_not] at there
          obtain ⟨held, inside, same⟩ := List.mem_map.mp there
          exact same ▸ above held inside

theorem Ascending.ext (ascending : Ascending entries) (ascending' : Ascending other)
    (same : ∀ key, get key entries = get key other) : entries = other := by
  have distinct {entries : List (String × β)} (ascending : Ascending entries) :
      (entries.map Prod.fst).Nodup := by
    refine List.pairwise_map.mpr (List.Pairwise.imp (fun {a b} below => ?_) ascending)
    exact fun equal => lt_irrefl _ (equal ▸ below)
  have perm : entries.Perm other := by
    refine (List.perm_ext_iff_of_nodup (distinct ascending).of_map (distinct ascending').of_map).mpr ?_
    rintro ⟨key, value⟩
    rw [← get_eq_some (distinct ascending), ← get_eq_some (distinct ascending'), same]
  refine perm.eq_of_pairwise ?_ ascending ascending'
  intro a b _ _ less greater
  exact absurd (lt_trans less greater) (lt_irrefl _)

def write (entries merged : List (String × β)) : List (String × β) :=
  entries.foldl (fun merged entry => Json.insert entry.1 entry.2 merged) merged

/-- The last entry that was written for a key counts. -/
theorem get_write (merged : List (String × β)) :
    get key (write entries merged) = (get key entries.reverse).or (get key merged) := by
  induction entries generalizing merged with
  | nil => rfl
  | cons entry rest ih =>
    change get key (write rest (Json.insert entry.1 entry.2 merged)) = _
    rw [ih, List.reverse_cons, get_append, Option.or_assoc]
    congr 1
    by_cases same : key = entry.1
    · subst same
      simp [get]
    · simp [get, same, get_insert_ne same]

theorem Ascending.write {merged : List (String × β)} (ascending : Ascending merged) :
    Ascending (Json.write entries merged) := by
  induction entries generalizing merged with
  | nil => exact ascending
  | cons entry rest ih => exact ih (ascending.insert entry.1 entry.2)

end Json
