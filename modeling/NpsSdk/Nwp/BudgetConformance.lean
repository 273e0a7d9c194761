import NpsSdk.Nwp.Paging

/-! The token budget of an answer: rows are counted one by one while they are taken, and the answer is
one array. -/
namespace Nps.Nwp
open Json (Value)

def rowBytes (row : MemoryNodeRow) : Nat := (Text.utf8 (Value.object row).text).length

def arrayBytes (rows : List MemoryNodeRow) : Nat :=
  (Text.utf8 (Value.array (rows.map .object)).text).length

def size (rows : List MemoryNodeRow) : Nat := (arrayBytes rows + 3) / 4

theorem measureRows_eq (rows : List MemoryNodeRow) : measureRows rows = u32 (size rows) := rfl

def runningTotal (rows : List MemoryNodeRow) (n : Nat) : Nat := u32 ((rows.take n).map measureRow).sum

theorem utf8_length (chars : List Char) :
    (Text.utf8 (String.ofList chars)).length = (chars.flatMap String.utf8EncodeChar).length := by
  rw [Text.utf8, String.toList_ofList]

theorem moreItems_bytes (rows : List MemoryNodeRow) :
    ((Json.compactMoreItems (rows.map .object)).flatMap String.utf8EncodeChar).length =
      (rows.map rowBytes).sum + rows.length := by
  induction rows with
  | nil => rfl
  | cons row rest ih =>
    have comma : (String.utf8EncodeChar ',').length = 1 := by decide
    simp only [List.map_cons, Json.compactMoreItems, List.cons_append, List.flatMap_cons,
      List.flatMap_append, List.length_append, List.sum_cons, List.length_cons, ih, comma, rowBytes,
      Value.text, utf8_length]
    omega

/-- Beside its rows an array has two brackets, and a comma after each row but the last. -/
theorem arrayBytes_eq (rows : List MemoryNodeRow) :
    arrayBytes rows = (rows.map rowBytes).sum + (rows.length - 1) + 2 := by
  have brackets : (String.utf8EncodeChar '[').length = 1 ∧ (String.utf8EncodeChar ']').length = 1 := by
    decide
  rw [arrayBytes, Value.text, utf8_length]
  cases rows with
  | nil => decide
  | cons row rest =>
    simp only [Value.compact, List.map_cons, Json.compactItems, List.cons_append, List.flatMap_cons,
      List.flatMap_append, List.flatMap_nil, List.length_append, List.length_nil, List.sum_cons,
      List.length_cons, moreItems_bytes, brackets, rowBytes, Value.text, utf8_length]
    omega

theorem size_mono {fewer more : List MemoryNodeRow} (part : fewer <+: more) : size fewer ≤ size more := by
  obtain ⟨rest, rfl⟩ := part
  have longer : arrayBytes fewer ≤ arrayBytes (fewer ++ rest) := by
    simp only [arrayBytes_eq, List.map_append, List.sum_append, List.length_append]
    omega
  exact Nat.div_le_div_right (Nat.add_le_add_right longer 3)

section Cut
variable {budget acc : Nat} {rows : List MemoryNodeRow} {k : Nat}

/-- Row by row the first `k` fit, and the next one does not. -/
def CutAt (budget : Nat) (rows : List MemoryNodeRow) (k : Nat) : Prop :=
  (∀ n, 0 < n → n ≤ k → runningTotal rows n ≤ budget) ∧
    (k < rows.length → budget < runningTotal rows (k + 1))

theorem trimFrom_cut (small : u32 acc = acc) : ∃ k ≤ rows.length,
    trimFrom budget acc rows = (rows.take k, u32 (acc + ((rows.take k).map measureRow).sum)) ∧
      Fits budget acc (rows.take k) ∧
      (k < rows.length → budget < u32 (acc + ((rows.take (k + 1)).map measureRow).sum)) := by
  have first {rows : List MemoryNodeRow} {acc : Nat} : Fits budget acc (rows.take 0) :=
    fun _ positive bound => absurd bound (Nat.not_le.mpr positive)
  induction rows generalizing acc with
  | nil => exact ⟨0, Nat.le_refl 0, by simp [trimFrom, small], first, nofun⟩
  | cons row rest ih =>
    unfold trimFrom
    dsimp only
    split <;> rename_i exceeds
    · exact ⟨0, Nat.zero_le _, by simp [small], first, fun _ => by simpa using exceeds⟩
    · obtain ⟨k, within, trimmed, fits, next⟩ := @ih (u32 (acc + measureRow row)) (Nat.mod_mod ..)
      refine ⟨k + 1, Nat.succ_le_succ within, ?_, ?_, fun fewer => ?_⟩
      · simp only [trimmed, List.take_succ_cons, List.map_cons, List.sum_cons, ← Nat.add_assoc,
          u32_add_left]
      · rw [List.take_succ_cons, fits_cons]
        exact ⟨Nat.not_lt.mp exceeds, fits⟩
      · have later := next (Nat.lt_of_succ_lt_succ fewer)
        rwa [u32_add_left, Nat.add_assoc] at later

theorem cutAt_unique {k k' : Nat} (cut : CutAt budget rows k) (cut' : CutAt budget rows k')
    (within : k ≤ rows.length) (within' : k' ≤ rows.length) : k = k' := by
  rcases Nat.lt_trichotomy k k' with before | same | after
  · exact absurd (cut'.1 (k + 1) k.succ_pos before) (Nat.not_le.mpr (cut.2 (by omega)))
  · exact same
  · exact absurd (cut.1 (k' + 1) k'.succ_pos after) (Nat.not_le.mpr (cut'.2 (by omega)))

theorem trimToBudget_cut (budget : Nat) (rows : List MemoryNodeRow) : ∃ k ≤ rows.length,
    trimToBudget rows budget = (rows.take k, runningTotal rows k) ∧ CutAt budget rows k := by
  obtain ⟨k, within, trimmed, fits, next⟩ := @trimFrom_cut budget 0 rows rfl
  refine ⟨k, within, ?_, ?_, ?_⟩
  · rw [trimToBudget, trimmed, runningTotal, Nat.zero_add]
  · intro n positive least
    have total := fits n positive (by rw [List.length_take]; omega)
    rwa [Nat.zero_add, List.take_take, Nat.min_eq_left least] at total
  · intro fewer
    have exceeds := next fewer
    rwa [Nat.zero_add] at exceeds

/-- The estimate covers the rows that are answered, these are within the budget, and no more of them
would be. -/
structure Conforms (budget : Nat) (rows kept : List MemoryNodeRow) (tokenEst : Nat) : Prop where
  estimated : size kept ≤ tokenEst
  within : 0 < budget → size kept ≤ budget
  front : kept <+: rows
  longest : ∀ more, more <+: rows → (0 < budget → size more ≤ budget) → more.length ≤ kept.length

def Whole (budget : Nat) (rows : List MemoryNodeRow) : Prop :=
  size rows < 2 ^ 32 ∧ (budget = 0 ∨ size rows ≤ budget)

/-- Rows are cut, and what is rounded up for the first of them is enough for the brackets and commas;
with one more the array is too long as well. -/
def WellCut (budget : Nat) (rows : List MemoryNodeRow) : Prop :=
  (0 < budget ∧ budget < u32 (size rows)) ∧ ∃ k, 0 < k ∧ k < rows.length ∧ CutAt budget rows k ∧
    size (rows.take k) ≤ runningTotal rows k ∧ budget < size (rows.take (k + 1))

theorem well_cut_conforms {k : Nat} (positive : 0 < budget) (fewer : k < rows.length)
    (total : runningTotal rows k ≤ budget) (covered : size (rows.take k) ≤ runningTotal rows k)
    (full : budget < size (rows.take (k + 1))) :
    Conforms budget rows (rows.take k) (runningTotal rows k) where
  estimated := covered
  within _ := Nat.le_trans covered total
  front := List.take_prefix k rows
  longest more part fits := by
    by_contra longer
    rw [List.length_take, Nat.min_eq_left (Nat.le_of_lt fewer), Nat.not_le] at longer
    have next : rows.take (k + 1) <+: more := by
      refine List.prefix_of_prefix_length_le (List.take_prefix ..) part ?_
      rw [List.length_take]
      omega
    exact absurd (Nat.le_trans (size_mono next) (fits positive)) (Nat.not_le.mpr full)

theorem conforms_well_cut {k : Nat} (trimmed : 0 < budget ∧ budget < u32 (size rows))
    (within : k ≤ rows.length) (cut : CutAt budget rows k)
    (conforms : Conforms budget rows (rows.take k) (runningTotal rows k)) : WellCut budget rows := by
  have long : u32 (size rows) ≤ size rows := Nat.mod_le ..
  have kept : (rows.take k).length = k := by
    rw [List.length_take, Nat.min_eq_left within]
  have fewer : k < rows.length := by
    by_contra all
    have fits := conforms.within trimmed.1
    rw [List.take_of_length_le (Nat.not_lt.mp all)] at fits
    omega
  refine ⟨trimmed, k, Nat.pos_of_ne_zero ?_, fewer, cut, conforms.estimated, ?_⟩
  · -- two brackets are one token, and no row is none
    rintro rfl
    have none : size [] ≤ 0 := conforms.estimated
    exact absurd none (by decide)
  · by_contra fits
    have more := conforms.longest _ (List.take_prefix (k + 1) rows) fun _ => Nat.not_lt.mp fits
    rw [kept, List.length_take] at more
    omega

/-- An answer conforms just when no row is cut or the cut is a good one. -/
theorem conforms_iff (budget : Nat) (rows : List MemoryNodeRow) :
    Conforms budget rows (withinBudget budget rows).1 (withinBudget budget rows).2 ↔
      Whole budget rows ∨ WellCut budget rows := by
  have long : u32 (size rows) ≤ size rows := Nat.mod_le ..
  unfold withinBudget
  rw [measureRows_eq]
  split <;> rename_i cut
  · obtain ⟨k, bound, trimmed, at_⟩ := trimToBudget_cut budget rows
    rw [trimmed]
    refine ⟨fun conforms => .inr (conforms_well_cut cut bound at_ conforms), ?_⟩
    rintro (⟨-, none | fits⟩ | ⟨-, k', positive, fewer, cut', covered, full⟩)
    · omega
    · omega
    · cases cutAt_unique at_ cut' bound (Nat.le_of_lt fewer)
      exact well_cut_conforms cut.1 fewer (at_.1 k positive (Nat.le_refl k)) covered full
  · constructor
    · intro conforms
      have estimated : size rows ≤ u32 (size rows) := conforms.estimated
      have short : u32 (size rows) < 2 ^ 32 := Nat.mod_lt _ (by decide)
      exact .inl ⟨by omega, by omega⟩
    · rintro (⟨short, fits⟩ | well)
      · have measured : u32 (size rows) = size rows := Nat.mod_eq_of_lt short
        rw [measured]
        refine ⟨Nat.le_refl _, fun positive => ?_, List.prefix_rfl, fun more part _ => part.length_le⟩
        exact fits.resolve_left (Nat.ne_of_gt positive)
      · exact absurd well.1 cut

end Cut

namespace Unrounded

def row : MemoryNodeRow := [("id", Json.integer 1)]

theorem separators_missed : ¬ ∀ (budget : Nat) (rows : List MemoryNodeRow), budget < 2 ^ 32 →
    Conforms budget rows (withinBudget budget rows).1 (withinBudget budget rows).2 := by
  intro conforms
  have within := (conforms 4 [row, row] (by decide)).within (by decide)
  exact absurd within (by decide +kernel)

end Unrounded
end Nps.Nwp
