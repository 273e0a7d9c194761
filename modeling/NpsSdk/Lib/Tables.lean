import Mathlib.Data.List.Perm.Basic
import Mathlib.Order.Lattice

/-! Tables of rows: what a query may answer with, and a change of one row. -/
namespace Table
variable {α β κ : Type}

def SelectsAll (kind : α → Prop) [DecidablePred kind] (table rows : List α) : Prop :=
  rows.Perm (table.filter kind)

def SelectsOne (kind : α → Prop) (table rows : List α) : Prop :=
  (∀ row ∈ table, ¬ kind row) ∧ rows = [] ∨ ∃ row ∈ table, kind row ∧ rows = [row]

def SelectsGreatest [LE κ] (kind : α → Prop) (key : α → κ) (table rows : List α) : Prop :=
  SelectsOne kind table rows ∧ ∀ row ∈ rows, ∀ other ∈ table, kind other → key other ≤ key row

section
variable {kind : α → Prop} {table other rows : List α}

theorem SelectsAll.perm [DecidablePred kind] (selected : SelectsAll kind table rows)
    (same : table.Perm other) : SelectsAll kind other rows :=
  selected.trans (same.filter _)

theorem SelectsOne.perm (selected : SelectsOne kind table rows) (same : table.Perm other) :
    SelectsOne kind other rows := by
  obtain ⟨missing, empty⟩ | ⟨row, held, isKind, single⟩ := selected
  · exact .inl ⟨fun row held => missing row (same.symm.subset held), empty⟩
  · exact .inr ⟨row, same.subset held, isKind, single⟩

theorem SelectsGreatest.perm [LE κ] {key : α → κ} (selected : SelectsGreatest kind key table rows)
    (same : table.Perm other) : SelectsGreatest kind key other rows :=
  ⟨selected.1.perm same, fun row found item held => selected.2 row found item (same.symm.subset held)⟩

theorem SelectsOne.of_perm [DecidablePred kind] (perm : rows.Perm (table.filter kind)) :
    SelectsOne kind table (rows.take 1) := by
  cases rows with
  | nil =>
    refine .inl ⟨?_, rfl⟩
    intro row held isKind
    have chosen := perm.symm.subset (List.mem_filter.mpr ⟨held, decide_eq_true isKind⟩)
    exact List.not_mem_nil chosen
  | cons row rest =>
    have chosen := List.mem_filter.mp (perm.subset List.mem_cons_self)
    exact .inr ⟨row, chosen.1, of_decide_eq_true chosen.2, rfl⟩

/-- The first of the rows, when they are sorted from the greatest key down. -/
theorem SelectsGreatest.of_mergeSort [LinearOrder κ] [DecidablePred kind] (key : α → κ) :
    SelectsGreatest kind key table
      (((table.filter kind).mergeSort fun a b => decide (key b ≤ key a)).take 1) := by
  have perm := List.mergeSort_perm (table.filter kind) fun a b => decide (key b ≤ key a)
  refine ⟨.of_perm perm, ?_⟩
  have sorted : List.Pairwise (fun a b => decide (key b ≤ key a))
      ((table.filter kind).mergeSort fun a b => decide (key b ≤ key a)) := by
    apply List.pairwise_mergeSort
    · intro a b c first second
      exact decide_eq_true (le_trans (of_decide_eq_true second) (of_decide_eq_true first))
    · intro a b
      rw [Bool.or_eq_true, decide_eq_true_eq, decide_eq_true_eq]
      exact le_total ..
  intro row first other held isKind
  have among := perm.symm.subset (List.mem_filter.mpr ⟨held, decide_eq_true isKind⟩)
  generalize (table.filter kind).mergeSort (fun a b => decide (key b ≤ key a)) = order
    at sorted among first
  cases order with
  | nil => exact absurd among List.not_mem_nil
  | cons greatest rest =>
    obtain rfl : row = greatest := List.mem_singleton.mp first
    obtain rfl | later := List.mem_cons.mp among
    · exact le_rfl
    · exact of_decide_eq_true (List.rel_of_pairwise_cons sorted later)

theorem SelectsOne.eq_find? [DecidablePred kind] (selected : SelectsOne kind table rows)
    (unique : ∀ a ∈ table, ∀ b ∈ table, kind a → kind b → a = b) : rows.head? = table.find? kind := by
  obtain ⟨missing, rfl⟩ | ⟨row, held, isKind, rfl⟩ := selected
  · rw [List.head?_nil, eq_comm, List.find?_eq_none]
    intro row held
    rw [decide_eq_true_eq]
    exact missing row held
  · cases found : table.find? kind with
    | none => exact absurd (decide_eq_true isKind) (List.find?_eq_none.mp found row held)
    | some first =>
      have isFirst : kind first := by simpa using List.find?_some found
      rw [unique row held first (List.mem_of_find?_eq_some found) isKind isFirst]
      rfl

/-- The key of the last row of the kind is greater than the keys of the others. -/
theorem SelectsGreatest.eq_getLast? [Preorder κ] [DecidablePred kind] {key : α → κ}
    (selected : SelectsGreatest kind key table rows)
    (greatest : ∀ earlier last, table.filter kind = earlier ++ [last] → ∀ row ∈ earlier, key row < key last) :
    rows.head? = (table.filter kind).getLast? := by
  obtain ⟨⟨missing, rfl⟩ | ⟨row, held, isKind, rfl⟩, most⟩ := selected
  · have empty : table.filter kind = [] := by
      rw [List.filter_eq_nil_iff]
      intro row held
      rw [decide_eq_true_eq]
      exact missing row held
    rw [empty]
    rfl
  · have chosen : row ∈ table.filter kind := List.mem_filter.mpr ⟨held, decide_eq_true isKind⟩
    obtain empty | ⟨earlier, last, split⟩ := List.eq_nil_or_concat (table.filter kind)
    · rw [empty] at chosen
      exact absurd chosen List.not_mem_nil
    · rw [List.concat_eq_append] at split
      have kept : last ∈ table.filter kind := by
        rw [split]
        exact List.mem_append_right _ List.mem_cons_self
      obtain ⟨present, isLast⟩ := List.mem_filter.mp kept
      rw [split, List.mem_append, List.mem_singleton] at chosen
      obtain before | rfl := chosen
      · have under := greatest earlier last split row before
        have above := most row List.mem_cons_self last present (of_decide_eq_true isLast)
        exact absurd above (not_le_of_gt under)
      · rw [split, List.getLast?_concat]
        rfl

theorem SelectsAll.map {kind : β → Prop} [DecidablePred kind] (read : α → β)
    (selected : SelectsAll (fun row => kind (read row)) table rows) :
    SelectsAll kind (table.map read) (rows.map read) := by
  unfold SelectsAll
  rw [List.filter_map]
  exact List.Perm.map read selected

theorem SelectsOne.map {kind : β → Prop} (read : α → β)
    (selected : SelectsOne (fun row => kind (read row)) table rows) :
    SelectsOne kind (table.map read) (rows.map read) := by
  obtain ⟨missing, rfl⟩ | ⟨row, held, isKind, rfl⟩ := selected
  · exact .inl ⟨List.forall_mem_map.mpr missing, rfl⟩
  · exact .inr ⟨read row, List.mem_map_of_mem held, isKind, rfl⟩

theorem SelectsGreatest.map [LE κ] {kind : β → Prop} {key : β → κ} (read : α → β)
    (selected : SelectsGreatest (fun row => kind (read row)) (fun row => key (read row)) table rows) :
    SelectsGreatest kind key (table.map read) (rows.map read) :=
  ⟨selected.1.map read, List.forall_mem_map.mpr fun row found =>
    List.forall_mem_map.mpr fun other held => selected.2 row found other held⟩

end

def changeFirst (kind : α → Prop) [DecidablePred kind] (change : α → α) : List α → Option (List α)
  | [] => none
  | row :: rest =>
    if kind row then some (change row :: rest) else (changeFirst kind change rest).map (row :: ·)

def changeLast (kind : α → Prop) [DecidablePred kind] (change : α → α) (table : List α) :
    Option (List α) :=
  (changeFirst kind change table.reverse).map List.reverse

def changeAll (kind : α → Prop) [DecidablePred kind] (change : α → α) (table : List α) : List α :=
  table.map fun row => if kind row then change row else row

section
variable {kind : α → Prop} [DecidablePred kind] {change : α → α} {table changed : List α}

theorem changeFirst_eq_none : changeFirst kind change table = none ↔ ∀ row ∈ table, ¬ kind row := by
  induction table with
  | nil => simp [changeFirst]
  | cons row rest ih =>
    rw [changeFirst, List.forall_mem_cons]
    by_cases isKind : kind row
    · simp [isKind]
    · simp [isKind, ih]

theorem changeFirst_eq_some (done : changeFirst kind change table = some changed) :
    ∃ front row back, table = front ++ row :: back ∧ kind row ∧ (∀ other ∈ front, ¬ kind other) ∧
      changed = front ++ change row :: back := by
  induction table generalizing changed with
  | nil => cases done
  | cons row rest ih =>
    rw [changeFirst] at done
    by_cases isKind : kind row
    · rw [if_pos isKind] at done
      exact ⟨[], row, rest, rfl, isKind, by simp, (Option.some.inj done).symm⟩
    · rw [if_neg isKind] at done
      obtain ⟨later, found, rfl⟩ := Option.map_eq_some_iff.mp done
      obtain ⟨front, changing, back, rfl, isKind', before, rfl⟩ := ih found
      exact ⟨row :: front, changing, back, rfl, isKind', List.forall_mem_cons.mpr ⟨isKind, before⟩, rfl⟩

theorem changeLast_eq_none : changeLast kind change table = none ↔ ∀ row ∈ table, ¬ kind row := by
  unfold changeLast
  rw [Option.map_eq_none_iff, changeFirst_eq_none]
  simp only [List.mem_reverse]

theorem changeLast_eq_some (done : changeLast kind change table = some changed) :
    ∃ front row back, table = front ++ row :: back ∧ kind row ∧ (∀ other ∈ back, ¬ kind other) ∧
      changed = front ++ change row :: back := by
  obtain ⟨later, found, rfl⟩ := Option.map_eq_some_iff.mp done
  obtain ⟨back, row, front, split, isKind, after, rfl⟩ := changeFirst_eq_some found
  refine ⟨front.reverse, row, back.reverse, ?_, isKind, ?_, ?_⟩
  · rw [List.reverse_eq_iff.mp split, List.reverse_append, List.reverse_cons, List.append_assoc]
    rfl
  · simpa using after
  · rw [List.reverse_append, List.reverse_cons, List.append_assoc]
    rfl

theorem changeAll_of_none (missing : ∀ row ∈ table, ¬ kind row) : changeAll kind change table = table := by
  unfold changeAll
  conv_rhs => rw [← List.map_id table]
  exact List.map_congr_left fun row held => if_neg (missing row held)

theorem changeLast_eq_changeAll (single : table.countP kind ≤ 1)
    (done : changeLast kind change table = some changed) : changed = changeAll kind change table := by
  obtain ⟨front, row, back, rfl, isKind, after, rfl⟩ := changeLast_eq_some done
  rw [List.countP_append, List.countP_cons, if_pos (decide_eq_true isKind)] at single
  have before : ∀ other ∈ front, ¬ kind other := by
    have none_ : front.countP kind = 0 := by omega
    simpa using List.countP_eq_zero.mp none_
  have fronts : changeAll kind change front = front := changeAll_of_none before
  have backs : changeAll kind change back = back := changeAll_of_none after
  unfold changeAll at fronts backs ⊢
  rw [List.map_append, List.map_cons, if_pos isKind, fronts, backs]

/-- A change of the rows that a table is read from is a change of the table. -/
theorem changeFirst_map {test : β → Prop} [DecidablePred test] {edit : β → β} {read : α → β}
    (tests : ∀ row ∈ table, test (read row) ↔ kind row)
    (edits : ∀ row ∈ table, kind row → edit (read row) = read (change row)) :
    changeFirst test edit (table.map read) = (changeFirst kind change table).map (List.map read) := by
  induction table with
  | nil => rfl
  | cons row rest ih =>
    rw [List.forall_mem_cons] at tests edits
    rw [List.map_cons, changeFirst, changeFirst, ih tests.2 edits.2]
    by_cases isKind : kind row
    · rw [if_pos (tests.1.mpr isKind), if_pos isKind, edits.1 isKind]
      rfl
    · rw [if_neg (mt tests.1.mp isKind), if_neg isKind, Option.map_map, Option.map_map]
      rfl

theorem changeLast_map {test : β → Prop} [DecidablePred test] {edit : β → β} {read : α → β}
    (tests : ∀ row ∈ table, test (read row) ↔ kind row)
    (edits : ∀ row ∈ table, kind row → edit (read row) = read (change row)) :
    changeLast test edit (table.map read) = (changeLast kind change table).map (List.map read) := by
  have firsts : changeFirst test edit (table.reverse.map read) =
      (changeFirst kind change table.reverse).map (List.map read) :=
    changeFirst_map (fun row held => tests row (List.mem_reverse.mp held))
      fun row held => edits row (List.mem_reverse.mp held)
  unfold changeLast
  rw [← List.map_reverse, firsts, Option.map_map, Option.map_map]
  congr 1
  funext rows
  exact List.map_reverse.symm

theorem changeAll_map {test : β → Prop} [DecidablePred test] {edit : β → β} {read : α → β}
    (tests : ∀ row ∈ table, test (read row) ↔ kind row)
    (edits : ∀ row ∈ table, kind row → edit (read row) = read (change row)) :
    changeAll test edit (table.map read) = (changeAll kind change table).map read := by
  unfold changeAll
  rw [List.map_map, List.map_map]
  apply List.map_congr_left
  intro row held
  change (if test (read row) then edit (read row) else read row) = read (if kind row then change row else row)
  by_cases isKind : kind row
  · rw [if_pos ((tests row held).mpr isKind), if_pos isKind, edits row held isKind]
  · rw [if_neg (mt (tests row held).mp isKind), if_neg isKind]

end
end Table
