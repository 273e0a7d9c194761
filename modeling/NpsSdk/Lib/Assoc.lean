import Mathlib.Data.List.AList

/-! Maps whose values are also edited, dropped and counted as a whole. -/

/-- A finite map; the order of its entries has no meaning. -/
abbrev Assoc (κ β : Type) := AList fun _ : κ => β

namespace AList
variable {κ β : Type}

def mapValues (f : β → β) (m : Assoc κ β) : Assoc κ β where
  entries := m.entries.map (Sigma.map id fun _ => f)
  nodupKeys := List.NodupKeys.map₂ (fun _ => f) m.entries m.nodupKeys

def retain (keep : β → Bool) (m : Assoc κ β) : Assoc κ β where
  entries := m.entries.filter fun entry => keep entry.2
  nodupKeys := m.nodupKeys.sublist List.filter_sublist

def count (test : β → Prop) [DecidablePred test] (m : Assoc κ β) : Nat :=
  m.entries.countP fun entry => test entry.2

def modify [DecidableEq κ] (key : κ) (f : β → β) (m : Assoc κ β) : Assoc κ β :=
  match m.lookup key with
  | some value => m.insert key (f value)
  | none => m

section Lookup
variable [DecidableEq κ] {m : Assoc κ β} {key other : κ} {value : β}

theorem lookup_insert_if : (m.insert key value).lookup other =
    if other = key then some value else m.lookup other := by
  split
  · rename_i same
    rw [same]
    exact lookup_insert m
  · rename_i different
    exact lookup_insert_ne different

theorem lookup_erase_if : (m.erase key).lookup other =
    if other = key then none else m.lookup other := by
  split
  · rename_i same
    rw [same]
    exact lookup_erase key m
  · rename_i different
    exact lookup_erase_ne different

theorem lookup_modify {f : β → β} : (m.modify key f).lookup other =
    if other = key then (m.lookup key).map f else m.lookup other := by
  unfold modify
  split
  · rename_i value found
    rw [lookup_insert_if, found]
    rfl
  · rename_i missing
    split
    · rename_i same
      rw [same, missing]
      rfl
    · rfl

theorem lookup_mapValues (f : β → β) : (m.mapValues f).lookup key = (m.lookup key).map f :=
  List.dlookup_map₂ (f := fun _ => f) key

theorem lookup_retain (keep : β → Bool) :
    (m.retain keep).lookup key = (m.lookup key).filter keep := by
  apply Option.ext
  intro value
  have kept : value ∈ (m.retain keep).lookup key ↔
      Sigma.mk key value ∈ m.entries.filter fun entry => keep entry.2 := mem_lookup_iff
  have there : value ∈ m.lookup key ↔ Sigma.mk key value ∈ m.entries := mem_lookup_iff
  rw [List.mem_filter, ← there] at kept
  rw [Option.filter_eq_some_iff]
  exact kept

end Lookup

section Counting
variable {test : β → Prop} [DecidablePred test] {keep : β → Bool} {m : Assoc κ β}

@[simp] theorem count_empty : (∅ : Assoc κ β).count test = 0 := rfl

theorem count_retain_le : (m.retain keep).count test ≤ m.count test :=
  List.filter_sublist.countP_le

theorem count_mapValues_le {f : β → β} (lowers : ∀ value, test (f value) → test value) :
    (m.mapValues f).count test ≤ m.count test := by
  change (m.entries.map _).countP _ ≤ _
  rw [List.countP_map]
  refine List.countP_mono_left fun entry _ passes => ?_
  exact decide_eq_true (lowers entry.2 (of_decide_eq_true passes))

variable [DecidableEq κ] {key : κ} {value old : β}

theorem count_erase (found : m.lookup key = some old) :
    (m.erase key).count test + (if test old then 1 else 0) = m.count test := by
  have member : key ∈ m.entries.keys := List.dlookup_isSome.mp (by rw [← lookup, found]; rfl)
  obtain ⟨stored, front, back, absent, entries, erased⟩ := List.exists_of_kerase member
  have same : stored = old := by
    have there : stored ∈ m.lookup key := mem_lookup_iff.mpr (by rw [entries]; simp)
    exact Option.some.inj (there.symm.trans found)
  subst same
  change (m.entries.kerase key).countP _ + _ = m.entries.countP _
  rw [erased, entries, List.countP_append, List.countP_append, List.countP_cons]
  simp only [decide_eq_true_eq]
  omega

theorem count_insert : (m.insert key value).count test =
    (m.erase key).count test + if test value then 1 else 0 := by
  change ((m.insert key value).entries).countP _ = _
  rw [entries_insert, List.countP_cons]
  simp only [decide_eq_true_eq]
  rfl

theorem erase_of_none (missing : m.lookup key = none) : m.erase key = m := by
  apply AList.ext
  exact List.kerase_of_notMem_keys (lookup_eq_none.mp missing)

theorem count_insert_of_none (missing : m.lookup key = none) :
    (m.insert key value).count test = m.count test + if test value then 1 else 0 := by
  rw [count_insert, erase_of_none missing]

theorem count_insert_of_some (found : m.lookup key = some old) :
    (m.insert key value).count test + (if test old then 1 else 0) =
      m.count test + if test value then 1 else 0 := by
  have erased : (m.erase key).count test + (if test old then 1 else 0) = m.count test :=
    count_erase found
  rw [count_insert]
  omega

theorem count_modify {f : β → β} (same : ∀ value, test (f value) ↔ test value) :
    (m.modify key f).count test = m.count test := by
  unfold modify
  split
  · rename_i value found
    have counted : (m.insert key (f value)).count test + (if test value then 1 else 0) =
        m.count test + if test (f value) then 1 else 0 := count_insert_of_some found
    simp only [same] at counted
    exact Nat.add_right_cancel counted
  · rfl

end Counting

section Agreeing
variable {P : β → Prop} {m m' other : Assoc κ β}

def AgreeOn [DecidableEq κ] (P : β → Prop) (m m' : Assoc κ β) : Prop :=
  ∀ key value, P value → (m.lookup key = some value ↔ m'.lookup key = some value)

variable [DecidableEq κ]

theorem AgreeOn.refl (m : Assoc κ β) : AgreeOn P m m := fun _ _ _ => Iff.rfl

theorem AgreeOn.of_one {key : κ} (elsewhere : ∀ k, k ≠ key → m'.lookup k = m.lookup k)
    (before : ∀ value, m.lookup key = some value → ¬ P value)
    (after : ∀ value, m'.lookup key = some value → ¬ P value) : AgreeOn P m m' := by
  intro k value ofKind
  by_cases same : k = key
  · subst same
    constructor
    · intro there
      exact absurd ofKind (before value there)
    · intro there
      exact absurd ofKind (after value there)
  · rw [elsewhere k same]

theorem AgreeOn.insert {key : κ} {new : β} (before : ∀ value, m.lookup key = some value → ¬ P value)
    (after : ¬ P new) : AgreeOn P m (m.insert key new) := by
  refine AgreeOn.of_one (fun k different => lookup_insert_ne different) before fun value there => ?_
  rw [lookup_insert] at there
  exact Option.some.inj there ▸ after

theorem AgreeOn.erase {key : κ} (before : ∀ value, m.lookup key = some value → ¬ P value) :
    AgreeOn P m (m.erase key) := by
  refine AgreeOn.of_one (fun k different => lookup_erase_ne different) before fun value there => ?_
  rw [lookup_erase] at there
  cases there

theorem AgreeOn.mapValues {f : β → β} (agree : AgreeOn P m m') (kind : ∀ value, P (f value) → P value) :
    AgreeOn P (m.mapValues f) (m'.mapValues f) := by
  intro key value ofKind
  rw [lookup_mapValues, lookup_mapValues, Option.map_eq_some_iff, Option.map_eq_some_iff]
  constructor
  · rintro ⟨original, there, rfl⟩
    exact ⟨original, (agree key original (kind original ofKind)).mp there, rfl⟩
  · rintro ⟨original, there, rfl⟩
    exact ⟨original, (agree key original (kind original ofKind)).mpr there, rfl⟩

theorem AgreeOn.retain {keep : β → Bool} (agree : AgreeOn P m m') :
    AgreeOn P (m.retain keep) (m'.retain keep) := by
  intro key value ofKind
  rw [lookup_retain, lookup_retain, Option.filter_eq_some_iff, Option.filter_eq_some_iff,
    agree key value ofKind]

theorem AgreeOn.count {test : β → Prop} [DecidablePred test] (agree : AgreeOn P m m')
    (kind : ∀ value, test value → P value) : m.count test = m'.count test := by
  have same : (m.retain (decide <| test ·)).entries.Perm (m'.retain (decide <| test ·)).entries := by
    refine List.lookup_ext (m.retain _).nodupKeys (m'.retain _).nodupKeys fun key value => ?_
    change (m.retain (decide <| test ·)).lookup key = some value ↔
      (m'.retain (decide <| test ·)).lookup key = some value
    rw [lookup_retain, lookup_retain, Option.filter_eq_some_iff, Option.filter_eq_some_iff]
    constructor
    · rintro ⟨there, tested⟩
      exact ⟨(agree key value (kind value (of_decide_eq_true tested))).mp there, tested⟩
    · rintro ⟨there, tested⟩
      exact ⟨(agree key value (kind value (of_decide_eq_true tested))).mpr there, tested⟩
  have counted (m : Assoc κ β) : m.count test = (m.retain (decide <| test ·)).entries.length :=
    List.countP_eq_length_filter
  rw [counted, counted, same.length_eq]

end Agreeing
end AList
