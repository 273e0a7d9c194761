import Mathlib.Data.List.Basic

/-! Entries that are looked up by name. An entry has a label of its own, and further names that it may share
with others. Two lookups are compared: one by label first and by another name only when one entry
has it, the other for the first entry that has the name as label or as one of its plain names. -/
namespace NameResolution

/-- The names of an entry, and what it stands for. -/
structure Naming (α κ τ : Type) where
  label : α → κ
  plain : α → κ
  derived : α → κ
  target : α → τ

variable {α κ τ : Type} [DecidableEq κ] (naming : Naming α κ τ) (entries : List α)

/-- The only entry, the candidates when there are several. -/
def single : List α → Except (List α) (Option α)
  | [] => .ok none
  | [entry] => .ok (some entry)
  | candidates => .error candidates

/-- The entry with the label, or else the only one with the name. -/
def byLabelFirst (name : κ) : Except (List α) (Option α) :=
  (entries.find? fun entry => naming.label entry = name).elim
    (single (entries.filter fun entry => naming.plain entry = name ∨ naming.derived entry = name))
    fun entry => .ok (some entry)

def firstNamed (name : κ) : Option α :=
  entries.find? fun entry => naming.label entry = name ∨ naming.plain entry = name

/-- What a name identifies: the entries that it labels, or all that have it when it labels none. -/
def Identifies (name : κ) (entry : α) : Prop :=
  entry ∈ entries ∧ (naming.label entry = name ∨
    (∀ other ∈ entries, naming.label other ≠ name) ∧
      (naming.plain entry = name ∨ naming.derived entry = name))

/-- Labels lead to their entry, ambiguous names to none, and both lookups to the same. -/
structure Sound (utterable : κ → Prop) : Prop where
  label_first : ∀ entry ∈ entries, ∀ found,
    byLabelFirst naming entries (naming.label entry) = .ok (some found) →
      naming.target found = naming.target entry
  first_named : ∀ entry ∈ entries, ∀ found, firstNamed naming entries (naming.label entry) = some found →
    naming.target found = naming.target entry
  ambiguous : ∀ name, utterable name → ∀ entry other, Identifies naming entries name entry →
    Identifies naming entries name other → naming.target entry ≠ naming.target other →
    (∀ found, byLabelFirst naming entries name ≠ .ok (some found)) ∧ firstNamed naming entries name = none
  agree : ∀ name, utterable name → ∀ found found', byLabelFirst naming entries name = .ok (some found) →
    firstNamed naming entries name = some found' → naming.target found = naming.target found'

/-- No label is shared; a plain name that is another's label comes after it; and a plain name that another
entry has too is a label. -/
structure Apart (utterable : κ → Prop) : Prop where
  labels : ∀ entry ∈ entries, ∀ other ∈ entries, naming.label entry = naming.label other →
    naming.target entry = naming.target other
  shadowed : ∀ before entry after, entries = before ++ entry :: after → ∀ other ∈ entries,
    naming.plain entry = naming.label other → naming.target entry ≠ naming.target other →
    ∃ earlier ∈ before, naming.target earlier = naming.target other
  shared : ∀ entry ∈ entries, utterable (naming.plain entry) → ∀ other ∈ entries,
    (naming.plain other = naming.plain entry ∨ naming.derived other = naming.plain entry) →
    naming.target other ≠ naming.target entry → ∃ labelled ∈ entries, naming.label labelled = naming.plain entry

variable {naming entries} {name : κ} {entry other : α}

theorem firstNamed_split (found : firstNamed naming entries name = some entry) :
    ∃ before after, entries = before ++ entry :: after ∧
      (naming.label entry = name ∨ naming.plain entry = name) ∧
      ∀ earlier ∈ before, naming.label earlier ≠ name ∧ naming.plain earlier ≠ name := by
  obtain ⟨has, before, after, split, none_⟩ := List.find?_eq_some_iff_append.mp found
  refine ⟨before, after, split, of_decide_eq_true has, fun earlier member => ?_⟩
  have lacks := none_ earlier member
  simp only [Bool.not_eq_true', decide_eq_false_iff_not, not_or] at lacks
  exact lacks

theorem firstNamed_none : firstNamed naming entries name = none ↔
    ∀ entry ∈ entries, naming.label entry ≠ name ∧ naming.plain entry ≠ name := by
  simp [firstNamed, List.find?_eq_none]

omit [DecidableEq κ] in
theorem single_some {candidates : List α} (found : single candidates = .ok (some entry)) :
    candidates = [entry] := by
  cases candidates with
  | nil => cases found
  | cons one rest =>
    cases rest with
    | nil =>
      cases found
      rfl
    | cons => cases found

/-- The entry that is found has the label, or is the only one with the name when no entry has that label. -/
theorem byLabelFirst_some (found : byLabelFirst naming entries name = .ok (some entry)) :
    entry ∈ entries ∧ (naming.label entry = name ∨ (∀ other ∈ entries, naming.label other ≠ name) ∧
      entries.filter (fun entry => naming.plain entry = name ∨ naming.derived entry = name) = [entry]) := by
  unfold byLabelFirst at found
  cases labelled : entries.find? (fun entry => naming.label entry = name) with
  | some one =>
    rw [labelled] at found
    cases found
    exact ⟨List.mem_of_find?_eq_some labelled, .inl (by simpa using List.find?_some labelled)⟩
  | none =>
    rw [labelled] at found
    have having := single_some found
    have unlabelled : ∀ other ∈ entries, naming.label other ≠ name := by
      simpa using List.find?_eq_none.mp labelled
    exact ⟨List.mem_of_mem_filter (having ▸ List.mem_cons_self), .inr ⟨unlabelled, having⟩⟩

variable (naming) in
theorem byLabelFirst_label (member : entry ∈ entries) : ∃ found ∈ entries,
    byLabelFirst naming entries (naming.label entry) = .ok (some found) ∧
      naming.label found = naming.label entry := by
  cases labelled : entries.find? (fun other => naming.label other = naming.label entry) with
  | none =>
    have absent := List.find?_eq_none.mp labelled entry member
    simp at absent
  | some found =>
    refine ⟨found, List.mem_of_find?_eq_some labelled, ?_, by simpa using List.find?_some labelled⟩
    rw [byLabelFirst, labelled]
    rfl

theorem Apart.first_named {utterable : κ → Prop} (apart : Apart naming entries utterable)
    (determined : ∀ entry ∈ entries, ∀ other ∈ entries, naming.target entry = naming.target other →
      naming.label entry = naming.label other)
    (member : entry ∈ entries) (found : firstNamed naming entries (naming.label entry) = some other) :
    naming.target other = naming.target entry := by
  obtain ⟨before, after, split, named, first⟩ := firstNamed_split found
  have there : other ∈ entries := split ▸ List.mem_append_right _ List.mem_cons_self
  rcases named with labelled | plain
  · exact apart.labels other there entry member labelled
  · by_contra different
    obtain ⟨earlier, ahead, same⟩ := apart.shadowed before other after split entry member plain different
    have there' : earlier ∈ entries := split ▸ List.mem_append_left _ ahead
    exact (first earlier ahead).1 (determined earlier there' entry member same)

/-- A name without a label that one entry has plainly, and another has too, is taken for the first. -/
theorem Sound.shared {utterable : κ → Prop} (sound : Sound naming entries utterable) (member : entry ∈ entries)
    (said : utterable (naming.plain entry)) (member' : other ∈ entries)
    (shares : naming.plain other = naming.plain entry ∨ naming.derived other = naming.plain entry)
    (different : naming.target other ≠ naming.target entry) :
    ∃ labelled ∈ entries, naming.label labelled = naming.plain entry := by
  by_contra unlabelled
  have none_ : ∀ labelled ∈ entries, naming.label labelled ≠ naming.plain entry :=
    fun labelled there same => unlabelled ⟨labelled, there, same⟩
  have rejected := (sound.ambiguous _ said other entry ⟨member', .inr ⟨none_, shares⟩⟩
    ⟨member, .inr ⟨none_, .inl rfl⟩⟩ different).2
  exact (firstNamed_none.mp rejected entry member).2 rfl

theorem Apart.ambiguous {utterable : κ → Prop} (apart : Apart naming entries utterable)
    (said : utterable name) (identified : Identifies naming entries name entry)
    (identified' : Identifies naming entries name other)
    (different : naming.target entry ≠ naming.target other) :
    (∀ found, byLabelFirst naming entries name ≠ .ok (some found)) ∧ firstNamed naming entries name = none := by
  obtain ⟨member, labelled | ⟨unlabelled, has⟩⟩ := identified
  · obtain ⟨member', labelled' | ⟨unlabelled, -⟩⟩ := identified'
    · exact absurd (apart.labels entry member other member' (labelled.trans labelled'.symm)) different
    · exact absurd labelled (unlabelled entry member)
  · obtain ⟨member', labelled' | ⟨-, has'⟩⟩ := identified'
    · exact absurd labelled' (unlabelled other member')
    refine ⟨fun found resolved => ?_,
      firstNamed_none.mpr fun first there => ⟨unlabelled first there, fun plain => ?_⟩⟩
    · rcases (byLabelFirst_some resolved).2 with labelled | ⟨-, single⟩
      · exact unlabelled found (byLabelFirst_some resolved).1 labelled
      · have listed (some_ : α) (there : some_ ∈ entries)
            (having : naming.plain some_ = name ∨ naming.derived some_ = name) : some_ = found :=
          List.mem_singleton.mp (single ▸ List.mem_filter.mpr ⟨there, decide_eq_true having⟩)
        exact different (listed entry member has ▸ listed other member' has' ▸ rfl)
    · -- one of the two entries stands for something else than the first that has the name plainly
      have taken (some_ : α) (there' : some_ ∈ entries)
          (having : naming.plain some_ = name ∨ naming.derived some_ = name) :
          naming.target some_ = naming.target first := by
        by_contra other
        obtain ⟨labelled, member, same⟩ :=
          apart.shared first there (plain ▸ said) some_ there' (plain ▸ having) other
        exact unlabelled labelled member (same.trans plain)
      exact different ((taken entry member has).trans (taken other member' has').symm)

/-- The lookups are sound when the names are apart, and not otherwise. -/
theorem sound_iff {utterable : κ → Prop}
    (determined : ∀ entry ∈ entries, ∀ other ∈ entries, naming.target entry = naming.target other →
      naming.label entry = naming.label other) :
    Sound naming entries utterable ↔ Apart naming entries utterable := by
  constructor
  · intro sound
    refine ⟨fun entry member other member' same => ?_,
      fun before entry after split other member plain different => ?_,
      fun entry member said other member' shares different => sound.shared member said member' shares different⟩
    · obtain ⟨found, -, resolved, -⟩ := byLabelFirst_label naming member
      have first := sound.label_first entry member found resolved
      rw [same] at resolved
      exact first.symm.trans (sound.label_first other member' found resolved)
    · cases resolved : firstNamed naming entries (naming.label other) with
      | none => exact absurd rfl (firstNamed_none.mp resolved other member).1
      | some found =>
        have same := sound.first_named other member found resolved
        obtain ⟨ahead, behind, split', named, first⟩ := firstNamed_split resolved
        refine ⟨found, ?_, same⟩
        rcases List.append_eq_append_iff.mp (split.symm.trans split') with
          ⟨between, rfl, tail⟩ | ⟨between, rfl, tail⟩
        · -- the entry itself would be passed over, or be the one found
          cases between with
          | nil =>
            cases (List.cons.inj tail).1
            exact absurd same different
          | cons head rest =>
            cases (List.cons.inj tail).1
            exact absurd plain (first entry (by simp)).2
        · cases between with
          | nil =>
            cases (List.cons.inj tail).1
            exact absurd same different
          | cons head rest =>
            cases (List.cons.inj tail).1
            simp
  · intro apart
    refine ⟨fun entry member found resolved => ?_,
      fun entry member found resolved => apart.first_named determined member resolved,
      fun name said entry other identified identified' different =>
        apart.ambiguous said identified identified' different,
      fun name said found found' resolved resolved' => ?_⟩
    · obtain ⟨there, labelled | ⟨unlabelled, -⟩⟩ := byLabelFirst_some resolved
      · exact apart.labels found there entry member labelled
      · exact absurd rfl (unlabelled entry member)
    · obtain ⟨there, labelled | ⟨unlabelled, single⟩⟩ := byLabelFirst_some resolved
      · subst labelled
        exact (apart.first_named determined there resolved').symm
      · obtain ⟨before, after, split, named, -⟩ := firstNamed_split resolved'
        have there' : found' ∈ entries := split ▸ List.mem_append_right _ List.mem_cons_self
        have plain := named.resolve_left (unlabelled found' there')
        have listed : found' ∈ [found] := single ▸ List.mem_filter.mpr ⟨there', decide_eq_true (.inl plain)⟩
        rw [List.mem_singleton.mp listed]

end NameResolution
