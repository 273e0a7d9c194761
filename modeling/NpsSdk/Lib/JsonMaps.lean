import NpsSdk.Lib.Json

/-! Objects as lists of entries: what is found in lists that are joined, filtered or mapped. -/
namespace Json
section Maps
variable {β : Type}

theorem get_cons_self (key : String) (value : β) (rest : List (String × β)) :
    get key ((key, value) :: rest) = some value := by
  simp [get]

theorem get_cons_ne {key other : String} (different : key ≠ other) (value : β)
    (rest : List (String × β)) : get key ((other, value) :: rest) = get key rest := by
  simp [get, different]

theorem get_append (key : String) (first second : List (String × β)) :
    get key (first ++ second) = (get key first).or (get key second) := by
  induction first with
  | nil => rfl
  | cons entry rest ih =>
    obtain ⟨other, value⟩ := entry
    by_cases same : key = other
    · simp [get, same]
    · simp only [List.cons_append, get, if_neg same, ih]

/-- A field that is left out when there is nothing in it. -/
def skipNone (key : String) (field : Option β) : List (String × β) :=
  match field with
  | some value => [(key, value)]
  | none => []

@[simp] theorem get_skipNone_self (key : String) (field : Option β) :
    get key (skipNone key field) = field := by
  cases field <;> simp [skipNone, get]

theorem get_skipNone_ne {key other : String} (different : other ≠ key)
    (field : Option β) : get other (skipNone key field) = none := by
  cases field <;> simp [skipNone, get, different]

theorem get_filter {keep : String × β → Bool} {key : String} {value : β}
    {entries : List (String × β)} (found : get key entries = some value) (kept : keep (key, value) = true) :
    get key (entries.filter keep) = some value := by
  induction entries with
  | nil => cases found
  | cons entry rest ih =>
    obtain ⟨other, held⟩ := entry
    by_cases same : key = other
    · rw [Json.get, if_pos same] at found
      cases Option.some.inj found
      subst same
      simp [kept, Json.get]
    · rw [Json.get, if_neg same] at found
      rw [List.filter_cons]
      split
      · rw [Json.get, if_neg same, ih found]
      · exact ih found

section Values
variable {α : Type} (f : α → β)

theorem insert_map (key : String) (value : α) (entries : List (String × α)) :
    insert key (f value) (entries.map (Prod.map id f)) =
      (insert key value entries).map (Prod.map id f) := by
  induction entries with
  | nil => rfl
  | cons entry rest ih =>
    obtain ⟨other, old⟩ := entry
    simp only [List.map_cons, Prod.map, id, Json.insert]
    split_ifs with less same
    · rfl
    · rfl
    · rw [List.map_cons, ← ih]
      rfl

theorem sortEntries_map (entries : List (String × α)) :
    sortEntries (entries.map (Prod.map id f)) = (sortEntries entries).map (Prod.map id f) := by
  induction entries with
  | nil => rfl
  | cons entry rest ih =>
    change insert entry.1 (f entry.2) (sortEntries (rest.map (Prod.map id f))) = _
    rw [ih, insert_map]
    rfl

end Values
end Maps
end Json
