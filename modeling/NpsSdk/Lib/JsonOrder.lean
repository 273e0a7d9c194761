import NpsSdk.Lib.LastWins

/-! Maps in key order: what keeps the order, and values whose objects all have it. -/
namespace Json
section Maps
variable {β : Type} {entries : List (String × β)}

theorem Ascending.distinct (ascending : Ascending entries) : (entries.map Prod.fst).Nodup := by
  refine List.pairwise_map.mpr (List.Pairwise.imp (fun {a b} below => ?_) ascending)
  exact fun equal => lt_irrefl _ (equal ▸ below)

theorem Ascending.insertSome (ascending : Ascending entries) (key : String) (field : Option β) :
    Ascending (Json.insertSome key field entries) := by
  cases field with
  | none => exact ascending
  | some value => exact ascending.insert key value

theorem sortEntries_ascending (entries : List (String × β)) : Ascending (sortEntries entries) := by
  induction entries with
  | nil => exact List.Pairwise.nil
  | cons entry rest ih => exact ih.insert entry.1 entry.2

theorem sortEntries_self (ascending : Ascending entries) : sortEntries entries = entries :=
  (sortEntries_ascending entries).ext ascending fun key => get_sortEntries key entries

theorem insertSome_held (ascending : Ascending entries) {key : String} {field : Option β}
    (held : get key entries = field) : Json.insertSome key field entries = entries := by
  refine (ascending.insertSome key field).ext ascending fun other => ?_
  by_cases same : other = key
  · subst same
    rw [get_insertSome_self, held, Option.or_self]
  · rw [get_insertSome_ne same]

theorem insertSome_map {α : Type} (f : α → β) (key : String) (field : Option α)
    (entries : List (String × α)) :
    insertSome key (field.map f) (entries.map (Prod.map id f)) =
      (insertSome key field entries).map (Prod.map id f) := by
  cases field with
  | none => rfl
  | some value => exact insert_map f key value entries

theorem mem_insert {entry : String × β} {key : String} {value : β}
    (member : entry ∈ insert key value entries) : entry = (key, value) ∨ entry ∈ entries := by
  induction entries with
  | nil => exact .inl (List.mem_singleton.mp member)
  | cons first rest ih =>
    obtain ⟨other, old⟩ := first
    rw [Json.insert] at member
    split_ifs at member with less same
    · exact List.mem_cons.mp member
    · rcases List.mem_cons.mp member with new | later
      · exact .inl new
      · exact .inr (List.mem_cons_of_mem _ later)
    · rcases List.mem_cons.mp member with old | later
      · exact .inr (old ▸ List.mem_cons_self)
      · exact (ih later).imp_right (List.mem_cons_of_mem _)

theorem mem_sortEntries {entry : String × β} (member : entry ∈ sortEntries entries) :
    entry ∈ entries := by
  induction entries with
  | nil => exact member
  | cons first rest ih =>
    rcases mem_insert member with new | later
    · exact new ▸ List.mem_cons_self
    · exact List.mem_cons_of_mem _ (ih later)

theorem get_filter_key (keep : String → Bool) {key : String} :
    get key (entries.filter fun entry => keep entry.1) = if keep key then get key entries else none := by
  induction entries with
  | nil => simp [get]
  | cons entry rest ih =>
    obtain ⟨other, value⟩ := entry
    by_cases same : key = other
    · subst same
      cases kept : keep key
      · simp [kept, ih]
      · simp [kept, get]
    · cases kept : keep other <;> simp [kept, get, same, ih]

theorem get_map {α : Type} (f : α → β) (key : String) (entries : List (String × α)) :
    get key (entries.map (Prod.map id f)) = (get key entries).map f := by
  induction entries with
  | nil => rfl
  | cons entry rest ih =>
    obtain ⟨other, value⟩ := entry
    by_cases same : key = other
    · simp [get, same]
    · simp [get, same, ih]

theorem sortEntries_congr {others : List (String × β)}
    (same : ∀ key, get key entries = get key others) : sortEntries entries = sortEntries others := by
  refine (sortEntries_ascending entries).ext (sortEntries_ascending others) fun key => ?_
  rw [get_sortEntries, get_sortEntries, same key]

end Maps

mutual
/-- Every object in the value has its keys in order. -/
def Value.Ordered : Value → Prop
  | .object fields => Ascending fields ∧ FieldsOrdered fields
  | .array items => ItemsOrdered items
  | .null | .bool _ | .number _ | .string _ => True

def FieldsOrdered : Fields → Prop
  | [] => True
  | (_, value) :: rest => value.Ordered ∧ FieldsOrdered rest

def ItemsOrdered : List Value → Prop
  | [] => True
  | item :: rest => item.Ordered ∧ ItemsOrdered rest
end

mutual
/-- The value with the keys of every object in order, where the first entry for a key counts. -/
def Value.sorted : Value → Value
  | .object fields => .object (sortEntries (sortedFields fields))
  | .array items => .array (sortedItems items)
  | .null => .null
  | .bool value => .bool value
  | .number value => .number value
  | .string text => .string text

def sortedFields : Fields → Fields
  | [] => []
  | (key, value) :: rest => (key, value.sorted) :: sortedFields rest

def sortedItems : List Value → List Value
  | [] => []
  | item :: rest => item.sorted :: sortedItems rest
end

theorem sortedFields_eq_map (fields : Fields) :
    sortedFields fields = fields.map (Prod.map id Value.sorted) := by
  induction fields with
  | nil => rfl
  | cons field rest ih =>
    rw [sortedFields, ih]
    rfl

end Json
