import NpsSdk.Lib.JsonOrder
import NpsSdk.Nip.Ca.Signer

/-! What the CA's canonical text of an object says about the object. The excluded keys are left out of every
object in it, so it determines nothing that stands under one of them. -/
namespace Nps.Nip.Signer
open Json

def kept (key : String) : Bool := !excluded.contains key

def signedFields (fields : Fields) : Fields := fields.filter fun field => kept field.1

/-- One text for two objects says that they are equal, but for the excluded fields and the order of keys. -/
def Exact (a b : Fields) : Prop :=
  canonicalJson (.object a) = canonicalJson (.object b) ↔
    (Value.object (signedFields a)).sorted = (Value.object (signedFields b)).sorted

mutual
/-- What is left of a value without the excluded keys of any object in it. -/
def covered : Value → Value
  | .object fields => .object (sortEntries (signedFields (coveredFields fields)))
  | .array items => .array (coveredItems items)
  | .null => .null
  | .bool value => .bool value
  | .number value => .number value
  | .string text => .string text

def coveredFields : Fields → Fields
  | [] => []
  | (key, value) :: rest => (key, covered value) :: coveredFields rest

def coveredItems : List Value → List Value
  | [] => []
  | item :: rest => covered item :: coveredItems rest
end

theorem coveredFields_eq_map (fields : Fields) :
    coveredFields fields = fields.map (Prod.map id covered) := by
  induction fields with
  | nil => rfl
  | cons field rest ih =>
    rw [coveredFields, ih]
    rfl

theorem get_signedFields (key : String) (fields : Fields) :
    get key (signedFields fields) = if kept key then get key fields else none :=
  get_filter_key kept

mutual
theorem writeCanonical_covered : ∀ value : Value, writeCanonical value = (covered value).compact
  | .null | .bool _ | .number _ | .string _ => rfl
  | .array items => by
    rw [writeCanonical, covered, Value.compact, canonicalItems_covered items, join_items]
  | .object fields => by
    have filtered (entries : Fields) :
        (entries.map (Prod.map id Value.compact)).filter (fun entry => !excluded.contains entry.1) =
          (signedFields entries).map (Prod.map id Value.compact) := List.filter_map
    rw [writeCanonical, covered, Value.compact, canonicalFields_covered fields, ← join_fields]
    unfold writeEntries
    dsimp only
    rw [filtered, sortEntries_map, List.map_map]
    rfl

theorem canonicalFields_covered : ∀ fields : Fields,
    canonicalFields fields = (coveredFields fields).map (Prod.map id Value.compact)
  | [] => rfl
  | (key, value) :: rest => by
    rw [canonicalFields, coveredFields, writeCanonical_covered value, canonicalFields_covered rest]
    rfl

theorem canonicalItems_covered : ∀ items : List Value,
    canonicalItems items = (coveredItems items).map Value.compact
  | [] => rfl
  | item :: rest => by
    rw [canonicalItems, coveredItems, writeCanonical_covered item, canonicalItems_covered rest]
    rfl
end

theorem canonicalJson_eq_iff {v w : Value} : canonicalJson v = canonicalJson w ↔ covered v = covered w := by
  rw [canonicalJson, canonicalJson, writeCanonical_covered, writeCanonical_covered]
  exact Value.text_injective.eq_iff

mutual
theorem covered_sorted : ∀ value : Value, covered value.sorted = covered value
  | .null | .bool _ | .number _ | .string _ => rfl
  | .array items => by rw [Value.sorted, covered, covered, coveredItems_sorted items]
  | .object fields => by
    have inside := coveredFields_sorted fields
    rw [coveredFields_eq_map] at inside
    rw [Value.sorted, covered, covered, Value.object.injEq]
    refine sortEntries_congr fun key => ?_
    rw [get_signedFields, get_signedFields, ← inside, coveredFields_eq_map, ← sortEntries_map,
      get_sortEntries]

theorem coveredFields_sorted : ∀ fields : Fields, coveredFields (sortedFields fields) = coveredFields fields
  | [] => rfl
  | (key, value) :: rest => by
    rw [sortedFields, coveredFields, coveredFields, covered_sorted value, coveredFields_sorted rest]

theorem coveredItems_sorted : ∀ items : List Value, coveredItems (sortedItems items) = coveredItems items
  | [] => rfl
  | item :: rest => by
    rw [sortedItems, coveredItems, coveredItems, covered_sorted item, coveredItems_sorted rest]
end

theorem covered_signedFields (fields : Fields) :
    covered (.object (signedFields fields)) = covered (.object fields) := by
  rw [covered, covered, Value.object.injEq]
  refine sortEntries_congr fun key => ?_
  rw [coveredFields_eq_map, coveredFields_eq_map, get_signedFields, get_signedFields, get_map, get_map,
    get_signedFields]
  split_ifs <;> rfl

theorem sorted_object_eq_iff {a b : Fields} : (Value.object a).sorted = (Value.object b).sorted ↔
    ∀ key, (get key a).map Value.sorted = (get key b).map Value.sorted := by
  rw [Value.sorted, Value.sorted, Value.object.injEq, sortedFields_eq_map, sortedFields_eq_map]
  constructor
  · intro same key
    have found := congrArg (get key) same
    rwa [get_sortEntries, get_sortEntries, get_map, get_map] at found
  · intro same
    refine sortEntries_congr fun key => ?_
    rw [get_map, get_map, same key]

theorem covered_object_eq_iff {a b : Fields} : covered (.object a) = covered (.object b) ↔
    ∀ key, kept key = true → (get key a).map covered = (get key b).map covered := by
  rw [covered, covered, Value.object.injEq]
  constructor
  · intro same key keeps
    have found := congrArg (get key) same
    rwa [get_sortEntries, get_sortEntries, get_signedFields, get_signedFields, if_pos keeps, if_pos keeps,
      coveredFields_eq_map, coveredFields_eq_map, get_map, get_map] at found
  · intro same
    refine sortEntries_congr fun key => ?_
    rw [get_signedFields, get_signedFields]
    split_ifs with keeps
    · rw [coveredFields_eq_map, coveredFields_eq_map, get_map, get_map, same key keeps]
    · rfl

inductive HoldsObject : Value → Prop where
  | object (fields : Fields) : HoldsObject (.object fields)
  | array {item : Value} {items : List Value} : item ∈ items → HoldsObject item → HoldsObject (.array items)

mutual
theorem sorted_of_covered : ∀ {v w : Value}, ¬ HoldsObject v → covered v = covered w → v.sorted = w.sorted
  | .null, w, _, same | .bool _, w, _, same | .number _, w, _, same | .string _, w, _, same => by
    cases w <;> simp_all [covered, Value.sorted]
  | .object fields, _, flat, _ => absurd (.object fields) flat
  | .array items, w, flat, same => by
    cases w with
    | array others =>
      have inside := sortedItems_of_covered (fun _ member holds => flat (.array member holds))
        (Value.array.inj same)
      rw [Value.sorted, Value.sorted, inside]
    | _ => cases same

theorem sortedItems_of_covered : ∀ {items others : List Value}, (∀ item ∈ items, ¬ HoldsObject item) →
    coveredItems items = coveredItems others → sortedItems items = sortedItems others
  | [], [], _, _ => rfl
  | [], _ :: _, _, same | _ :: _, [], _, same => by cases same
  | item :: rest, other :: others, flat, same => by
    obtain ⟨first, later⟩ := List.cons.inj same
    rw [sortedItems, sortedItems, sorted_of_covered (flat item List.mem_cons_self) first,
      sortedItems_of_covered (fun _ member => flat _ (List.mem_cons_of_mem _ member)) later]
end

mutual
/-- The value with an excluded field in each outermost object of it. -/
def mark (field : Value) : Value → Value
  | .object fields => .object (insert "metadata" field fields)
  | .array items => .array (markItems field items)
  | .null => .null
  | .bool value => .bool value
  | .number value => .number value
  | .string text => .string text

def markItems (field : Value) : List Value → List Value
  | [] => []
  | item :: rest => mark field item :: markItems field rest
end

mutual
theorem covered_mark (field : Value) : ∀ value : Value, covered (mark field value) = covered value
  | .null | .bool _ | .number _ | .string _ => rfl
  | .array items => by rw [mark, covered, covered, coveredItems_mark field items]
  | .object fields => by
    rw [mark, covered_object_eq_iff]
    intro key keeps
    rw [get_insert_ne]
    rintro rfl
    exact absurd keeps (by decide)

theorem coveredItems_mark (field : Value) : ∀ items : List Value,
    coveredItems (markItems field items) = coveredItems items
  | [] => rfl
  | item :: rest => by
    rw [markItems, coveredItems, coveredItems, covered_mark field item, coveredItems_mark field rest]
end

theorem sortedItems_mark (field : Value) (items : List Value) :
    sortedItems (markItems field items) = items.map fun item => (mark field item).sorted := by
  induction items with
  | nil => rfl
  | cons item rest ih => rw [markItems, sortedItems, ih, List.map_cons]

/-- Different fields mark a value differently if there is an object in it. -/
theorem mark_unique {value field other : Value} (holds : HoldsObject value)
    (same : (mark field value).sorted = (mark other value).sorted) : field.sorted = other.sorted := by
  induction holds with
  | object fields =>
    have inside := sorted_object_eq_iff.mp same "metadata"
    rw [get_insert_self, get_insert_self] at inside
    exact Option.some.inj inside
  | array member _ ih =>
    have items := Value.array.inj same
    rw [sortedItems_mark, sortedItems_mark] at items
    exact ih (List.map_inj_left.mp items _ member)

theorem exact_iff_covered {a b : Fields} : Exact a b ↔ (covered (.object a) = covered (.object b) →
    (Value.object (signedFields a)).sorted = (Value.object (signedFields b)).sorted) := by
  rw [Exact, canonicalJson_eq_iff]
  refine ⟨fun exact => exact.mp, fun one => ⟨one, fun same => ?_⟩⟩
  have both := congrArg covered same
  rwa [covered_sorted, covered_sorted, covered_signedFields, covered_signedFields] at both

theorem exact_of_flat {a : Fields} (flat : ∀ key value, kept key = true → get key a = some value →
    ¬ HoldsObject value) (b : Fields) : Exact a b := by
  refine exact_iff_covered.mpr fun same => sorted_object_eq_iff.mpr fun key => ?_
  rw [get_signedFields, get_signedFields]
  split_ifs with keeps
  · have inside := covered_object_eq_iff.mp same key keeps
    cases left : get key a with
    | none =>
      rw [left] at inside
      rw [Option.map_eq_none_iff.mp inside.symm]
    | some value =>
      rw [left] at inside
      obtain ⟨value', right, same'⟩ := Option.map_eq_some_iff.mp inside.symm
      rw [right, Option.map_some, Option.map_some,
        sorted_of_covered (flat key value keeps left) same'.symm]
  · rfl

theorem flat_of_exact {a : Fields} (exact_ : ∀ b, Exact a b) {key : String} {value : Value}
    (keeps : kept key = true) (held : get key a = some value) : ¬ HoldsObject value := by
  intro holds
  let marked (field : Value) : Fields := a.map (Prod.map id (mark field))
  have alike (field : Value) : value.sorted = (mark field value).sorted := by
    have same : covered (.object a) = covered (.object (marked field)) := by
      refine covered_object_eq_iff.mpr fun key' _ => ?_
      rw [get_map, Option.map_map]
      exact congrFun (congrArg Option.map (funext fun v => (covered_mark field v).symm)) _
    have inside := sorted_object_eq_iff.mp (exact_iff_covered.mp (exact_ (marked field)) same) key
    rw [get_signedFields, get_signedFields, if_pos keeps, if_pos keeps, get_map, held] at inside
    exact Option.some.inj inside
  cases mark_unique holds ((alike .null).symm.trans (alike (.bool true)))

/-- Two objects have one text just when they are signed alike, unless they differ in excluded fields of
objects below them and in nothing else. For an object without objects in its signed fields they never do. -/
theorem exact_iff (a : Fields) :
    (∀ b, Exact a b ↔ (covered (.object a) = covered (.object b) →
      (Value.object (signedFields a)).sorted = (Value.object (signedFields b)).sorted)) ∧
    ((∀ b, Exact a b) ↔
      ∀ key value, kept key = true → get key a = some value → ¬ HoldsObject value) :=
  ⟨fun _ => exact_iff_covered, fun exact_ _ _ keeps held => flat_of_exact exact_ keeps held, exact_of_flat⟩

/-- The metadata of a scope can be changed under one text. -/
theorem nested_inexact : ¬ ∀ a b : Fields, Exact a b := by
  intro exact_
  have same := (exact_ [("scope", .object [("metadata", .string "a")])]
    [("scope", .object [("metadata", .string "b")])]).mp (by decide)
  have scope := sorted_object_eq_iff.mp same "scope"
  have metadata := sorted_object_eq_iff.mp (Option.some.inj scope) "metadata"
  have texts : Value.string "a" = .string "b" := Option.some.inj metadata
  exact absurd (Value.string.inj texts) (by decide)

end Nps.Nip.Signer
