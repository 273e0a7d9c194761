import NpsSdk.Lib.JsonMaps
import NpsSdk.Ndp.RegistryProfile

/-! The canonical text of a value is the compact text of what is left of it without the fields that
are null. -/
namespace Nps.Ndp
open Json
open Nip.Signer (join_items join_fields)

mutual
def stripped : Value → Value
  | .object fields => .object (sortEntries (strippedFields fields))
  | .array items => .array (strippedItems items)
  | .null => .null
  | .bool value => .bool value
  | .number value => .number value
  | .string text => .string text

def strippedFields : Fields → Fields
  | [] => []
  | (_, .null) :: rest => strippedFields rest
  | (key, value) :: rest => (key, stripped value) :: strippedFields rest

def strippedItems : List Value → List Value
  | [] => []
  | item :: rest => stripped item :: strippedItems rest
end

mutual
theorem writeCanonical_eq : ∀ value : Value, writeCanonical value = (stripped value).compact
  | .null | .bool _ | .number _ | .string _ => rfl
  | .array items => by
    rw [writeCanonical, stripped, Value.compact, canonicalItems_eq items, join_items]
  | .object fields => by
    rw [writeCanonical, stripped, Value.compact, canonicalFields_eq fields, sortEntries_map,
      List.map_map, ← join_fields]
    rfl

theorem canonicalFields_eq : ∀ fields : Fields,
    canonicalFields fields = (strippedFields fields).map (Prod.map id Value.compact)
  | [] => rfl
  | (key, value) :: rest => by
    have written := writeCanonical_eq value
    have others := canonicalFields_eq rest
    cases value <;>
      simp only [canonicalFields, strippedFields, List.map_cons, Prod.map, id, written, others]

theorem canonicalItems_eq : ∀ items : List Value,
    canonicalItems items = (strippedItems items).map Value.compact
  | [] => rfl
  | item :: rest => by
    rw [canonicalItems, strippedItems, writeCanonical_eq item, canonicalItems_eq rest]
    rfl
end

theorem get_strippedFields {key : String} {value : Value} {fields : Fields}
    (found : get key fields = some value) (some_ : value ≠ .null) :
    get key (strippedFields fields) = some (stripped value) := by
  induction fields with
  | nil => cases found
  | cons field rest ih =>
    obtain ⟨other, held⟩ := field
    by_cases same : key = other
    · rw [Json.get, if_pos same] at found
      cases Option.some.inj found
      cases value <;> first | exact absurd rfl some_ | simp [strippedFields, Json.get, same]
    · rw [Json.get, if_neg same] at found
      have later := ih found
      cases held <;> simp [strippedFields, Json.get, same, later]

/-- A field that is signed is in the signed root. -/
theorem get_signedRoot {key : String} {value : Value} {object : Fields}
    (found : get key object = some value) (some_ : isNull value = false)
    (signed : ["frame", "signature", "health", "last_seen"].contains key = false) :
    get key (signedRoot object) = some value := by
  have kept : get key ((object.filter fun field =>
      not (["frame", "signature", "health", "last_seen"].contains field.1)).filter fun field =>
        !isNull field.2) = some value := by
    refine get_filter (get_filter found ?_) ?_
    · rw [signed, Bool.not_false]
    · rw [some_, Bool.not_false]
  dsimp only [signedRoot]
  split
  · exact kept
  · rename_i missing
    have other : key ≠ "heartbeat_interval_ms" := by
      rintro rfl
      rw [kept] at missing
      cases missing
    rw [get_insert_ne other]
    exact kept

/-- Under one canonical text, a signed field that is there has one value, but for what is null in it. -/
theorem canonical_field {f g : Value} {a b : Fields} {key : String} {v w : Value}
    (same : canonicalAnnounceJson f = canonicalAnnounceJson g) (fa : f.asObject = some a)
    (gb : g.asObject = some b) (left : get key a = some v) (right : get key b = some w)
    (vSome : isNull v = false) (wSome : isNull w = false)
    (signed : ["frame", "signature", "health", "last_seen"].contains key = false) :
    stripped v = stripped w := by
  have notNull {value : Value} (some_ : isNull value = false) : value ≠ .null := by
    rintro rfl
    cases some_
  simp only [canonicalAnnounceJson, fa, gb, writeCanonical_eq] at same
  have values := Value.object.inj (Value.text_injective (Except.ok.inj same))
  have field := congrArg (get key) values
  rw [get_sortEntries, get_sortEntries,
    get_strippedFields (get_signedRoot left vSome signed) (notNull vSome),
    get_strippedFields (get_signedRoot right wSome signed) (notNull wSome)] at field
  exact Option.some.inj field

end Nps.Ndp
