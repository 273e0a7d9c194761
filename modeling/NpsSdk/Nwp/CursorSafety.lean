import NpsSdk.Nwp.SqlPaging

/-! Cursors of clients: where a page starts, and where the one after it would. -/
namespace Nps.Nwp
open Outcome

section Offsets
variable [Nip.Serde] {cursor : Option String} {offset : Int}

/-- Under base64 and UTF-8, the cursor is an object with this integer. -/
def Spells (cursor : Option String) (offset : Int) : Prop :=
  ∃ text bytes json object number, cursor = some text ∧ base64urlDecode text = some bytes ∧
    Text.ofUtf8? bytes = some json ∧ Nip.Serde.fromStr json = .ok (.object object) ∧
      Json.get "o" object = some (.number number) ∧ number.asI64 = some offset

theorem decodeCursor_spells (spelled : Spells cursor offset) : decodeCursor cursor = offset := by
  obtain ⟨text, bytes, json, object, number, rfl, decoded, utf8, read, found, fits⟩ := spelled
  simp [decodeCursor, decoded, utf8, read, Except.toOption, Json.Value.asObject, found, fits]

/-- A cursor starts at what it spells, or at the first row. -/
theorem decodeCursor_cases (cursor : Option String) :
    Spells cursor (decodeCursor cursor) ∨ decodeCursor cursor = 0 := by
  by_cases spelled : ∃ offset, Spells cursor offset
  · obtain ⟨offset, spelled⟩ := spelled
    exact .inl ((decodeCursor_spells spelled).symm ▸ spelled)
  · refine .inr (Option.getD_eq_iff.mpr (.inr ⟨Option.eq_none_iff_forall_ne_some.mpr ?_, rfl⟩))
    intro offset found
    obtain ⟨text, given, found⟩ := Option.bind_eq_some_iff.mp found
    obtain ⟨bytes, decoded, found⟩ := Option.bind_eq_some_iff.mp found
    obtain ⟨json, utf8, found⟩ := Option.bind_eq_some_iff.mp found
    obtain ⟨value, read, found⟩ := Option.bind_eq_some_iff.mp found
    obtain ⟨object, same, found⟩ := Option.bind_eq_some_iff.mp found
    obtain ⟨member, entry, found⟩ := Option.bind_eq_some_iff.mp found
    split at found
    · rename_i number
      refine spelled ⟨offset, text, bytes, json, object, number, given, decoded, utf8, ?_, entry, found⟩
      cases answer : Nip.Serde.fromStr json with
      | error e => simp [answer, Except.toOption] at read
      | ok parsed =>
        rw [answer] at read
        cases read
        cases value with
        | object entries => cases same; rfl
        | _ => cases same
    · cases found

end Offsets

theorem i64_exact {n : Int} : i64 n = n ↔ -2 ^ 63 ≤ n ∧ n < 2 ^ 63 := by
  unfold i64
  constructor
  · intro same
    rw [← same]
    have low := @Int.le_bmod n (2 ^ 64) (by decide)
    have high := @Int.bmod_lt n (2 ^ 64) (by decide)
    omega
  · rintro ⟨low, high⟩
    exact Int.bmod_eq_of_le (by omega) (by omega)

section Requests
variable [Nip.Serde] (schema : MemoryNodeSchema) (dialect : DatabaseDialect) (frame : QueryFrame)
  (options : MemoryNodeOptions)

/-- A statement that is built skips no negative number of rows, and a page that is no longer than
asked for ends at a row with an `i64` number. -/
structure CursorSafe (params : List Sql.Param) : Prop where
  bound : ∃ offset : Int, 0 ≤ offset ∧ params.getLast? = some ⟨"_offset", .int offset⟩
  next : ∀ size ≤ pageLimit frame options,
    i64 (decodeCursor frame.cursor + size) = decodeCursor frame.cursor + size

/-- The rest of the query is built. -/
def Built : Prop := ∃ text params, selectStatement schema frame = .ok (text, params)

variable {schema dialect frame options}

theorem buildSelect_built {sql : Sql.Text} {params : List Sql.Param}
    (built : buildSelect schema dialect frame options = .ok (sql, params)) : Built schema frame := by
  obtain ⟨select, selected, built⟩ := bind_ok.mp built
  obtain ⟨⟨condition, bound⟩, translated, built⟩ := bind_ok.mp built
  obtain ⟨order, ordered, -⟩ := bind_ok.mp built
  cases statement : selectStatement schema frame with
  | ok both => exact ⟨both.1, both.2, statement⟩
  | error e => simp [selectStatement, selected, translated, ordered] at statement

omit [Nip.Serde] in
theorem pageParams_offset (params : List Sql.Param) (limit : Nat) (offset : Int) :
    (params ++ pageParams limit offset).getLast? = some ⟨"_offset", .int offset⟩ := by
  simp [pageParams]

/-- Cursors are safe just as far as what they spell is no negative number and leaves room for a page;
every number that they spell is taken. -/
theorem cursor_safe_iff (width : options.maxLimit < 2 ^ 32) :
    (∀ sql params, buildSelect schema dialect frame options = .ok (sql, params) →
        CursorSafe frame options params) ↔
      (Built schema frame → ∀ offset, Spells frame.cursor offset →
        0 ≤ offset ∧ offset + pageLimit frame options < 2 ^ 63) := by
  have short : pageLimit frame options < 2 ^ 32 := Nat.lt_of_le_of_lt (Nat.min_le_right ..) width
  constructor
  · rintro safe ⟨text, params, built⟩ offset spelled
    obtain ⟨⟨bound, positive, last⟩, next⟩ := safe _ _ (buildSelect_page built)
    have fits := (i64_exact.mp (next _ (Nat.le_refl _))).2
    rw [pageParams_offset] at last
    cases last
    rw [decodeCursor_spells spelled] at positive fits
    exact ⟨positive, fits⟩
  · intro spelled sql params built
    obtain ⟨text, bound, statement⟩ := buildSelect_built built
    have same := (buildSelect_page statement).symm.trans built
    cases same
    have within : 0 ≤ decodeCursor frame.cursor ∧
        decodeCursor frame.cursor + pageLimit frame options < 2 ^ 63 := by
      rcases decodeCursor_cases frame.cursor with spells | first
      · exact spelled ⟨text, bound, statement⟩ _ spells
      · rw [first]
        omega
    refine ⟨⟨_, within.1, pageParams_offset ..⟩, fun size least => i64_exact.mpr ?_⟩
    omega

end Requests

namespace ThreeRows

def back : QueryFrame :=
  { frame with cursor := some (base64urlEncode (Text.utf8 (cursorJson (-1)))) }

theorem back_spells : @Spells offsetReader back.cursor (-1) := by
  have parsed : ((Text.stripPrefix? "\x7b\"o\":" (cursorJson (-1))).bind
      (Text.stripSuffix? "\x7d")).bind Text.parseInt? = some (-1) := by decide +kernel
  have read : readOffset (cursorJson (-1)) = .ok (.object [("o", Json.integer (-1))]) := by
    rw [readOffset, parsed]
  exact ⟨_, _, _, _, _, rfl, base64urlDecode_encode _, Text.ofUtf8?_eq_some.mpr rfl, read, rfl, rfl⟩

theorem back_bound : letI := offsetReader
    ¬ ∀ (schema : MemoryNodeSchema) (dialect : DatabaseDialect) (frame : QueryFrame)
      (options : MemoryNodeOptions) (sql : Sql.Text) (params : List Sql.Param),
      options.maxLimit < 2 ^ 32 →
        buildSelect schema dialect frame options = .ok (sql, params) →
          CursorSafe frame options params := by
  let _ := offsetReader
  intro safe
  have built : selectStatement schema back = .ok _ := rfl
  obtain ⟨offset, positive, last⟩ :=
    (safe schema .postgreSql back { schema } _ _ (by decide) (buildSelect_page built)).bound
  rw [pageParams_offset, decodeCursor_spells back_spells] at last
  cases last
  exact absurd positive (by decide)

/-- Under base64 this is the object with 2 under `o`. -/
def later : QueryFrame := { frame with cursor := some "eyJvIjoyfQ" }

theorem later_spells : @Spells offsetReader later.cursor 2 := by
  have decoded : base64urlDecode "eyJvIjoyfQ" = some (Text.utf8 (cursorJson 2)) := by
    rw [← base64urlDecode_encode (Text.utf8 (cursorJson 2))]
    decide +kernel
  exact ⟨_, _, _, _, _, rfl, decoded, Text.ofUtf8?_eq_some.mpr rfl, offsetReader_reads 2 (by decide),
    rfl, rfl⟩

/-- This cursor is taken, and the page after it starts at the row that its own would. -/
theorem later_page_safe : letI := offsetReader
    ∃ sql params, buildSelect schema .postgreSql later { schema } = .ok (sql, params) ∧
      params.getLast? = some ⟨"_offset", .int 2⟩ ∧ CursorSafe later { schema } params := by
  let _ := offsetReader
  have built : buildSelect schema .postgreSql later { schema } = .ok _ := buildSelect_page rfl
  have safe : ∀ sql params, buildSelect schema .postgreSql later { schema } = .ok (sql, params) →
      CursorSafe later { schema } params :=
    (cursor_safe_iff (by decide)).mpr fun _ offset spelled => by
      -- A cursor spells one number only.
      have two : offset = 2 :=
        (decodeCursor_spells spelled).symm.trans (decodeCursor_spells later_spells)
      subst two
      decide
  refine ⟨_, _, built, ?_, safe _ _ built⟩
  rw [pageParams_offset, decodeCursor_spells later_spells]

end ThreeRows
end Nps.Nwp
