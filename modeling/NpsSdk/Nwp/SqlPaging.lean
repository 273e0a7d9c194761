import NpsSdk.Nwp.Paging
import NpsSdk.Nwp.SqlProvider

/-! Reading a table page by page: following the cursors of single queries, and streaming. -/
namespace Nps.Nwp
open Outcome

/-- A query without its page: the statement that all its pages have in common. -/
def selectStatement (schema : MemoryNodeSchema) (frame : QueryFrame) :
    Except NwpFilterError (Sql.Text × List Sql.Param) := do
  let select ← buildSelectList schema frame.fields
  let (condition, params) ← translate schema frame.filter
  let order ← orderText schema frame.order
  return ([.raw "SELECT "] ++ select ++ [.raw " FROM ", .identifier schema.tableName] ++
    whereText condition ++ [.raw " ORDER BY "] ++ order, params)

def pageParams (limit : Nat) (offset : Int) : List Sql.Param :=
  [⟨"_limit", .int limit⟩, ⟨"_offset", .int offset⟩]

/-- The rows of a statement in their order; their count is an `i64`. -/
structure RowList where
  rows : List MemoryNodeRow
  counted : rows.length < 2 ^ 63

/-- The executor evaluates limit and offset of a statement over a list of rows. -/
def SqlMemoryNodeProvider.Evaluates (provider : SqlMemoryNodeProvider) (text : Sql.Text)
    (params : List Sql.Param) (rows : List MemoryNodeRow) : Prop :=
  ∀ limit offset : Nat,
    provider.executor.query (text ++ pageText provider.dialect) (params ++ pageParams limit offset) =
      .ok ((rows.drop offset).take limit)

theorem page_full_iff {rows : List MemoryNodeRow} {start limit : Nat} (positive : 1 ≤ limit) :
    ((rows.drop start).take limit).length = limit ↔ start + limit ≤ rows.length := by
  rw [List.length_take, List.length_drop]
  omega

theorem drop_split (rows : List MemoryNodeRow) (start limit : Nat) :
    (rows.drop start).take limit ++ rows.drop (start + limit) = rows.drop start := by
  rw [← List.drop_drop, List.take_append_drop]

theorem pageLimit_some {page : QueryFrame} {options : MemoryNodeOptions} {limit : Nat}
    (given : page.limit = some limit) (positive : 1 ≤ limit) (most : limit ≤ options.maxLimit) :
    pageLimit page options = limit := by
  have nonzero : limit ≠ 0 := by omega
  simp [pageLimit, given, nonzero, most]

section Pages
variable [Nip.Serde] {provider : SqlMemoryNodeProvider} {schema : MemoryNodeSchema}
  {options : MemoryNodeOptions} {frame : QueryFrame} {text : Sql.Text} {params : List Sql.Param}
  {list : RowList} {cursor : Option String} {start : Nat}

theorem buildSelect_page {dialect : DatabaseDialect}
    (built : selectStatement schema frame = .ok (text, params)) :
    buildSelect schema dialect frame options = .ok (text ++ pageText dialect,
      params ++ pageParams (pageLimit frame options) (decodeCursor frame.cursor)) := by
  obtain ⟨select, selected, built⟩ := bind_ok.mp built
  obtain ⟨⟨condition, bound⟩, translated, built⟩ := bind_ok.mp built
  obtain ⟨order, ordered, same⟩ := bind_ok.mp built
  cases same
  simp only [buildSelect, selected, translated, ordered, ok_bind, pure_eq, pageParams]

theorem select_page (built : selectStatement schema frame = .ok (text, params))
    (evaluates : provider.Evaluates text params list.rows)
    (starts : decodeCursor frame.cursor = start) :
    provider.select frame schema options =
      .ok ((list.rows.drop start).take (pageLimit frame options)) := by
  have answered := evaluates (pageLimit frame options) start
  simp only [SqlMemoryNodeProvider.select, buildSelect_page built, starts, ok_bind, Except.mapError,
    answered]

theorem next_start (reads : ReadsOffsets) {limit : Nat} (positive : 1 ≤ limit)
    (full : start + limit ≤ list.rows.length) :
    decodeCursor (encodeCursor (i64 (start + limit))) = (start + limit : Nat) := by
  have small : start + limit < 2 ^ 63 := Nat.lt_of_le_of_lt full list.counted
  rw [← Nat.cast_add, i64_offset small]
  exact decodeCursor_encodeCursor reads (by omega) small

theorem query_page (built : selectStatement schema frame = .ok (text, params))
    (evaluates : provider.Evaluates text params list.rows)
    (positive : 1 ≤ pageLimit frame options) (starts : decodeCursor cursor = start) :
    provider.query { frame with cursor } schema options = .ok {
      rows := (list.rows.drop start).take (pageLimit frame options)
      nextCursor := if start + pageLimit frame options ≤ list.rows.length then
        encodeCursor (i64 (start + pageLimit frame options)) else none } := by
  have page : provider.select { frame with cursor } schema options =
      .ok ((list.rows.drop start).take (pageLimit frame options)) :=
    select_page built evaluates starts
  have limit : pageLimit { frame with cursor } options = pageLimit frame options := rfl
  simp only [SqlMemoryNodeProvider.query, page, ok_bind, pure_eq, starts, limit,
    page_full_iff positive]

/-- Following the cursors goes through the rows page by page to their end. -/
theorem query_answers (reads : ReadsOffsets)
    (built : selectStatement schema frame = .ok (text, params))
    (evaluates : provider.Evaluates text params list.rows)
    (positive : 1 ≤ pageLimit frame options) (starts : decodeCursor cursor = start) :
    ∃ pages, Answers (fun cursor => provider.query { frame with cursor } schema options) cursor pages ∧
      pages.flatten = list.rows.drop start := by
  generalize left : list.rows.length - start = n
  induction n using Nat.strongRecOn generalizing cursor start with
  | ind n ih =>
    have page := query_page built evaluates positive starts
    by_cases full : start + pageLimit frame options ≤ list.rows.length
    · rw [if_pos full] at page
      have later := next_start reads positive full
      have small : start + pageLimit frame options < 2 ^ 63 := Nat.lt_of_le_of_lt full list.counted
      obtain ⟨next, follow⟩ : ∃ next, encodeCursor (i64 (start + pageLimit frame options)) =
          some next := by
        rw [← Nat.cast_add, i64_offset small]
        exact encodeCursor_positive (by omega)
      rw [follow] at page later
      obtain ⟨pages, answers, content⟩ := ih _ (by omega) later rfl
      refine ⟨_, .more page answers, ?_⟩
      rw [List.flatten_cons, content, drop_split]
    · rw [if_neg full] at page
      refine ⟨_, .last page, ?_⟩
      rw [List.flatten_singleton, List.take_of_length_le]
      rw [List.length_drop]
      omega

theorem stream_page (built : selectStatement schema frame = .ok (text, params))
    (evaluates : provider.Evaluates text params list.rows)
    (positive : 1 ≤ pageLimit frame options) (starts : decodeCursor cursor = start) :
    provider.select { frame with limit := some (pageLimit frame options), cursor } schema options =
      .ok ((list.rows.drop start).take (pageLimit frame options)) := by
  let page : QueryFrame := { frame with limit := some (pageLimit frame options), cursor }
  have limit : pageLimit page options = pageLimit frame options :=
    pageLimit_some rfl positive (Nat.min_le_right _ _)
  have answered : provider.select page schema options =
      .ok ((list.rows.drop start).take (pageLimit page options)) :=
    select_page built evaluates starts
  rwa [limit] at answered

/-- With more fuel than rows are left the loop comes to their end. -/
theorem streamFrom_pages (reads : ReadsOffsets)
    (built : selectStatement schema frame = .ok (text, params))
    (evaluates : provider.Evaluates text params list.rows)
    (positive : 1 ≤ pageLimit frame options) (starts : decodeCursor cursor = start) :
    ∃ pages, pages.flatten = list.rows.drop start ∧ ∀ fuel, list.rows.length - start < fuel →
      provider.streamFrom frame schema options fuel cursor = some (.ok pages) := by
  generalize left : list.rows.length - start = n
  induction n using Nat.strongRecOn generalizing cursor start with
  | ind n ih =>
    have page := stream_page built evaluates positive starts
    by_cases full : start + pageLimit frame options ≤ list.rows.length
    · obtain ⟨pages, content, later⟩ := ih _ (by omega) (next_start reads positive full) rfl
      refine ⟨(list.rows.drop start).take (pageLimit frame options) :: pages, ?_, ?_⟩
      · rw [List.flatten_cons, content, drop_split]
      · intro fuel enough
        obtain ⟨fuel, rfl⟩ := Nat.exists_eq_succ_of_ne_zero (Nat.ne_zero_of_lt enough)
        have rest := later fuel (by omega)
        have size := (page_full_iff positive).mpr full
        have nonempty : ((list.rows.drop start).take (pageLimit frame options)).isEmpty = false := by
          rw [List.isEmpty_eq_false_iff, ← List.length_pos_iff]
          omega
        simp only [SqlMemoryNodeProvider.streamFrom, page, nonempty, size, starts, rest, if_true]
        rfl
    · have whole : (list.rows.drop start).take (pageLimit frame options) = list.rows.drop start := by
        rw [List.take_of_length_le]
        rw [List.length_drop]
        omega
      have short := (page_full_iff positive).not.mpr full
      rw [whole] at page short
      refine ⟨if (list.rows.drop start).isEmpty then [] else [list.rows.drop start], ?_, ?_⟩
      · by_cases none : (list.rows.drop start).isEmpty
        · rw [if_pos none, List.isEmpty_iff.mp none, List.flatten_nil]
        · rw [if_neg none, List.flatten_singleton]
      · intro fuel enough
        obtain ⟨fuel, rfl⟩ := Nat.exists_eq_succ_of_ne_zero (Nat.ne_zero_of_lt enough)
        simp only [SqlMemoryNodeProvider.streamFrom, page, if_neg short]
        split <;> rfl

/-- Both ways of reading end, and give every row from the start on once and in order. -/
theorem paging_complete (reads : ReadsOffsets)
    (built : selectStatement schema frame = .ok (text, params))
    (evaluates : provider.Evaluates text params list.rows)
    (positive : 1 ≤ pageLimit frame options) (starts : decodeCursor frame.cursor = start) :
    (∃ pages, Answers (fun cursor => provider.query { frame with cursor } schema options)
        frame.cursor pages ∧ pages.flatten = list.rows.drop start) ∧
      ∃ pages, pages.flatten = list.rows.drop start ∧ ∀ fuel, list.rows.length - start < fuel →
        provider.stream frame schema options fuel = some (.ok pages) :=
  ⟨query_answers reads built evaluates positive starts,
    streamFrom_pages reads built evaluates positive starts⟩

end Pages

namespace ThreeRows

def readOffset (text : String) : Except String Json.Value :=
  match ((Text.stripPrefix? "\x7b\"o\":" text).bind (Text.stripSuffix? "\x7d")).bind
    Text.parseInt? with
  | some offset => .ok (.object [("o", Json.integer offset)])
  | none => .error "expected value at line 1 column 1"

abbrev offsetReader : Nip.Serde where
  fromStr := readOffset
  fromSlice _ := .error "expected value at line 1 column 1"

theorem parseInt?_toDigits (n : Nat) :
    Text.parseInt? (String.ofList (Nat.toDigits 10 n)) = some (n : Int) := by
  have digits : (Nat.toDigits 10 n).all Char.isDigit = true :=
    List.all_eq_true.mpr fun _ member => Json.toDigits_isDigit member
  unfold Text.parseInt?
  dsimp only
  rw [String.toList_ofList]
  split
  · rename_i rest same
    rw [same] at digits
    simp at digits
  · rename_i rest same
    rw [same] at digits
    simp at digits
  · rw [if_pos ⟨Nat.toDigits_ne_nil, digits⟩, Nat.ofDigitChars_ten_toDigits]
    rfl

theorem offsetReader_reads : @ReadsOffsets offsetReader := by
  intro n _
  have written : cursorJson n = "\x7b\"o\":" ++ (String.ofList (Nat.toDigits 10 n) ++ "\x7d") :=
    String.append_assoc
  have inner : Text.stripSuffix? "\x7d" (String.ofList (Nat.toDigits 10 n) ++ "\x7d") =
      some (String.ofList (Nat.toDigits 10 n)) := Text.stripSuffix?_eq_some.mpr rfl
  change readOffset (cursorJson n) = _
  rw [written, readOffset, Text.stripPrefix?_append, Option.bind_some, inner, Option.bind_some,
    parseInt?_toDigits]

def row (id : Int) : MemoryNodeRow := [("id", Json.integer id)]

def table : RowList where
  rows := [row 1, row 2, row 3]
  counted := by decide

/-- The executor finds limit and offset by their names. -/
def executor : SqlExecutor where
  query _ params :=
    match params.find? (·.name = "_limit"), params.find? (·.name = "_offset") with
    | some ⟨_, .int limit⟩, some ⟨_, .int offset⟩ =>
      .ok ((table.rows.drop offset.toNat).take limit.toNat)
    | _, _ => .error "no page"

def provider : SqlMemoryNodeProvider := ⟨executor, .postgreSql⟩

def schema : MemoryNodeSchema where
  tableName := "products"
  primaryKey := "id"
  fields := [⟨"id", "number", false, none⟩]

def frame : QueryFrame := { limit := some 2 }

theorem reads_on : letI := offsetReader
    (∃ pages, Answers (fun cursor => provider.query { frame with cursor } schema { schema }) none
        pages ∧ pages.flatten = table.rows) ∧
      ∃ pages, pages.flatten = table.rows ∧ ∀ fuel, 3 < fuel →
        provider.stream frame schema { schema } fuel = some (.ok pages) :=
  letI := offsetReader
  have two : 1 ≤ pageLimit frame { schema } := by decide
  paging_complete offsetReader_reads rfl (fun _ _ => rfl) two rfl

end ThreeRows
end Nps.Nwp
