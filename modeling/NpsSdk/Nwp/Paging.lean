import NpsSdk.Nwp.MemoryNode

/-! Reading a result page by page: what a client gets that follows the cursors of the query
endpoint until there is none. -/
namespace Nps.Nwp
open Json (Value Fields)

theorem u32_add_left (a b : Nat) : u32 (u32 a + b) = u32 (a + b) := Nat.mod_add_mod ..

theorem trimFrom_prefix (budget acc : Nat) (rows : List MemoryNodeRow) :
    (trimFrom budget acc rows).1 <+: rows := by
  induction rows generalizing acc with
  | nil => exact List.prefix_rfl
  | cons row rest ih =>
    unfold trimFrom
    dsimp only
    split
    · exact List.nil_prefix
    · exact List.prefix_cons_inj row |>.mpr (ih _)

/-- The running totals of the rows, from a total so far, stay within the budget. -/
def Fits (budget acc : Nat) (rows : List MemoryNodeRow) : Prop :=
  ∀ n, 0 < n → n ≤ rows.length → u32 (acc + ((rows.take n).map measureRow).sum) ≤ budget

theorem fits_cons {budget acc : Nat} {row : MemoryNodeRow} {rest : List MemoryNodeRow} :
    Fits budget acc (row :: rest) ↔ u32 (acc + measureRow row) ≤ budget ∧
      Fits budget (u32 (acc + measureRow row)) rest := by
  constructor
  · intro fits
    refine ⟨by simpa using fits 1 Nat.one_pos (by simp), fun n _ bound => ?_⟩
    have later := fits (n + 1) n.succ_pos (by simpa using bound)
    simpa [u32_add_left, Nat.add_assoc] using later
  · rintro ⟨first, later⟩ n positive bound
    obtain ⟨k, rfl⟩ := Nat.exists_eq_succ_of_ne_zero positive.ne'
    by_cases zero : k = 0
    · subst zero
      simpa using first
    · have := later k (Nat.pos_of_ne_zero zero) (by simpa using bound)
      simpa [u32_add_left, Nat.add_assoc] using this

theorem trimFrom_eq_iff {budget acc : Nat} {rows : List MemoryNodeRow} :
    (trimFrom budget acc rows).1 = rows ↔ Fits budget acc rows := by
  induction rows generalizing acc with
  | nil =>
    simp only [trimFrom, Fits, true_iff]
    intro n positive bound
    exact absurd bound (Nat.not_le.mpr positive)
  | cons row rest ih =>
    unfold trimFrom
    dsimp only
    rw [fits_cons, ← ih]
    split <;> rename_i exceeds
    · simp [Nat.not_le.mpr exceeds]
    · simp only [Nat.not_lt.mp exceeds, List.cons.injEq, true_and]

/-- A page is answered whole: there is no budget, or the page as a whole or the running
totals of its rows are within it. -/
def Uncut (budget : Nat) (page : List MemoryNodeRow) : Prop :=
  budget = 0 ∨ measureRows page ≤ budget ∨ Fits budget 0 page

theorem withinBudget_prefix (budget : Nat) (page : List MemoryNodeRow) :
    (withinBudget budget page).1 <+: page := by
  unfold withinBudget
  split
  · exact trimFrom_prefix budget 0 page
  · exact List.prefix_rfl

theorem withinBudget_eq_iff {budget : Nat} {page : List MemoryNodeRow} :
    (withinBudget budget page).1 = page ↔ Uncut budget page := by
  unfold withinBudget Uncut
  split <;> rename_i exceeds
  · rw [trimToBudget, trimFrom_eq_iff]
    have := exceeds.1
    have := exceeds.2
    constructor
    · exact fun fits => .inr (.inr fits)
    · rintro (none | whole | fits)
      · omega
      · omega
      · exact fits
  · have : budget = 0 ∨ measureRows page ≤ budget := by omega
    simp only [true_iff]
    exact this.imp_right .inl

/-- A query without its cursor, and the headers it is sent with. -/
structure Client where
  headers : Assoc String String
  fields : Fields
  fresh : Json.get "cursor" fields = none

def Client.entries (client : Client) (cursor : Option String) : Fields :=
  Json.insertSome "cursor" (cursor.map Value.string) client.fields

def Client.request (client : Client) (cursor : Option String) : NodeRequest where
  headers := client.headers
  body := .ok (.object (client.entries cursor))

def Client.frame (client : Client) (opt : MemoryNodeOptions) (cursor : Option String) :
    ParsedQueryFrame :=
  let frame := ParsedQueryFrame.ofObject (client.entries cursor) opt.defaultLimit
  { frame with limit := min frame.limit opt.maxLimit }

def Client.query (client : Client) (app : MemoryNodeApp) (cursor : Option String) :
    Except MemoryNodeError MemoryNodeQueryResult :=
  app.provider (client.frame app.opt cursor) app.opt.schema app.opt

inductive Answers (query : Option String → Except MemoryNodeError MemoryNodeQueryResult) :
    Option String → List (List MemoryNodeRow) → Prop where
  | last {cursor : Option String} {rows : List MemoryNodeRow} :
      query cursor = .ok ⟨rows, none⟩ → Answers query cursor [rows]
  | more {cursor : Option String} {next : String} {rows : List MemoryNodeRow}
      {pages : List (List MemoryNodeRow)} : query cursor = .ok ⟨rows, some next⟩ →
      Answers query (some next) pages → Answers query cursor (rows :: pages)

/-- The provider's pages hold matching rows in their order, none of them twice. -/
structure Serves (query : Option String → Except MemoryNodeError MemoryNodeQueryResult)
    (rows : List MemoryNodeRow) (pages : List (List MemoryNodeRow)) : Prop where
  answers : Answers query none pages
  inOrder : pages.flatten <+: rows

def NodeResponse.rows (response : NodeResponse) : Option (List MemoryNodeRow) := do
  let capsule ← response.body.asObject
  let data ← (Json.get "data" capsule).bind Value.asArray
  data.mapM Value.asObject

def NodeResponse.nextCursor (response : NodeResponse) : Option String := do
  let capsule ← response.body.asObject
  (Json.get "next_cursor" capsule).bind Value.asStr

/-- What the client has received when it has followed the cursors to the end. -/
inductive Fetches (app : MemoryNodeApp) (client : Client) :
    Option String → List MemoryNodeRow → Prop where
  | last {cursor : Option String} {rows : List MemoryNodeRow} :
      (app.handleQuery (client.request cursor)).rows = some rows →
      (app.handleQuery (client.request cursor)).nextCursor = none →
      Fetches app client cursor rows
  | more {cursor : Option String} {next : String} {rows rest : List MemoryNodeRow} :
      (app.handleQuery (client.request cursor)).rows = some rows →
      (app.handleQuery (client.request cursor)).nextCursor = some next →
      Fetches app client (some next) rest → Fetches app client cursor (rows ++ rest)

section Fetching
variable {app : MemoryNodeApp} {client : Client} {cursor : Option String}

theorem mapM_asObject (rows : List MemoryNodeRow) :
    (rows.map Value.object).mapM Value.asObject = some rows := by
  induction rows with
  | nil => rfl
  | cons row rest ih => simp [List.mapM_cons, Value.asObject, ih]

theorem capsule_rows (req : NodeRequest) (result : MemoryNodeQueryResult) :
    (app.capsule req result).rows = some (withinBudget (app.budget req) result.rows).1 :=
  mapM_asObject _

theorem capsule_nextCursor (req : NodeRequest) (result : MemoryNodeQueryResult) :
    (app.capsule req result).nextCursor = result.nextCursor := by
  cases same : result.nextCursor <;>
    simp [MemoryNodeApp.capsule, NodeResponse.nextCursor, Value.asObject, Json.get, same, Value.asStr]

theorem handleQuery_request {result : MemoryNodeQueryResult}
    (answer : client.query app cursor = .ok result) :
    app.handleQuery (client.request cursor) = app.capsule (client.request cursor) result := by
  have parsed : app.parseFrame (client.request cursor) =
      .ok (ParsedQueryFrame.ofObject (client.entries cursor) app.opt.defaultLimit) := rfl
  have limited : app.provider (client.frame app.opt cursor) app.opt.schema app.opt = .ok result :=
    answer
  unfold Client.frame at limited
  simp only [MemoryNodeApp.handleQuery, parsed, limited]

/-- The client gets the provider's pages, each cut to the budget. -/
theorem fetches_iff {pages : List (List MemoryNodeRow)} {received : List MemoryNodeRow}
    (answers : Answers (client.query app) cursor pages) :
    Fetches app client cursor received ↔ received =
      (pages.map fun page => (withinBudget (app.budget (client.request none)) page).1).flatten := by
  induction answers generalizing received with
  | @last cursor rows answer =>
    have given := handleQuery_request answer
    have page : (app.handleQuery (client.request cursor)).rows =
        some (withinBudget (app.budget (client.request none)) rows).1 := by
      rw [given, capsule_rows]
      rfl
    have endsHere : (app.handleQuery (client.request cursor)).nextCursor = none := by
      rw [given, capsule_nextCursor]
    constructor
    · intro fetches
      cases fetches with
      | last same none => simpa using Option.some.inj (same.symm.trans page)
      | more same next rest => cases endsHere.symm.trans next
    · rintro rfl
      simpa using Fetches.last page endsHere
  | @more cursor next rows pages answer rest ih =>
    have given := handleQuery_request answer
    have page : (app.handleQuery (client.request cursor)).rows =
        some (withinBudget (app.budget (client.request none)) rows).1 := by
      rw [given, capsule_rows]
      rfl
    have follow : (app.handleQuery (client.request cursor)).nextCursor = some next := by
      rw [given, capsule_nextCursor]
    constructor
    · intro fetches
      cases fetches with
      | last same none => cases follow.symm.trans none
      | more same next' rest' =>
        cases follow.symm.trans next'
        cases page.symm.trans same
        rw [ih.mp rest', List.map_cons, List.flatten_cons]
    · rintro rfl
      exact .more page follow (ih.mpr rfl)

end Fetching

section Cutting
variable {α : Type} {pages : List (List α)} {cut : List α → List α}
  (shorter : ∀ page, cut page <+: page)
include shorter

theorem flatten_cut_le : (pages.map cut).flatten.length ≤ pages.flatten.length := by
  induction pages with
  | nil => exact Nat.le_refl _
  | cons page rest ih =>
    have := (shorter page).length_le
    simp only [List.map_cons, List.flatten_cons, List.length_append]
    omega

theorem flatten_cut_iff :
    (pages.map cut).flatten.length = pages.flatten.length ↔ ∀ page ∈ pages, cut page = page := by
  induction pages with
  | nil => simp
  | cons page rest ih =>
    have first := (shorter page).length_le
    have later : (rest.map cut).flatten.length ≤ rest.flatten.length := flatten_cut_le shorter
    simp only [List.map_cons, List.flatten_cons, List.length_append, List.forall_mem_cons, ← ih]
    constructor
    · intro same
      exact ⟨(shorter page).eq_of_length (by omega), by omega⟩
    · rintro ⟨whole, same⟩
      rw [whole, same]

theorem rows_eq_cut_iff {rows : List α} (inOrder : pages.flatten <+: rows) :
    rows = (pages.map cut).flatten ↔ pages.flatten = rows ∧ ∀ page ∈ pages, cut page = page := by
  constructor
  · intro received
    have fewer : (pages.map cut).flatten.length ≤ pages.flatten.length := flatten_cut_le shorter
    have served := inOrder.length_le
    rw [received] at served
    refine ⟨inOrder.eq_of_length ?_, (flatten_cut_iff shorter).mp ?_⟩
    · rw [received]
      omega
    · omega
  · rintro ⟨complete, whole⟩
    rw [List.map_congr_left whole, List.map_id', complete]

end Cutting

/-- A client receives all matching rows once and in order exactly when the provider's pages
hold them all and none of these is cut. -/
theorem received_iff {app : MemoryNodeApp} {client : Client} {rows : List MemoryNodeRow}
    {pages : List (List MemoryNodeRow)} (serves : Serves (client.query app) rows pages) :
    Fetches app client none rows ↔ pages.flatten = rows ∧
      ∀ page ∈ pages, Uncut (app.budget (client.request none)) page := by
  have shorter := withinBudget_prefix (app.budget (client.request none))
  rw [fetches_iff serves.answers, rows_eq_cut_iff shorter serves.inOrder]
  simp only [withinBudget_eq_iff]

/-- The provider answers with the rows from a position on, up to the limit, and gives the
cursor of the position after them as long as rows may follow. -/
structure Paged (query : Option String → Except MemoryNodeError MemoryNodeQueryResult)
    (rows : List MemoryNodeRow) (limit : Nat) (position : Option String → Nat) : Prop where
  start : position none = 0
  page : ∀ cursor, ∃ next,
    query cursor = .ok ⟨(rows.drop (position cursor)).take limit, next⟩ ∧
    (next = none → rows.length ≤ position cursor + limit) ∧
    ∀ follow, next = some follow →
      position (some follow) = position cursor + limit ∧ position cursor < rows.length

def pageAt (rows : List MemoryNodeRow) (limit start k : Nat) : List MemoryNodeRow :=
  (rows.drop (start + k * limit)).take limit

section Positions
variable {query : Option String → Except MemoryNodeError MemoryNodeQueryResult}
  {rows : List MemoryNodeRow} {limit : Nat} {position : Option String → Nat}

theorem pageAt_past {start k : Nat} (past : rows.length ≤ start + k * limit) :
    pageAt rows limit start k = [] := by
  rw [pageAt, List.drop_eq_nil_of_le past, List.take_nil]

theorem pageAt_succ (start k : Nat) :
    pageAt rows limit start (k + 1) = pageAt rows limit (start + limit) k := by
  rw [pageAt, pageAt, Nat.succ_mul, Nat.add_assoc, Nat.add_comm limit]

/-- The pages from a cursor on are the rows from its position on, limit by limit. -/
theorem Paged.answers (paged : Paged query rows limit position) (positive : 1 ≤ limit)
    (cursor : Option String) : ∃ pages, Answers query cursor pages ∧
      pages.flatten = rows.drop (position cursor) ∧
      ∀ P : List MemoryNodeRow → Prop, P [] →
        ((∀ page ∈ pages, P page) ↔ ∀ k, P (pageAt rows limit (position cursor) k)) := by
  generalize left : rows.length - position cursor = n
  induction n using Nat.strongRecOn generalizing cursor with
  | ind n ih =>
    obtain ⟨next, answer, last, more⟩ := paged.page cursor
    have first : pageAt rows limit (position cursor) 0 =
        (rows.drop (position cursor)).take limit := by rw [pageAt, Nat.zero_mul, Nat.add_zero]
    cases next with
    | none =>
      have short := last rfl
      refine ⟨_, .last answer, ?_, fun P empty => ?_⟩
      · rw [List.flatten_singleton, List.take_of_length_le (by rw [List.length_drop]; omega)]
      · rw [List.forall_mem_singleton, ← first]
        constructor
        · intro holds k
          cases k with
          | zero => exact holds
          | succ k =>
            rw [pageAt_succ, pageAt_past (by omega)]
            exact empty
        · intro holds
          exact holds 0
    | some follow =>
      obtain ⟨later, inside⟩ := more follow rfl
      obtain ⟨pages, rest, content, every⟩ := ih _ (by omega) (some follow) rfl
      refine ⟨_, .more answer rest, ?_, fun P empty => ?_⟩
      · rw [List.flatten_cons, content, later, ← List.drop_drop, List.take_append_drop]
      · rw [List.forall_mem_cons, every P empty, ← first, later]
        constructor
        · rintro ⟨holds, others⟩ k
          cases k with
          | zero => exact holds
          | succ k =>
            rw [pageAt_succ]
            exact others k
        · intro holds
          refine ⟨holds 0, fun k => ?_⟩
          rw [← pageAt_succ]
          exact holds (k + 1)

/-- With such a provider a client receives everything exactly when no page of the result,
split at the limit, exceeds the budget. -/
theorem paged_received_iff {app : MemoryNodeApp} {client : Client}
    (paged : Paged (client.query app) rows limit position) (positive : 1 ≤ limit) :
    Fetches app client none rows ↔
      ∀ k, Uncut (app.budget (client.request none)) (pageAt rows limit 0 k) := by
  obtain ⟨pages, answers, content, every⟩ := paged.answers positive none
  rw [paged.start] at content every
  have inOrder : pages.flatten <+: rows := content ▸ List.prefix_rfl
  have shorter := withinBudget_prefix (app.budget (client.request none))
  have noRows : Uncut (app.budget (client.request none)) [] := by
    refine .inr (.inr fun n positive bound => ?_)
    exact absurd bound (Nat.not_le.mpr positive)
  rw [fetches_iff answers, rows_eq_cut_iff shorter inOrder]
  simp only [withinBudget_eq_iff, every _ noRows, content, List.drop_zero, true_and]

end Positions

-- The budget is a header, and the cursor the provider gives is that of the third row.
namespace Trimmed

def row (id : Int) : MemoryNodeRow := [("id", Json.integer id)]

def rows : List MemoryNodeRow := [row 1, row 2]

def provider : MemoryNodeProvider := fun frame _ _ =>
  match frame.cursor with
  | none => .ok ⟨rows.take frame.limit, some "eyJvIjoyfQ"⟩
  | some _ => .ok ⟨[], none⟩

def app : MemoryNodeApp where
  opt := { schema := { tableName := "t", primaryKey := "id", fields := [⟨"id", "number", false, none⟩] } }
  provider := provider
  anchorId := "sha256:0"

def client (budget : String) : Client where
  headers := AList.insert "x-nwp-budget" budget ∅
  fields := [("limit", Json.integer 2)]
  fresh := rfl

theorem served (budget : String) : Serves ((client budget).query app) rows [rows, []] where
  answers := .more rfl (.last rfl)
  inOrder := List.prefix_rfl

theorem received_whole : Fetches app (client "5") none rows := by
  have fits : ∀ page ∈ [rows, []], measureRows page ≤ app.budget ((client "5").request none) := by
    decide
  exact (received_iff (served "5")).mpr ⟨rfl, fun page member => .inr (.inl (fits page member))⟩

/-- Every row fits the budget alone, and the second one is lost. -/
theorem trimmed_lost :
    Serves ((client "3").query app) rows [rows, []] ∧ [rows, []].flatten = rows ∧
      (∀ row ∈ rows, measureRow row ≤ app.budget ((client "3").request none)) ∧
      ¬ Fetches app (client "3") none rows := by
  refine ⟨served "3", rfl, by decide, fun fetches => ?_⟩
  have received := (fetches_iff (served "3").answers).mp fetches
  exact absurd (congrArg List.length received) (by decide)

end Trimmed
end Nps.Nwp
