import NpsSdk.Nwp.Paging

/-! How many rows a memory node answers with: the query endpoint holds every limit to the greatest
one there is, the stream endpoint asks its provider for as many as the request says. The provider for
tests and demos knows no cursors and always starts at the first row. -/
namespace Nps.Nwp
open Json (Value Fields)
open Outcome

/-- A response whose body is one JSON text a line. -/
structure StreamResponse where
  status : Nat
  headers : List (String × String)
  lines : List Value

def MemoryNodeApp.streamOf (app : MemoryNodeApp) (streamId : String) (result : MemoryNodeQueryResult) :
    StreamResponse where
  status := 200
  headers := [("content-type", "application/nwp-capsule"), ("x-nwp-schema", app.anchorId),
    ("x-nwp-node-type", "memory")]
  lines := [
    .object [("anchor_ref", .string app.anchorId), ("data", .array (result.rows.map .object)),
      ("is_last", .bool false), ("seq", Json.integer 0), ("stream_id", .string streamId)],
    .object [("data", .array []), ("is_last", .bool true), ("seq", Json.integer 1),
      ("stream_id", .string streamId)]]

/-- The rows go into the first of two chunks, under the limit that the request has. -/
def MemoryNodeApp.handleStream (app : MemoryNodeApp) (streamId : String) (req : NodeRequest) :
    Except NodeResponse StreamResponse := do
  let frame ← app.parseFrame req
  let result ← (app.provider frame app.opt.schema app.opt).mapError fun e =>
    errorResp 400 "NPS-CLIENT-BAD-REQUEST" e.nwpErrorCode e.message
  return app.streamOf streamId result

/-- The rows of all chunks of a stream. -/
def StreamResponse.rows (response : StreamResponse) : Option (List MemoryNodeRow) := do
  let chunks ← response.lines.mapM fun line => do
    let data ← (Json.get "data" (← line.asObject)).bind Value.asArray
    data.mapM Value.asObject
  return chunks.flatten

/-- What the filter of a frame says of a row. -/
def judge (frame : ParsedQueryFrame) (row : MemoryNodeRow) : Except MemoryNodeError Bool :=
  (frame.filter.map (matchFilter row)).getD (.ok true)

def satisfies (frame : ParsedQueryFrame) (row : MemoryNodeRow) : Bool :=
  match judge frame row with
  | .ok holds => holds
  | .error _ => false

section Collecting
variable {frame : ParsedQueryFrame} {rows out all : List MemoryNodeRow}

theorem collectRows_step {row : MemoryNodeRow} {rest : List MemoryNodeRow} :
    collectRows frame (row :: rest) out = judge frame row >>= fun holds =>
      if (if holds then out ++ [project row frame.fields] else out).length % 2 ^ 32 ≥ frame.limit then
        .ok (if holds then out ++ [project row frame.fields] else out)
      else collectRows frame rest (if holds then out ++ [project row frame.fields] else out) := by
  rw [collectRows]
  rfl

theorem collectRows_cons {row : MemoryNodeRow} {rest : List MemoryNodeRow} :
    collectRows frame (row :: rest) out = .ok all ↔ ∃ holds, judge frame row = .ok holds ∧
      (if (if holds then out ++ [project row frame.fields] else out).length % 2 ^ 32 ≥ frame.limit then
        .ok (if holds then out ++ [project row frame.fields] else out)
      else collectRows frame rest (if holds then out ++ [project row frame.fields] else out)) =
        .ok all := by
  rw [collectRows_step, bind_ok]

/-- As long as fewer rows than the limit are there, the rows that match follow, up to the limit. -/
theorem collectRows_eq (small : frame.limit < 2 ^ 32) (room : out.length < frame.limit)
    (collected : collectRows frame rows out = .ok all) :
    all = out ++ ((rows.filter (satisfies frame)).take (frame.limit - out.length)).map
      (project · frame.fields) := by
  induction rows generalizing out with
  | nil =>
    cases collected
    simp
  | cons row rest ih =>
    obtain ⟨holds, judged, later⟩ := collectRows_cons.mp collected
    have verdict : satisfies frame row = holds := by rw [satisfies, judged]
    cases holds with
    | false =>
      simp only [Bool.false_eq_true, if_false] at later
      rw [List.filter_cons_of_neg (by simp [verdict])]
      rw [if_neg (by rw [Nat.mod_eq_of_lt (by omega)]; omega)] at later
      exact ih room later
    | true =>
      simp only [if_true, List.length_append, List.length_singleton] at later
      rw [List.filter_cons_of_pos verdict]
      obtain ⟨left, count⟩ : ∃ left, frame.limit - out.length = left + 1 :=
        ⟨frame.limit - out.length - 1, by omega⟩
      rw [count, List.take_succ_cons, List.map_cons]
      by_cases full : (out.length + 1) % 2 ^ 32 ≥ frame.limit
      · rw [if_pos full] at later
        have none_left : left = 0 := by
          rw [Nat.mod_eq_of_lt (by omega)] at full
          omega
        cases later
        simp [none_left]
      · rw [if_neg full] at later
        rw [Nat.mod_eq_of_lt (by omega)] at full
        have rest_eq := ih (by simp; omega) later
        rw [rest_eq, List.length_append, List.length_singleton, List.append_assoc,
          List.singleton_append]
        congr 4
        omega

theorem collectRows_zero (none_ : frame.limit = 0) (collected : collectRows frame rows [] = .ok all) :
    all.length ≤ 1 := by
  cases rows with
  | nil =>
    cases collected
    simp
  | cons row rest =>
    obtain ⟨holds, -, later⟩ := collectRows_cons.mp collected
    rw [none_, if_pos (Nat.zero_le _)] at later
    cases later
    split <;> simp

theorem collectRows_total (judged : ∀ row ∈ rows, ∃ holds, judge frame row = .ok holds)
    (out : List MemoryNodeRow) : ∃ all, collectRows frame rows out = .ok all := by
  induction rows generalizing out with
  | nil => exact ⟨out, rfl⟩
  | cons row rest ih =>
    rw [List.forall_mem_cons] at judged
    obtain ⟨holds, first⟩ := judged.1
    by_cases full : (if holds then out ++ [project row frame.fields] else out).length % 2 ^ 32 ≥
        frame.limit
    · exact ⟨_, collectRows_cons.mpr ⟨holds, first, if_pos full⟩⟩
    · obtain ⟨all, later⟩ := ih judged.2 (if holds then out ++ [project row frame.fields] else out)
      refine ⟨all, collectRows_cons.mpr ⟨holds, first, ?_⟩⟩
      rw [if_neg full]
      exact later

end Collecting

section Provider
variable {rows : List MemoryNodeRow} {frame : ParsedQueryFrame} {schema : MemoryNodeSchema}
  {opt : MemoryNodeOptions} {result : MemoryNodeQueryResult}

theorem provider_ok : inMemoryMemoryNodeProvider rows frame schema opt = .ok result ↔
    (frame.fields.getD []).find? (!schema.hasField ·) = none ∧
      ∃ all, collectRows frame rows [] = .ok all ∧ result = ⟨all, none⟩ := by
  unfold inMemoryMemoryNodeProvider
  cases unknown : (frame.fields.getD []).find? (!schema.hasField ·) with
  | some name => simp [throw, throwThe, MonadExceptOf.throw]
  | none =>
    simp only [pure_eq, true_and]
    rw [bind_ok]
    simp [eq_comm]

theorem provider_rows (small : frame.limit < 2 ^ 32) (positive : 1 ≤ frame.limit)
    (answer : inMemoryMemoryNodeProvider rows frame schema opt = .ok result) :
    result.rows = ((rows.filter (satisfies frame)).take frame.limit).map (project · frame.fields) ∧
      result.nextCursor = none := by
  obtain ⟨-, all, collected, rfl⟩ := provider_ok.mp answer
  have room : ([] : List MemoryNodeRow).length < frame.limit := positive
  exact ⟨by simpa using collectRows_eq small room collected, rfl⟩

theorem provider_length (small : frame.limit < 2 ^ 32)
    (answer : inMemoryMemoryNodeProvider rows frame schema opt = .ok result) :
    result.rows.length ≤ max frame.limit 1 := by
  by_cases positive : 1 ≤ frame.limit
  · rw [(provider_rows small positive answer).1, List.length_map, List.length_take]
    omega
  · obtain ⟨-, all, collected, rfl⟩ := provider_ok.mp answer
    have few := collectRows_zero (Nat.lt_one_iff.mp (not_le.mp positive)) collected
    exact few.trans (le_max_right _ _)

theorem provider_answers (known : ∀ name ∈ frame.fields.getD [], schema.hasField name)
    (judged : ∀ row ∈ rows, ∃ holds, judge frame row = .ok holds) :
    ∃ result, inMemoryMemoryNodeProvider rows frame schema opt = .ok result := by
  obtain ⟨all, collected⟩ := collectRows_total judged []
  refine ⟨⟨all, none⟩, provider_ok.mpr ⟨?_, all, collected, rfl⟩⟩
  exact List.find?_eq_none.mpr fun name member => by simp [known name member]

end Provider

def inMemoryApp (rows : List MemoryNodeRow) (opt : MemoryNodeOptions) (anchorId : String) :
    MemoryNodeApp := ⟨opt, inMemoryMemoryNodeProvider rows, anchorId⟩

section Endpoints
variable {app : MemoryNodeApp} {req : NodeRequest} {frame : ParsedQueryFrame}
  {answered : List MemoryNodeRow}

theorem parseFrame_small (defaults : app.opt.defaultLimit < 2 ^ 32)
    (parsed : app.parseFrame req = .ok frame) : frame.limit < 2 ^ 32 := by
  unfold MemoryNodeApp.parseFrame at parsed
  cases body : req.body with
  | error message =>
    rw [body] at parsed
    cases parsed
  | ok value =>
    rw [body, ok_bind] at parsed
    unfold ParsedQueryFrame.fromJson at parsed
    cases members : value.asObject with
    | none =>
      rw [members] at parsed
      cases parsed
    | some obj =>
      rw [members] at parsed
      cases parsed
      unfold ParsedQueryFrame.ofObject
      dsimp only
      cases (Json.get "limit" obj).bind Value.asU64 with
      | none => exact defaults
      | some limit => exact Nat.mod_lt _ (by decide)

/-- Rows are answered from the start of what the provider gives. -/
theorem handleQuery_rows (given : (app.handleQuery req).rows = some answered) :
    ∃ frame result, app.parseFrame req = .ok frame ∧
      app.provider { frame with limit := min frame.limit app.opt.maxLimit } app.opt.schema app.opt =
        .ok result ∧ answered <+: result.rows := by
  unfold MemoryNodeApp.handleQuery at given
  cases parsed : app.parseFrame req with
  | error response =>
    rw [parsed] at given
    dsimp only at given
    unfold MemoryNodeApp.parseFrame at parsed
    cases read : (do ParsedQueryFrame.fromJson (← req.body) app.opt.defaultLimit) with
    | ok frame =>
      rw [read] at parsed
      cases parsed
    | error message =>
      rw [read] at parsed
      cases parsed
      cases given
  | ok frame =>
    rw [parsed] at given
    dsimp only at given
    cases answer : app.provider { frame with limit := min frame.limit app.opt.maxLimit } app.opt.schema
        app.opt with
    | error e =>
      rw [answer] at given
      cases given
    | ok result =>
      rw [answer] at given
      have rows := (capsule_rows req result).symm.trans given
      exact ⟨frame, result, rfl, answer, Option.some.inj rows ▸ withinBudget_prefix _ _⟩

theorem handleStream_rows {streamId : String} {response : StreamResponse}
    (streamed : app.handleStream streamId req = .ok response) (given : response.rows = some answered) :
    ∃ frame result, app.parseFrame req = .ok frame ∧
      app.provider frame app.opt.schema app.opt = .ok result ∧ answered = result.rows := by
  obtain ⟨frame, parsed, later⟩ := bind_ok.mp streamed
  obtain ⟨result, answer, made⟩ := bind_ok.mp later
  cases made
  refine ⟨frame, result, parsed, ?_, ?_⟩
  · cases provided : app.provider frame app.opt.schema app.opt with
    | error e =>
      rw [provided] at answer
      cases answer
    | ok result' =>
      rw [provided] at answer
      cases answer
      rfl
  · have rows : (app.streamOf streamId result).rows = some result.rows := by
      simp [MemoryNodeApp.streamOf, StreamResponse.rows, Value.asObject, Json.get, Value.asArray,
        mapM_asObject, -List.mapM_map]
    exact Option.some.inj (given.symm.trans rows)

end Endpoints

section Limits
variable (rows : List MemoryNodeRow) (opt : MemoryNodeOptions) (anchorId : String)

/-- The result is one page of the rows that match. -/
structure ExactPage (frame : ParsedQueryFrame) (offset : Nat) (result : MemoryNodeQueryResult) : Prop where
  rows_eq : result.rows =
    (((rows.filter (satisfies frame)).drop offset).take frame.limit).map (project · frame.fields)
  cursor_iff : result.nextCursor.isSome ↔ offset + frame.limit < (rows.filter (satisfies frame)).length

/-- Both endpoints answer with at most as many rows as the greatest limit, and the provider with the
page that a frame asks for. -/
structure Limited : Prop where
  query : ∀ req answered, ((inMemoryApp rows opt anchorId).handleQuery req).rows = some answered →
    answered.length ≤ opt.maxLimit
  stream : ∀ streamId req response answered,
    (inMemoryApp rows opt anchorId).handleStream streamId req = .ok response →
    response.rows = some answered → answered.length ≤ opt.maxLimit
  exact : ∃ offset : Option String → Nat, offset none = 0 ∧
    ∀ frame result, frame.limit < 2 ^ 32 →
      inMemoryMemoryNodeProvider rows frame opt.schema opt = .ok result →
      ExactPage rows frame (offset frame.cursor) result

/-- The provider answers a limit with the first rows that match, from whatever cursor, and the
endpoints keep to the greatest limit where the limit that they ask with does. -/
structure FirstRows : Prop where
  query : ∀ req answered, ((inMemoryApp rows opt anchorId).handleQuery req).rows = some answered →
    answered.length ≤ opt.maxLimit
  stream : ∀ streamId req frame response answered,
    (inMemoryApp rows opt anchorId).parseFrame req = .ok frame → 1 ≤ frame.limit →
    frame.limit ≤ opt.maxLimit →
    (inMemoryApp rows opt anchorId).handleStream streamId req = .ok response →
    response.rows = some answered → answered.length ≤ opt.maxLimit
  exact : ∀ frame result, 1 ≤ frame.limit → frame.limit < 2 ^ 32 →
    inMemoryMemoryNodeProvider rows frame opt.schema opt = .ok result →
    result.rows = ((rows.filter (satisfies frame)).take frame.limit).map (project · frame.fields) ∧
      result.nextCursor = none
  answers : ∀ frame, (∀ name ∈ frame.fields.getD [], opt.schema.hasField name) →
    (∀ row ∈ rows, ∃ holds, judge frame row = .ok holds) →
    ∃ result, inMemoryMemoryNodeProvider rows frame opt.schema opt = .ok result

/-- Limits are 32-bit numbers, and the greatest one is not zero. -/
theorem first_rows (positive : 1 ≤ opt.maxLimit) (defaults : opt.defaultLimit < 2 ^ 32) :
    FirstRows rows opt anchorId := by
  constructor
  · intro req answered given
    obtain ⟨frame, result, parsed, answer, start⟩ := handleQuery_rows given
    have small : frame.limit < 2 ^ 32 := parseFrame_small defaults parsed
    have answer : inMemoryMemoryNodeProvider rows { frame with limit := min frame.limit opt.maxLimit }
        opt.schema opt = .ok result := answer
    have few : result.rows.length ≤ max (min frame.limit opt.maxLimit) 1 :=
      provider_length (lt_of_le_of_lt (min_le_left _ opt.maxLimit) small) answer
    exact start.length_le.trans (few.trans (max_le (min_le_right _ _) positive))
  · intro streamId req frame response answered parsed least most streamed given
    obtain ⟨frame', result, parsed', answer, rfl⟩ := handleStream_rows streamed given
    obtain rfl := Except.ok.inj (parsed.symm.trans parsed')
    have answer : inMemoryMemoryNodeProvider rows frame opt.schema opt = .ok result := answer
    have few : result.rows.length ≤ max frame.limit 1 :=
      provider_length (parseFrame_small defaults parsed) answer
    exact few.trans (max_le most positive)
  · intro frame result least small answer
    exact provider_rows small least answer
  · intro frame known judged
    exact provider_answers known judged

end Limits

namespace TwoRows

def row (id : Int) : MemoryNodeRow := [("id", Json.integer id)]

def rows : List MemoryNodeRow := [row 1, row 2]

def options (maxLimit : Nat) : MemoryNodeOptions where
  schema := { tableName := "t", primaryKey := "id", fields := [⟨"id", "number", false, none⟩] }
  maxLimit := maxLimit

def request (limit : Nat) : NodeRequest where
  headers := ∅
  body := .ok (.object [("limit", Json.integer limit)])

def frame (limit : Nat) : ParsedQueryFrame := .ofObject [("limit", Json.integer limit)] 20

/-- A second row is left and no cursor says so; a stream has both rows where one is the most, and the
limit zero is answered with one. -/
theorem second_left : ¬ Limited rows (options 1000) "sha256:0" ∧
    ((inMemoryApp rows (options 1) "sha256:0").handleStream "0" (request 2)).toOption.bind
      StreamResponse.rows = some rows ∧
    inMemoryMemoryNodeProvider rows (frame 0) (options 1).schema (options 1) = .ok ⟨[row 1], none⟩ := by
  refine ⟨fun limited => ?_, rfl, rfl⟩
  obtain ⟨offset, start, exact⟩ := limited.exact
  have page : ExactPage rows (frame 1) (offset none) ⟨[row 1], none⟩ :=
    exact (frame 1) _ (by decide) rfl
  have more : offset none + 1 < 2 := by
    rw [start]
    decide
  exact absurd (page.cursor_iff.mpr more) (by decide)

theorem first_answered : FirstRows rows (options 1) "sha256:0" :=
  first_rows rows (options 1) "sha256:0" (by decide) (by decide)

end TwoRows
end Nps.Nwp
