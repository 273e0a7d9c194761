import NpsSdk.Lib.Assoc
import NpsSdk.Lib.JsonNumber
import NpsSdk.Lib.Outcome
import NpsSdk.Lib.Text

/-! A memory node: its schema, the providers of its rows and its query endpoint, which cuts
every answer down to the token budget of the request. -/
namespace Nps.Nwp
open Json (Value Fields)
open Outcome

structure MemoryNodeField where
  name : String
  type_ : String
  nullable : Bool := true
  columnName : Option String := none

def MemoryNodeField.resolvedColumnName (field : MemoryNodeField) : String :=
  field.columnName.getD field.name

structure MemoryNodeSchema where
  tableName : String
  primaryKey : String
  fields : List MemoryNodeField

/-- Fields are found under any spelling of their ASCII letters. -/
def MemoryNodeSchema.getField (schema : MemoryNodeSchema) (name : String) :
    Option MemoryNodeField :=
  schema.fields.find? fun field => Text.lowerAscii field.name = Text.lowerAscii name

def MemoryNodeSchema.hasField (schema : MemoryNodeSchema) (name : String) : Bool :=
  (schema.getField name).isSome

structure MemoryNodeOptions where
  schema : MemoryNodeSchema
  defaultLimit : Nat := 20
  maxLimit : Nat := 1000
  defaultTokenBudget : Nat := 0

/-- The header names are in lower case, and the body is what its JSON text was read as. -/
structure NodeRequest where
  headers : Assoc String String
  body : Except String Value

def NodeRequest.header (req : NodeRequest) (name : String) : Option String :=
  req.headers.lookup (Text.lowerAscii name)

structure NodeResponse where
  status : Nat
  headers : List (String × String)
  body : Value

def errorResp (status : Nat) (npsStatus errorCode message : String) : NodeResponse where
  status := status
  headers := [("content-type", "application/json")]
  body := .object [("error", .string errorCode), ("message", .string message),
    ("status", .string npsStatus)]

abbrev MemoryNodeRow := Fields

structure MemoryNodeQueryResult where
  rows : List MemoryNodeRow
  nextCursor : Option String

structure ParsedQueryFrame where
  anchorRef : Option String
  filter : Option Value
  fields : Option (List String)
  limit : Nat
  cursor : Option String
  order : Option Value

def present (key : String) (entries : Fields) : Option Value :=
  (Json.get key entries).filter fun value => !(value matches .null)

def ParsedQueryFrame.ofObject (obj : Fields) (defaultLimit : Nat) : ParsedQueryFrame where
  anchorRef := (Json.get "anchor_ref" obj).bind Value.asStr
  filter := present "filter" obj
  fields := ((Json.get "fields" obj).bind Value.asArray).map (·.filterMap Value.asStr)
  -- `as u32` drops the upper half of the limit.
  limit := (((Json.get "limit" obj).bind Value.asU64).map (· % 2 ^ 32)).getD defaultLimit
  cursor := (Json.get "cursor" obj).bind Value.asStr
  order := present "order" obj

def ParsedQueryFrame.fromJson (body : Value) (defaultLimit : Nat) :
    Except String ParsedQueryFrame :=
  match body.asObject with
  | none => .error "QueryFrame must be a JSON object."
  | some obj => .ok (.ofObject obj defaultLimit)

structure MemoryNodeError where
  nwpErrorCode : String
  message : String
deriving DecidableEq

def MemoryNodeError.filterInvalid (message : String) : MemoryNodeError :=
  ⟨"NWP-QUERY-FILTER-INVALID", message⟩

def MemoryNodeError.fieldUnknown (message : String) : MemoryNodeError :=
  ⟨"NWP-QUERY-FIELD-UNKNOWN", message⟩

/-- Rows come from the host: this is the trait that it implements. -/
abbrev MemoryNodeProvider :=
  ParsedQueryFrame → MemoryNodeSchema → MemoryNodeOptions →
    Except MemoryNodeError MemoryNodeQueryResult

def cmpNum (holds : ℚ → ℚ → Bool) (a b : Value) : Bool :=
  match a.asF64, b.asF64 with
  | some x, some y => holds x y
  | _, _ => false

def contains (text part : String) : Bool := decide (part.toList <:+: text.toList)

/-- One operator of a field condition, on the value of the row. -/
def matchOperator (actual : Value) (op : String) (expected : Value) : Except MemoryNodeError Bool :=
  match op with
  | "$eq" => .ok (actual.same expected)
  | "$ne" => .ok (!actual.same expected)
  | "$lt" => .ok (cmpNum (· < ·) actual expected)
  | "$lte" => .ok (cmpNum (· ≤ ·) actual expected)
  | "$gt" => .ok (cmpNum (· > ·) actual expected)
  | "$gte" => .ok (cmpNum (· ≥ ·) actual expected)
  | "$in" => .ok ((expected.asArray.map fun items => items.any (·.same actual)).getD false)
  | "$nin" => .ok ((expected.asArray.map fun items => !items.any (·.same actual)).getD false)
  | "$contains" =>
    .ok (match actual.asStr, expected.asStr with
      | some text, some part => contains text part
      | _, _ => false)
  | other => .error (.filterInvalid s!"unsupported filter operator '{other}'.")

/-- The operators of a condition in the order of their names, up to one that fails. -/
def matchOperators (actual : Value) : Fields → Except MemoryNodeError Bool
  | [] => .ok true
  | (op, expected) :: rest => do
    if ← matchOperator actual op expected then matchOperators actual rest else return false

/-- A value that is not an object stands for equality. -/
def matchFieldCond (actual cond : Value) : Except MemoryNodeError Bool :=
  match cond.asObject with
  | none => .ok (actual.same cond)
  | some obj => matchOperators actual obj

mutual
def matchFilter (row : MemoryNodeRow) : Value → Except MemoryNodeError Bool
  | .object obj => matchEntries row obj
  | _ => .error (.filterInvalid "filter must be an object.")

/-- The entries of a filter in key order, up to one that fails. -/
def matchEntries (row : MemoryNodeRow) : List (String × Value) → Except MemoryNodeError Bool
  | [] => .ok true
  | (key, cond) :: rest => do
    let holds ←
      if key = "$and" then
        match cond with
        | .array items => matchAll row items
        | _ => .error (.filterInvalid "$and requires an array.")
      else if key = "$or" then
        match cond with
        | .array items => matchAny row items
        | _ => .error (.filterInvalid "$or requires an array.")
      else matchFieldCond ((Json.get key row).getD .null) cond
    if holds then matchEntries row rest else return false

def matchAll (row : MemoryNodeRow) : List Value → Except MemoryNodeError Bool
  | [] => .ok true
  | filter :: rest => do
    if ← matchFilter row filter then matchAll row rest else return false

def matchAny (row : MemoryNodeRow) : List Value → Except MemoryNodeError Bool
  | [] => .ok false
  | filter :: rest => do
    if ← matchFilter row filter then return true else matchAny row rest
end

def project (row : MemoryNodeRow) : Option (List String) → MemoryNodeRow
  | none => row
  | some fields => fields.foldl (fun out name => match Json.get name row with
    | some value => Json.insert name value out
    | none => out) []

/-- The rows that match, in order, until there are as many as the limit; a limit of zero
stops after the first row that is looked at. -/
def collectRows (frame : ParsedQueryFrame) :
    (rows out : List MemoryNodeRow) → Except MemoryNodeError (List MemoryNodeRow)
  | [], out => .ok out
  | row :: rest, out => do
    let keep ← (frame.filter.map (matchFilter row)).getD (.ok true)
    let out := if keep then out ++ [project row frame.fields] else out
    if out.length % 2 ^ 32 ≥ frame.limit then return out
    collectRows frame rest out

/-- The provider for tests and demos. -/
def inMemoryMemoryNodeProvider (rows : List MemoryNodeRow) : MemoryNodeProvider :=
  fun frame schema _ => do
    match (frame.fields.getD []).find? (!schema.hasField ·) with
    | some unknown => throw (.fieldUnknown s!"unknown field '{unknown}'.")
    | none => pure ()
    return { rows := ← collectRows frame rows [], nextCursor := none }

/-- Tokens are 32-bit counts. -/
def u32 (n : Nat) : Nat := n % 2 ^ 32

def tokensOf (value : Value) : Nat := u32 (((Text.utf8 value.text).length + 3) / 4)

def measureRows (rows : List MemoryNodeRow) : Nat := tokensOf (.array (rows.map .object))

def measureRow (row : MemoryNodeRow) : Nat := tokensOf (.object row)

/-- The rows from the start that fit the budget beside those already taken. -/
def trimFrom (budget : Nat) : (acc : Nat) → List MemoryNodeRow → List MemoryNodeRow × Nat
  | acc, [] => ([], acc)
  | acc, row :: rest =>
    let next := u32 (acc + measureRow row)
    if next > budget then ([], acc)
    else
      let (rows, total) := trimFrom budget next rest
      (row :: rows, total)

def trimToBudget (rows : List MemoryNodeRow) (budget : Nat) : List MemoryNodeRow × Nat :=
  trimFrom budget 0 rows

/-- The rows that are answered within a budget, with their tokens; zero is no budget. -/
def withinBudget (budget : Nat) (rows : List MemoryNodeRow) : List MemoryNodeRow × Nat :=
  if 0 < budget ∧ budget < measureRows rows then trimToBudget rows budget
  else (rows, measureRows rows)

def parseU32 (text : String) : Option Nat :=
  let digits := match text.toList with
    | '+' :: rest => rest
    | chars => chars
  if digits ≠ [] ∧ digits.all Char.isDigit ∧ Nat.ofDigitChars 10 digits 0 < 2 ^ 32 then
    some (Nat.ofDigitChars 10 digits 0)
  else none

def parseBudget (req : NodeRequest) : Nat := ((req.header "X-NWP-Budget").bind parseU32).getD 0

/-- Zero stands for no limit. -/
def effectiveBudget (agentBudget cgnLimit : Nat) : Nat :=
  if cgnLimit = 0 then agentBudget
  else if agentBudget = 0 then cgnLimit
  else min cgnLimit agentBudget

structure MemoryNodeApp where
  opt : MemoryNodeOptions
  provider : MemoryNodeProvider
  anchorId : String

namespace MemoryNodeApp
variable (app : MemoryNodeApp)

def parseFrame (req : NodeRequest) : Except NodeResponse ParsedQueryFrame :=
  (do ParsedQueryFrame.fromJson (← req.body) app.opt.defaultLimit).mapError
    (errorResp 400 "NPS-CLIENT-BAD-REQUEST" "NWP-QUERY-FILTER-INVALID")

def budget (req : NodeRequest) : Nat :=
  effectiveBudget (parseBudget req) app.opt.defaultTokenBudget

/-- The capsule of an answer; the provider's cursor is passed on as it is. -/
def capsule (req : NodeRequest) (result : MemoryNodeQueryResult) : NodeResponse :=
  let (rows, tokenEst) := withinBudget (app.budget req) result.rows
  { status := 200
    headers := [("content-type", "application/nwp-capsule"), ("x-nwp-schema", app.anchorId),
      ("x-nwp-tokens", toString tokenEst), ("x-nwp-node-type", "memory")]
    body := .object <| [("anchor_ref", .string app.anchorId), ("count", Json.integer rows.length),
      ("data", .array (rows.map .object))] ++
      (result.nextCursor.map fun cursor => ("next_cursor", Value.string cursor)).toList ++
      [("token_est", Json.integer tokenEst)] }

def handleQuery (req : NodeRequest) : NodeResponse :=
  match app.parseFrame req with
  | .error response => response
  | .ok frame =>
    let frame := { frame with limit := min frame.limit app.opt.maxLimit }
    match app.provider frame app.opt.schema app.opt with
    | .error e => errorResp 400 "NPS-CLIENT-BAD-REQUEST" e.nwpErrorCode e.message
    | .ok result => app.capsule req result

end MemoryNodeApp
end Nps.Nwp
