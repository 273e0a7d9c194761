import NpsSdk.Lib.Splitting
import NpsSdk.Lib.Sql
import NpsSdk.Nip.Platform
import NpsSdk.Nwp.MemoryNode

/-! Queries as parameterized SQL: the filter language is translated to a condition with a
placeholder for every value, and put together with fields, order and page. -/
namespace Nps.Nwp
open Json (Value Fields)
open Outcome
open Sql (Operator Connective)

inductive DatabaseDialect where
  | sqlServer
  | postgreSql
deriving DecidableEq

/-- Names are quoted as they are; they come from the schema. -/
def SqlToken.spell (dialect : DatabaseDialect) : Sql.Token → String
  | .raw text => text
  | .identifier name =>
    match dialect with
    | .sqlServer => "[" ++ name ++ "]"
    | .postgreSql => "\"" ++ name ++ "\""
  | .placeholder param => "@" ++ param

def spell (dialect : DatabaseDialect) (text : Sql.Text) : String :=
  String.join (text.map (SqlToken.spell dialect))

/-- The token holds no sign of a placeholder in its own text. -/
def SqlToken.Plain : Sql.Token → Prop
  | .raw text | .identifier text | .placeholder text => '@' ∉ text.toList

/-- In the text that is sent, the signs of placeholders stand before the parameters of the tokens, in
their order, and nowhere else. -/
theorem spell_placeholders (dialect : DatabaseDialect) (text : Sql.Text)
    (plain : ∀ token ∈ text, SqlToken.Plain token) :
    ∃ first pieces, Text.splitChars '@' (spell dialect text).toList = first :: pieces ∧
      List.Forall₂ (fun param piece => param.toList <+: piece) (Sql.placeholders text) pieces := by
  induction text with
  | nil => exact ⟨[], [], rfl, .nil⟩
  | cons token text ih =>
    obtain ⟨own, others⟩ := List.forall_mem_cons.mp plain
    obtain ⟨first, pieces, split, named⟩ := ih others
    have joined : (spell dialect (token :: text)).toList =
        (SqlToken.spell dialect token).toList ++ (spell dialect text).toList := by
      simp [spell, String.join_cons]
    rw [joined]
    cases token with
    | raw word => exact ⟨_, pieces, Text.splitChars_front own split, named⟩
    | identifier name =>
      refine ⟨_, pieces, Text.splitChars_front ?_ split, named⟩
      cases dialect <;> simpa [SqlToken.spell, SqlToken.Plain] using own
    | placeholder param =>
      refine ⟨[], (param.toList ++ first) :: pieces, ?_, .cons (List.prefix_append _ _) named⟩
      have sign : (SqlToken.spell dialect (.placeholder param)).toList = '@' :: param.toList := by
        simp [SqlToken.spell]
      rw [sign, List.cons_append, Text.splitChars, if_pos rfl, Text.splitChars_front own split]

structure NwpFilterError where
  message : String
  errorCode : String
deriving DecidableEq

def filterError (message : String) : NwpFilterError := ⟨message, "NWP-QUERY-FILTER-INVALID"⟩

def unknownField (message : String) : NwpFilterError := ⟨message, "NWP-QUERY-FIELD-UNKNOWN"⟩

def extractValue : Value → Sql.Value
  | .string text => .text text
  | .number n =>
    match n.asI64 with
    | some i => .int i
    | none => .float n.asF64
  | .bool truth => .bool truth
  | .null => .null
  | other => .text other.text

def sqlValueToString : Sql.Value → String
  | .null => ""
  | .bool truth => if truth then "true" else "false"
  | .int number => toString number
  | .float number => Binary64.display number
  | .text text => text
  | .list _ => ""

structure Translator where
  paramIndex : Nat := 0
  params : List Sql.Param := []

abbrev Translating := StateT Translator (Except NwpFilterError)

def paramName (index : Nat) : String := "p" ++ toString index

/-- Bind a value to the next parameter. -/
def addParam (value : Sql.Value) : Translating String := fun t =>
  .ok (paramName t.paramIndex,
    { paramIndex := t.paramIndex + 1, params := t.params ++ [⟨paramName t.paramIndex, value⟩] })

def simpleOperator : String → Option Operator
  | "$eq" => some .eq
  | "$ne" => some .ne
  | "$lt" => some .lt
  | "$lte" => some .lte
  | "$gt" => some .gt
  | "$gte" => some .gte
  | "$contains" => some .like
  | _ => none

/-- What is bound for an operand; `$contains` looks for it between any characters. -/
def boundOperand (operator : Operator) (value : Value) : Sql.Value :=
  if operator = .like then .text ("%" ++ sqlValueToString (extractValue value) ++ "%")
  else extractValue value

section Fields
variable (field : MemoryNodeField)

def buildSimple (op : String) (value : Value) : Translating Sql.Text := do
  match simpleOperator op with
  | none => throw (filterError s!"Unknown filter operator '{op}' on field '{field.name}'.")
  | some operator =>
    let param ← addParam (boundOperand operator value)
    return Sql.compareText field.resolvedColumnName operator param

def buildIn (negate : Bool) (value : Value) : Translating Sql.Text := do
  match value.asArray with
  | none => throw (filterError "$in/$nin requires an array value.")
  | some items =>
    -- Nothing is in an empty list.
    if items.isEmpty then return Sql.constantText negate
    let param ← addParam (.list (items.map extractValue))
    return Sql.amongText field.resolvedColumnName negate param

def buildBetween (value : Value) : Translating Sql.Text := do
  match value.asArray with
  | some [low, high] =>
    let pLow ← addParam (extractValue low)
    let pHigh ← addParam (extractValue high)
    return Sql.betweenText field.resolvedColumnName pLow pHigh
  | _ => throw (filterError "$between requires an array of exactly two values [low, high].")

def buildOperator (op : String) (value : Value) : Translating Sql.Text :=
  if op = "$in" then buildIn field false value
  else if op = "$nin" then buildIn field true value
  else if op = "$between" then buildBetween field value
  else buildSimple field op value

def buildOperators : Fields → Translating (List Sql.Text)
  | [] => return []
  | (op, value) :: rest => do
    let part ← buildOperator field op value
    return part :: (← buildOperators rest)

def buildFieldCondition (condition : Value) : Translating Sql.Text := do
  match condition.asObject with
  | none => throw (filterError
      ("Field '" ++ field.name ++ "' condition must be an object (e.g. \x7b\"$eq\": value\x7d)."))
  | some obj =>
    -- A condition without operators is a pair of parentheses with nothing in it.
    match ← buildOperators field obj with
    | [part] => return part
    | parts => return Sql.groupText .and parts

end Fields

section Schema
variable (schema : MemoryNodeSchema)

def validateField (name : String) : Except NwpFilterError MemoryNodeField :=
  (schema.getField name).elim (.error (unknownField s!"Unknown field '{name}'.")) .ok

/-- Join clauses, dropping the empty ones. -/
def joinClauses (connective : Connective) (clauses : List Sql.Text) : Sql.Text :=
  match clauses.filter fun clause => !clause.isEmpty with
  | [] => []
  | [clause] => clause
  | clauses => Sql.groupText connective clauses

def logicalConnective (op : String) : Except NwpFilterError Connective :=
  if op = "$and" then .ok .and
  else if op = "$or" then .ok .or
  else .error (filterError s!"Unknown logical operator '{op}'.")

/-- The condition on a field that the schema has. -/
def buildNamed (name : String) (value : Value) : Translating Sql.Text := do
  let field ← (validateField schema name : Except _ _)
  buildFieldCondition field value

mutual
def buildObject : Value → Translating Sql.Text
  | .object entries => do return joinClauses .and (← buildEntries entries)
  | _ => throw (filterError "Filter condition must be an object.")

def buildEntries : List (String × Value) → Translating (List Sql.Text)
  | [] => return []
  | (name, value) :: rest => do
    let clause ← (if Text.startsWith "$" name then buildLogical name value
      else buildNamed schema name value : Translating Sql.Text)
    return clause :: (← buildEntries rest)

def buildLogical (op : String) : Value → Translating Sql.Text
  | .array items => do
    let connective ← (logicalConnective op : Except _ _)
    return joinClauses connective (← buildItems items)
  | _ => throw (filterError s!"Logical operator '{op}' requires an array value.")

def buildItems : List Value → Translating (List Sql.Text)
  | [] => return []
  | filter :: rest => do
    let part ← buildObject filter
    return part :: (← buildItems rest)
end

/-- The condition of a filter, empty when there is none, and its parameters. -/
def translate (filter : Option Value) : Except NwpFilterError (Sql.Text × List Sql.Param) :=
  match filter with
  | none => .ok ([], [])
  | some .null => .ok ([], [])
  | some filter => do
    let (text, translator) ← (buildObject schema filter).run {}
    return (text, translator.params)

def commaList : List Sql.Text → Sql.Text := List.intercalate [.raw ", "]

def allColumns : Sql.Text :=
  commaList (schema.fields.map fun field => [.identifier field.resolvedColumnName])

/-- The column of a requested field, under the field's name when that differs. -/
def selectColumn (field : MemoryNodeField) : Sql.Text :=
  if field.columnName.isSome then
    [.identifier field.resolvedColumnName, .raw " AS ", .identifier field.name]
  else [.identifier field.resolvedColumnName]

def buildSelectList (fields : Option (List String)) : Except NwpFilterError Sql.Text :=
  match fields with
  | none => .ok (allColumns schema)
  | some [] => .ok (allColumns schema)
  | some names => do
    let columns ← names.mapM (validateField schema)
    return commaList (columns.map selectColumn)

structure OrderClause where
  field : String
  dir : String

/-- One element of an order: an object with `field`, a single-key object, a pair or a name. -/
def orderClause : Value → Option OrderClause
  | .object obj =>
    match (Json.get "field" obj).bind Value.asStr, obj with
    | some field, _ => some ⟨field, ((Json.get "dir" obj).bind Value.asStr).getD "ASC"⟩
    | none, (field, dir) :: _ => some ⟨field, dir.asStr.getD "ASC"⟩
    | none, [] => none
  | .array (first :: rest) =>
    first.asStr.map fun field => ⟨field, (rest.head?.bind Value.asStr).getD "ASC"⟩
  | .string field => some ⟨field, "ASC"⟩
  | _ => none

def orderClauses (order : Option Value) : List OrderClause :=
  ((order.bind Value.asArray).getD []).filterMap orderClause

def descending (dir : String) : Bool := Text.lowerAscii dir = Text.lowerAscii "DESC"

def orderField (clause : OrderClause) : Except NwpFilterError Sql.Text := do
  let field ← (schema.getField clause.field).elim
    (.error (unknownField s!"Unknown order field '{clause.field}'.")) .ok
  return [.identifier field.resolvedColumnName,
    .raw (if descending clause.dir then " DESC" else " ASC")]

def buildOrderBy (order : List OrderClause) : Except NwpFilterError Sql.Text := do
  return commaList (← order.mapM (orderField schema))

/-- Without an order the primary key makes pages stable. -/
def orderText (order : Option Value) : Except NwpFilterError Sql.Text :=
  match orderClauses order with
  | [] => .ok [.identifier schema.primaryKey]
  | clauses => buildOrderBy schema clauses

end Schema

/-- The value of a base64 digit, in either alphabet. -/
def sextet (c : UInt8) : Option Nat :=
  let code := c.toNat
  if 65 ≤ code ∧ code ≤ 90 then some (code - 65)
  else if 97 ≤ code ∧ code ≤ 122 then some (code - 71)
  else if 48 ≤ code ∧ code ≤ 57 then some (code + 4)
  else if code = 43 ∨ code = 45 then some 62
  else if code = 47 ∨ code = 95 then some 63
  else none

/-- `base64url_decode`: bits that do not fill a byte are dropped, and so is all after a `=`. -/
def base64urlDecodeFrom (buf bits : Nat) : List UInt8 → Option (List UInt8)
  | [] => some []
  | c :: rest =>
    if c = 61 then some []
    else do
      let value ← sextet c
      let buf := (buf * 64 + value) % 2 ^ 32
      if bits + 6 ≥ 8 then
        let bytes ← base64urlDecodeFrom buf (bits + 6 - 8) rest
        return UInt8.ofNat (buf / 2 ^ (bits + 6 - 8)) :: bytes
      else base64urlDecodeFrom buf (bits + 6) rest

def base64urlDecode (input : String) : Option (List UInt8) :=
  base64urlDecodeFrom 0 0 (Text.utf8 input)

/-- A cursor that is not one of ours starts from the first row. -/
def decodeCursor [Nip.Serde] (cursor : Option String) : Int :=
  (do
    let bytes ← base64urlDecode (← cursor)
    let json ← Text.ofUtf8? bytes
    let value ← (Nip.Serde.fromStr json).toOption
    match ← Json.get "o" (← value.asObject) with
    | .number n => n.asI64
    | _ => none).getD 0

structure QueryFrame where
  filter : Option Value := none
  order : Option Value := none
  fields : Option (List String) := none
  cursor : Option String := none
  limit : Option Nat := none

/-- No limit, and a limit of zero, stand for the default. -/
def pageLimit (frame : QueryFrame) (options : MemoryNodeOptions) : Nat :=
  let frameLimit := frame.limit.getD 0
  min (if frameLimit = 0 then options.defaultLimit else frameLimit) options.maxLimit

def pageText : DatabaseDialect → Sql.Text
  | .sqlServer => [.raw " OFFSET ", .placeholder "_offset", .raw " ROWS FETCH NEXT ",
      .placeholder "_limit", .raw " ROWS ONLY"]
  | .postgreSql => [.raw " LIMIT ", .placeholder "_limit", .raw " OFFSET ", .placeholder "_offset"]

def whereText (condition : Sql.Text) : Sql.Text :=
  if condition.isEmpty then [] else .raw " WHERE " :: condition

/-- The `SELECT` of a page of the result. -/
def buildSelect [Nip.Serde] (schema : MemoryNodeSchema) (dialect : DatabaseDialect)
    (frame : QueryFrame) (options : MemoryNodeOptions) :
    Except NwpFilterError (Sql.Text × List Sql.Param) := do
  let select ← buildSelectList schema frame.fields
  let (condition, params) ← translate schema frame.filter
  let order ← orderText schema frame.order
  return ([.raw "SELECT "] ++ select ++ [.raw " FROM ", .identifier schema.tableName] ++
      whereText condition ++ [.raw " ORDER BY "] ++ order ++ pageText dialect,
    params ++ [⟨"_limit", .int (pageLimit frame options)⟩,
      ⟨"_offset", .int (decodeCursor frame.cursor)⟩])

end Nps.Nwp
