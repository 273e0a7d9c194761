import NpsSdk.Lib.JsonNumber
import NpsSdk.Nop.Models

/-! Parameters of a node, looked up in the results of the nodes before it; and conditions on nodes:
a tokenizer and a recursive-descent parser that computes the truth of a condition while it reads it.
Positions are kept as in the code, so that reading past an end is a panic. -/
namespace Nps.Nop
open Json (Value Fields)

structure MappingError where
  message : String
  errorCode : String
deriving DecidableEq

def mappingError (message : String) : MappingError := ⟨message, ErrorCodes.inputMappingError⟩

def navigate : List String → Value → Option Value
  | [], current => some current
  | part :: rest, .object obj => (Json.get part obj).bind (navigate rest)
  | _ :: _, _ => none

/-- The value that a path such as `$.node.field` leads to, none where a name is missing. -/
def resolve (path : String) (context : Fields) : Except MappingError (Option Value) :=
  let parts := (Text.split '.' path).filter (· ≠ "")
  if Text.trim path = "" then .error (mappingError "Input mapping path must not be empty.")
  else if !Text.startsWith "$." path then
    .error (mappingError s!"Input mapping path must start with '$.' — got: {path}")
  else if parts.length > maxInputMappingDepth + 1 then
    .error (mappingError
      s!"Input mapping path depth {parts.length - 1} exceeds maximum {maxInputMappingDepth}: {path}")
  else match parts.tail with
    | [] => .ok (some (.object context))
    | nodeId :: fields => .ok ((Json.get nodeId context).bind (navigate fields))

def resolveElement (context : Fields) : Value → Except MappingError Value
  | .string path => return (← resolve path context).getD .null
  | other => .ok other

def resolveParam (context : Fields) : Value → Except MappingError Value
  | .array items => return .array (← items.mapM (resolveElement context))
  | element => resolveElement context element

/-- The parameters in the order of the mapping, up to one that has no value. -/
def mapParams (context : Fields) : Fields → Fields → Except MappingError Fields
  | [], out => .ok out
  | (name, element) :: rest, out => do
    let resolved ← resolveParam context element
    mapParams context rest (Json.insert name resolved out)

def buildParams (inputMapping : Option Fields) (context : Fields) : Except MappingError Value :=
  return .object (← mapParams context (inputMapping.getD []) [])

end Nps.Nop

namespace Nps.Nop
open Json (Value Fields)

class CharClasses where
  isAlphabetic : Char → Bool
  isNumeric : Char → Bool
  asciiAlphabetic : ∀ c : Char, c.toNat < 128 → isAlphabetic c = c.isAlpha
  asciiNumeric : ∀ c : Char, c.toNat < 128 → isNumeric c = c.isDigit

abbrev CharClasses.ascii : CharClasses := ⟨Char.isAlpha, Char.isDigit, fun _ _ => rfl, fun _ _ => rfl⟩

structure ConditionError where
  message : String
deriving DecidableEq

def conditionError (message expression : String) : ConditionError :=
  ⟨s!"{message}  Expression: «{expression}»"⟩

inductive Fault where
  | refused (e : ConditionError)
  | panicked
  /-- The fuel given was not enough. -/
  | endless
deriving DecidableEq

abbrev Evaluating := Except Fault

namespace Condition

def refuse {α : Type} (message expression : String) : Evaluating α :=
  .error (.refused (conditionError message expression))

inductive TokenKind where
  | dollarPath | number | str | true | false | null
  | gt | gte | lt | lte | eq | neq | and | or | not | lParen | rParen | eof
deriving DecidableEq

structure Token where
  kind : TokenKind
  raw : String
deriving DecidableEq

section Tokenizer
variable (chars : List Char)

def charAt (i : Nat) : Evaluating Char :=
  match chars[i]? with
  | some c => .ok c
  | none => .error .panicked

def slice (first last : Nat) : Evaluating String :=
  if first ≤ last ∧ last ≤ chars.length then .ok (String.ofList ((chars.take last).drop first))
  else .error .panicked

def follows (i : Nat) (c : Char) : Bool := chars[i + 1]? == some c

def skipWhile (kind : Char → Bool) (i : Nat) : Nat := i + ((chars.drop i).takeWhile kind).length

def oneChar (c : Char) : Option TokenKind :=
  if c = '>' then some .gt
  else if c = '<' then some .lt
  else if c = '!' then some .not
  else if c = '(' then some .lParen
  else if c = ')' then some .rParen
  else none

def twoChars (c : Char) : Option (Char × TokenKind) :=
  if c = '>' then some ('=', .gte)
  else if c = '<' then some ('=', .lte)
  else if c = '=' then some ('=', .eq)
  else if c = '!' then some ('=', .neq)
  else if c = '&' then some ('&', .and)
  else if c = '|' then some ('|', .or)
  else none

def keyword (input word : String) : Evaluating Token :=
  if word = "true" then .ok ⟨.true, "true"⟩
  else if word = "false" then .ok ⟨.false, "false"⟩
  else if word = "null" then .ok ⟨.null, "null"⟩
  else refuse s!"Unknown token '{word}'." input

variable [CharClasses]

def isAlphanumeric (c : Char) : Bool := CharClasses.isAlphabetic c || CharClasses.isNumeric c

def pathChar (c : Char) : Bool := isAlphanumeric c || c == '_' || c == '.' || c == '$'

/-- The token at a position, none for white space, and the position after it. -/
def tokenAt (input : String) (i : Nat) : Evaluating (Option Token × Nat) := do
  let c ← charAt chars i
  let operator := (twoChars c).filter fun two => follows chars i two.1
  if Text.isWhitespace c then return (none, i + 1)
  else if c = '$' ∧ follows chars i '.' then
    let stop := skipWhile chars pathChar i
    return (some ⟨.dollarPath, ← slice chars i stop⟩, stop)
  else if c = '"' then
    -- an unterminated literal ends where the text does
    let stop := skipWhile chars (· ≠ '"') (i + 1)
    return (some ⟨.str, ← slice chars (i + 1) stop⟩, stop + 1)
  else if c.isDigit ∨ c = '-' ∧ (chars[i + 1]?.map Char.isDigit).getD false then
    let start := if c = '-' then i + 1 else i
    let stop := skipWhile chars (fun d => d.isDigit || d == '.') start
    return (some ⟨.number, ← slice chars i stop⟩, stop)
  else match operator with
  | some (second, kind) => return (some ⟨kind, String.ofList [c, second]⟩, i + 2)
  | none =>
    match oneChar c with
    | some kind => return (some ⟨kind, String.ofList [c]⟩, i + 1)
    | none =>
      if CharClasses.isAlphabetic c then
        let stop := skipWhile chars isAlphanumeric i
        return (some (← keyword input (← slice chars i stop)), stop)
      else refuse s!"Unexpected character '{c}' at position {i}." input

def tokensFrom (input : String) : (fuel : Nat) → (i : Nat) → Evaluating (List Token)
  | 0, _ => .error .endless
  | fuel + 1, i =>
    if i < chars.length then do
      let (token, next) ← tokenAt chars input i
      return token.toList ++ (← tokensFrom input fuel next)
    else .ok [⟨.eof, ""⟩]

end Tokenizer

/-- Every token takes at least one character. -/
def tokenize [CharClasses] (input : String) : Evaluating (List Token) :=
  tokensFrom input.toList input (input.toList.length + 1) 0

inductive Val where
  | num (number : ℚ)
  | str (text : String)
  | bool (truth : Bool)
  | null
deriving DecidableEq

def isComparisonOp (kind : TokenKind) : Bool :=
  kind ∈ [TokenKind.gt, .gte, .lt, .lte, .eq, .neq]

def asTruthy : Val → Bool
  | .bool truth => truth
  | .num number => number ≠ 0
  | .str text => text ≠ ""
  | .null => false

def compare (lhs : Val) (op : TokenKind) (rhs : Val) : Bool :=
  match op, lhs, rhs with
  | .eq, _, _ => lhs = rhs
  | .neq, _, _ => lhs ≠ rhs
  | .gt, .num l, .num r => l > r
  | .gte, .num l, .num r => l ≥ r
  | .lt, .num l, .num r => l < r
  | .lte, .num l, .num r => l ≤ r
  | .gt, .str l, .str r => l.toList > r.toList
  | .gte, .str l, .str r => ¬ l.toList < r.toList
  | .lt, .str l, .str r => l.toList < r.toList
  | .lte, .str l, .str r => ¬ l.toList > r.toList
  | _, _, _ => false

/-- `str::parse::<f64>` of a token that begins like a number. -/
def parseNumber (raw : String) : Option ℚ :=
  if raw.toList.count '.' ≤ 1 then some (Binary64.ofRat (Json.decimal raw.toList)) else none

/-- Objects and arrays are compared by their text. -/
def valOf : Option Value → Val
  | none => .null
  | some .null => .null
  | some (.number n) => .num n.asF64
  | some (.string text) => .str text
  | some (.bool truth) => .bool truth
  | some other => .str other.text

def resolvePath (context : Fields) (path : String) : Evaluating Val :=
  match resolve path context with
  | .ok element => .ok (valOf element)
  | .error e => refuse e.message path

section Parser
variable (tokens : List Token) (context : Fields)

def current (pos : Nat) : Evaluating Token :=
  match tokens[pos]? with
  | some token => .ok token
  | none => .error .panicked

def parseValue (pos : Nat) : Evaluating (Val × Nat) := do
  let token ← current tokens pos
  match token.kind with
  | .dollarPath => return (← resolvePath context token.raw, pos + 1)
  | .number =>
    match parseNumber token.raw with
    | some number => return (.num number, pos + 1)
    | none => refuse s!"Invalid number '{token.raw}'." ""
  | .str => return (.str token.raw, pos + 1)
  | .true => return (.bool true, pos + 1)
  | .false => return (.bool false, pos + 1)
  | .null => return (.null, pos + 1)
  | _ => refuse s!"Expected a value, got '{token.raw}'." ""

def parseOperands (pos : Nat) : Evaluating (Bool × Nat) := do
  let (lhs, pos) ← parseValue tokens context pos
  let op := (← current tokens pos).kind
  if isComparisonOp op then
    let (rhs, pos) ← parseValue tokens context (pos + 1)
    return (compare lhs op rhs, pos)
  else return (asTruthy lhs, pos)

mutual
def parseOrExpr : (fuel : Nat) → (pos : Nat) → Evaluating (Bool × Nat)
  | 0, _ => .error .endless
  | fuel + 1, pos => do
    let (left, pos) ← parseAndExpr fuel pos
    parseOrRest fuel left pos

/-- Both sides are always read. -/
def parseOrRest : (fuel : Nat) → (left : Bool) → (pos : Nat) → Evaluating (Bool × Nat)
  | 0, _, _ => .error .endless
  | fuel + 1, left, pos => do
    if (← current tokens pos).kind = .or then
      let (right, pos) ← parseAndExpr fuel (pos + 1)
      parseOrRest fuel (left || right) pos
    else return (left, pos)

def parseAndExpr : (fuel : Nat) → (pos : Nat) → Evaluating (Bool × Nat)
  | 0, _ => .error .endless
  | fuel + 1, pos => do
    let (left, pos) ← parseNotExpr fuel pos
    parseAndRest fuel left pos

def parseAndRest : (fuel : Nat) → (left : Bool) → (pos : Nat) → Evaluating (Bool × Nat)
  | 0, _, _ => .error .endless
  | fuel + 1, left, pos => do
    if (← current tokens pos).kind = .and then
      let (right, pos) ← parseNotExpr fuel (pos + 1)
      parseAndRest fuel (left && right) pos
    else return (left, pos)

def parseNotExpr : (fuel : Nat) → (pos : Nat) → Evaluating (Bool × Nat)
  | 0, _ => .error .endless
  | fuel + 1, pos => do
    if (← current tokens pos).kind = .not then
      let (truth, pos) ← parseNotExpr fuel (pos + 1)
      return (!truth, pos)
    else parseComparison fuel pos

def parseComparison : (fuel : Nat) → (pos : Nat) → Evaluating (Bool × Nat)
  | 0, _ => .error .endless
  | fuel + 1, pos => do
    let kind := (← current tokens pos).kind
    if kind = .lParen then
      let (inner, pos) ← parseOrExpr fuel (pos + 1)
      if (← current tokens pos).kind = .rParen then return (inner, pos + 1)
      else refuse "Expected ')'." ""
    else if kind = .true then return (true, pos + 1)
    else if kind = .false then return (false, pos + 1)
    else parseOperands tokens context pos
end

end Parser

/-- The truth of a condition; what follows a complete condition is not looked at. -/
def evaluate [CharClasses] (condition : String) (context : Fields) : Evaluating Bool :=
  let trimmed := Text.trim condition
  if trimmed = "" then .ok true
  else do
    let tokens ← tokenize trimmed
    -- between two tokens no more than four rules are entered
    let (truth, _) ← parseOrExpr tokens context (4 * tokens.length + 4) 0
    return truth

end Condition
end Nps.Nop
