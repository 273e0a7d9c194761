import Mathlib.Data.List.ReduceOption
import NpsSdk.Nwp.SqlQuery

/-! The condition that a filter stands for, with its values in place, and the translation
as the writing down of that condition. -/
namespace Nps.Nwp
open Json (Value Fields)
open Outcome
open Sql (Condition Operator Connective)

section Field
variable (field : MemoryNodeField)

def planIn (negate : Bool) (value : Value) : Except NwpFilterError Condition :=
  match value.asArray with
  | none => .error (filterError "$in/$nin requires an array value.")
  | some items =>
    if items.isEmpty then .ok (.constant negate)
    else .ok (.among field.resolvedColumnName negate (.list (items.map extractValue)))

def planBetween (value : Value) : Except NwpFilterError Condition :=
  match value.asArray with
  | some [low, high] =>
    .ok (.between field.resolvedColumnName (extractValue low) (extractValue high))
  | _ => .error (filterError "$between requires an array of exactly two values [low, high].")

def planSimple (op : String) (value : Value) : Except NwpFilterError Condition :=
  match simpleOperator op with
  | none => .error (filterError s!"Unknown filter operator '{op}' on field '{field.name}'.")
  | some operator =>
    .ok (.compare field.resolvedColumnName operator (boundOperand operator value))

def planOperator (op : String) (value : Value) : Except NwpFilterError Condition :=
  if op = "$in" then planIn field false value
  else if op = "$nin" then planIn field true value
  else if op = "$between" then planBetween field value
  else planSimple field op value

def planOperators : Fields → Except NwpFilterError (List Condition)
  | [] => .ok []
  | (op, value) :: rest => do
    let part ← planOperator field op value
    return part :: (← planOperators rest)

/-- One condition stands for itself, and several, or none, for a group. -/
def groupUnless : List Condition → Condition
  | [part] => part
  | parts => .group .and parts

def planFieldCondition (condition : Value) : Except NwpFilterError Condition :=
  match condition.asObject with
  | none => .error (filterError
      ("Field '" ++ field.name ++ "' condition must be an object (e.g. \x7b\"$eq\": value\x7d)."))
  | some obj => (planOperators field obj).map groupUnless

end Field

/-- Join what conditions there are. -/
def joinConditions (connective : Connective) (conditions : List (Option Condition)) :
    Option Condition :=
  match conditions.reduceOption with
  | [] => none
  | [condition] => some condition
  | conditions => some (.group connective conditions)

section Schema
variable (schema : MemoryNodeSchema)

def planNamed (name : String) (value : Value) : Except NwpFilterError (Option Condition) := do
  let field ← validateField schema name
  (planFieldCondition field value).map some

mutual
/-- The condition of a filter, or none when it has no condition at all. -/
def plan : Value → Except NwpFilterError (Option Condition)
  | .object entries => (planEntries entries).map (joinConditions .and)
  | _ => .error (filterError "Filter condition must be an object.")

def planEntries : List (String × Value) → Except NwpFilterError (List (Option Condition))
  | [] => .ok []
  | (name, value) :: rest => do
    let clause ← (if Text.startsWith "$" name then planLogical name value
      else planNamed schema name value : Except NwpFilterError (Option Condition))
    return clause :: (← planEntries rest)

def planLogical (op : String) : Value → Except NwpFilterError (Option Condition)
  | .array items => do
    let connective ← logicalConnective op
    (planItems items).map (joinConditions connective)
  | _ => .error (filterError s!"Logical operator '{op}' requires an array value.")

def planItems : List Value → Except NwpFilterError (List (Option Condition))
  | [] => .ok []
  | filter :: rest => do
    let part ← plan filter
    return part :: (← planItems rest)
end

end Schema

def Translator.extend (t : Translator) (values : List Sql.Value) : Translator where
  paramIndex := t.paramIndex + values.length
  params := t.params ++ Sql.numbered paramName t.paramIndex values

theorem Translator.extend_nil (t : Translator) : t.extend [] = t := by
  simp [extend, Sql.numbered]

theorem Translator.extend_append (t : Translator) (values more : List Sql.Value) :
    t.extend (values ++ more) = (t.extend values).extend more := by
  simp [extend, Sql.numbered_append, Nat.add_assoc]

/-- The translation writes what the plan comes to from the next parameter on, and fails
where the plan does. -/
def Writes {α β : Type} (building : Translating α) (planned : Except NwpFilterError β)
    (text : Nat → β → α) (operands : β → List Sql.Value) : Prop :=
  ∀ t : Translator,
    building t = planned.map fun result => (text t.paramIndex result, t.extend (operands result))

def eachText {α β : Type} (text : Nat → β → α) (operands : β → List Sql.Value) (start : Nat) :
    List β → List α
  | [] => []
  | result :: rest =>
    text start result :: eachText text operands (start + (operands result).length) rest

namespace Writes
variable {α β γ δ : Type} {building : Translating α} {planned : Except NwpFilterError β}
  {text : Nat → β → α} {operands : β → List Sql.Value}

theorem error (e : NwpFilterError) :
    Writes (throw e : Translating α) (.error e) text operands := fun _ => rfl

theorem nil : Writes (pure [] : Translating (List α)) (.ok [])
    (eachText text operands) (List.flatMap operands) := by
  intro t
  exact congrArg (fun after => Except.ok ([], after)) t.extend_nil.symm

theorem cons {buildings : Translating (List α)} {plans : Except NwpFilterError (List β)}
    (first : Writes building planned text operands)
    (others : Writes buildings plans (eachText text operands) (List.flatMap operands)) :
    Writes (do let part ← building; return part :: (← buildings))
      (do let part ← planned; return part :: (← plans))
      (eachText text operands) (List.flatMap operands) := by
  intro t
  change (building t >>= fun part => buildings part.2 >>= fun rest =>
    Except.ok (part.1 :: rest.1, rest.2)) = _
  rw [first t]
  cases planned with
  | error e => rfl
  | ok part =>
    change (buildings (t.extend (operands part)) >>= _) = _
    rw [others]
    cases plans with
    | error e => rfl
    | ok rest =>
      change Except.ok (_, (t.extend _).extend _) = Except.ok (_, t.extend (_ ++ _))
      rw [t.extend_append]
      rfl

theorem map {write : α → γ} {result : β → δ} {text' : Nat → δ → γ}
    {operands' : δ → List Sql.Value} (inner : Writes building planned text operands)
    (texts : ∀ start value, planned = .ok value →
      write (text start value) = text' start (result value))
    (values : ∀ value, operands' (result value) = operands value) :
    Writes (do return write (← building)) (planned.map result) text' operands' := by
  intro t
  change (building t >>= fun part => Except.ok (write part.1, part.2)) = _
  rw [inner t]
  cases planned with
  | error e => rfl
  | ok value =>
    change Except.ok (write (text _ value), t.extend (operands value)) =
      Except.ok (text' _ (result value), t.extend (operands' (result value)))
    rw [texts _ _ rfl, values]

theorem lifted {found : Except NwpFilterError γ} {next : γ → Translating α}
    {follow : γ → Except NwpFilterError β}
    (writes : ∀ value, found = .ok value → Writes (next value) (follow value) text operands) :
    Writes (do next (← (found : Except _ _))) (found >>= follow) text operands := by
  intro t
  cases found with
  | error e => rfl
  | ok value => exact writes value rfl t

end Writes

def conditionText (start : Nat) (condition : Condition) : Sql.Text :=
  condition.text paramName start

def clauseText (start : Nat) : Option Condition → Sql.Text
  | none => []
  | some condition => condition.text paramName start

def clauseOperands : Option Condition → List Sql.Value
  | none => []
  | some condition => condition.operands

section Field
variable {field : MemoryNodeField}

theorem addParam_writes {condition : Condition} {value : Sql.Value} {text : String → Sql.Text}
    (operands : condition.operands = [value])
    (same : ∀ start, text (paramName start) = condition.text paramName start) :
    Writes (do return text (← addParam value)) (.ok condition) conditionText Condition.operands := by
  intro t
  change Except.ok (text (paramName t.paramIndex), _) = Except.ok (conditionText _ condition, _)
  rw [same, operands]
  rfl

theorem buildSimple_writes (op : String) (value : Value) :
    Writes (buildSimple field op value) (planSimple field op value)
      conditionText Condition.operands := by
  unfold buildSimple planSimple
  cases simpleOperator op with
  | none => exact .error _
  | some operator => exact addParam_writes rfl fun _ => rfl

theorem buildIn_writes (negate : Bool) (value : Value) :
    Writes (buildIn field negate value) (planIn field negate value)
      conditionText Condition.operands := by
  unfold buildIn planIn
  cases value.asArray with
  | none => exact .error _
  | some items =>
    dsimp only
    split
    · intro t
      exact congrArg (fun after => Except.ok (_, after)) t.extend_nil.symm
    · exact addParam_writes rfl fun _ => rfl

theorem buildBetween_writes (value : Value) :
    Writes (buildBetween field value) (planBetween field value)
      conditionText Condition.operands := by
  unfold buildBetween planBetween
  rcases value.asArray with _ | _ | ⟨low, _ | ⟨high, _ | _⟩⟩
  · exact .error _
  · exact .error _
  · exact .error _
  · intro t
    change Except.ok (_, _) = Except.ok (_, _)
    simp [Translator.extend, Sql.numbered, conditionText, Condition.text, Condition.operands]
  · exact .error _

theorem buildOperator_writes (op : String) (value : Value) :
    Writes (buildOperator field op value) (planOperator field op value)
      conditionText Condition.operands := by
  unfold buildOperator planOperator
  split_ifs
  · exact buildIn_writes false value
  · exact buildIn_writes true value
  · exact buildBetween_writes value
  · exact buildSimple_writes op value

theorem buildOperators_writes (ops : Fields) :
    Writes (buildOperators field ops) (planOperators field ops)
      (eachText conditionText Condition.operands) (List.flatMap Condition.operands) := by
  induction ops with
  | nil => exact .nil
  | cons entry rest ih => exact (buildOperator_writes entry.1 entry.2).cons ih

theorem eachText_conditions (start : Nat) (conditions : List Condition) :
    eachText conditionText Condition.operands start conditions =
      Sql.textsOf paramName start conditions := by
  induction conditions generalizing start with
  | nil => rfl
  | cons condition rest ih => rw [eachText, Sql.textsOf, ih, conditionText]

theorem operandsOf_flatMap (conditions : List Condition) :
    Sql.operandsOf conditions = conditions.flatMap Condition.operands := by
  induction conditions with
  | nil => rfl
  | cons condition rest ih => rw [Sql.operandsOf, ih, List.flatMap_cons]

def groupTexts : List Sql.Text → Sql.Text
  | [part] => part
  | parts => Sql.groupText .and parts

theorem groupTexts_conditions (start : Nat) (conditions : List Condition) :
    groupTexts (Sql.textsOf paramName start conditions) =
      conditionText start (groupUnless conditions) := by
  rcases conditions with _ | ⟨first, _ | ⟨second, rest⟩⟩ <;> rfl

theorem groupUnless_operands (conditions : List Condition) :
    (groupUnless conditions).operands = conditions.flatMap Condition.operands := by
  rw [← operandsOf_flatMap]
  rcases conditions with _ | ⟨first, _ | ⟨second, rest⟩⟩
  · rfl
  · exact (List.append_nil _).symm
  · rfl

theorem buildFieldCondition_writes (condition : Value) :
    Writes (buildFieldCondition field condition) (planFieldCondition field condition)
      conditionText Condition.operands := by
  unfold buildFieldCondition planFieldCondition
  cases condition.asObject with
  | none => exact .error _
  | some obj =>
    have texts : ∀ start conditions, planOperators field obj = .ok conditions →
        groupTexts (eachText conditionText Condition.operands start conditions) =
          conditionText start (groupUnless conditions) := fun start conditions _ => by
      rw [eachText_conditions, groupTexts_conditions]
    have writes := (buildOperators_writes obj).map texts groupUnless_operands
    intro t
    rw [← writes t]
    change (buildOperators field obj t >>= _) = (buildOperators field obj t >>= _)
    refine congrArg _ (funext fun result => ?_)
    obtain ⟨parts, after⟩ := result
    rcases parts with _ | ⟨first, _ | ⟨second, rest⟩⟩ <;> rfl

end Field

section Joining
variable (connective : Connective) (start : Nat) (clauses : List (Option Condition))

theorem eachText_clauses : (eachText clauseText clauseOperands start clauses).filter
    (fun clause => !clause.isEmpty) = Sql.textsOf paramName start clauses.reduceOption := by
  induction clauses generalizing start with
  | nil => rfl
  | cons clause rest ih =>
    cases clause with
    | none => exact ih start
    | some condition =>
      rw [eachText, List.filter_cons_of_pos, ih, List.reduceOption_cons_of_some]
      · rfl
      · simpa [clauseText] using condition.text_ne_nil start

theorem clauseOperands_reduce : clauses.flatMap clauseOperands =
    clauses.reduceOption.flatMap Condition.operands := by
  induction clauses with
  | nil => rfl
  | cons clause rest ih =>
    cases clause with
    | none => exact ih
    | some condition =>
      rw [List.flatMap_cons, ih, List.reduceOption_cons_of_some, List.flatMap_cons]
      rfl

theorem joinClauses_clauses : joinClauses connective (eachText clauseText clauseOperands start clauses) =
    clauseText start (joinConditions connective clauses) := by
  rw [joinClauses, eachText_clauses, joinConditions]
  rcases clauses.reduceOption with _ | ⟨first, _ | ⟨second, rest⟩⟩ <;> rfl

theorem joinConditions_operands : clauseOperands (joinConditions connective clauses) =
    clauses.flatMap clauseOperands := by
  rw [clauseOperands_reduce, ← operandsOf_flatMap, joinConditions]
  rcases clauses.reduceOption with _ | ⟨first, _ | ⟨second, rest⟩⟩
  · rfl
  · exact (List.append_nil _).symm
  · rfl

end Joining

section Filters
variable {schema : MemoryNodeSchema}

theorem buildNamed_writes (name : String) (value : Value) :
    Writes (buildNamed schema name value) (planNamed schema name value)
      clauseText clauseOperands := by
  refine .lifted fun field _ => ?_
  intro t
  rw [buildFieldCondition_writes value t]
  cases planFieldCondition field value with
  | error e => rfl
  | ok condition => rfl

mutual
theorem buildObject_writes : ∀ filter : Value,
    Writes (buildObject schema filter) (plan schema filter) clauseText clauseOperands
  | .object entries =>
    (buildEntries_writes entries).map (fun start clauses _ => joinClauses_clauses .and start clauses)
      (joinConditions_operands .and)
  | .null => .error _
  | .bool _ => .error _
  | .number _ => .error _
  | .string _ => .error _
  | .array _ => .error _

theorem buildEntries_writes : ∀ entries : List (String × Value),
    Writes (buildEntries schema entries) (planEntries schema entries)
      (eachText clauseText clauseOperands) (List.flatMap clauseOperands)
  | [] => .nil
  | (name, value) :: rest => by
    have first : Writes (if Text.startsWith "$" name then buildLogical schema name value
        else buildNamed schema name value) (if Text.startsWith "$" name then planLogical schema name value
        else planNamed schema name value) clauseText clauseOperands := by
      split
      · exact buildLogical_writes name value
      · exact buildNamed_writes name value
    exact first.cons (buildEntries_writes rest)

theorem buildLogical_writes (op : String) : ∀ value : Value,
    Writes (buildLogical schema op value) (planLogical schema op value) clauseText clauseOperands
  | .array items => by
    refine .lifted fun connective _ => ?_
    exact (buildItems_writes items).map
      (fun start clauses _ => joinClauses_clauses connective start clauses)
      (joinConditions_operands connective)
  | .null => .error _
  | .bool _ => .error _
  | .number _ => .error _
  | .string _ => .error _
  | .object _ => .error _

theorem buildItems_writes : ∀ items : List Value,
    Writes (buildItems schema items) (planItems schema items)
      (eachText clauseText clauseOperands) (List.flatMap clauseOperands)
  | [] => .nil
  | filter :: rest => (buildObject_writes filter).cons (buildItems_writes rest)
end

def planFilter (schema : MemoryNodeSchema) :
    Option Value → Except NwpFilterError (Option Condition)
  | none => .ok none
  | some .null => .ok none
  | some filter => plan schema filter

/-- The translation of a filter is the condition it plans, written with numbered parameters. -/
theorem translate_eq (filter : Option Value) :
    translate schema filter = (planFilter schema filter).map fun clause =>
      (clauseText 0 clause, Sql.numbered paramName 0 (clauseOperands clause)) := by
  have written (filter : Value) : (do
      let built ← (buildObject schema filter).run {}
      return (built.1, built.2.params) : Except NwpFilterError _) =
        (plan schema filter).map fun clause =>
          (clauseText 0 clause, Sql.numbered paramName 0 (clauseOperands clause)) := by
    change (buildObject schema filter {} >>= _) = _
    rw [buildObject_writes filter {}]
    cases plan schema filter with
    | error e => rfl
    | ok clause => rfl
  cases filter with
  | none => rfl
  | some filter =>
    cases filter with
    | null => rfl
    | bool truth => exact written _
    | number n => exact written _
    | string text => exact written _
    | array items => exact written _
    | object entries => exact written _

end Filters
end Nps.Nwp
