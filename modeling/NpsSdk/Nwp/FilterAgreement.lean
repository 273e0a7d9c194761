import NpsSdk.Lib.SqlTruth
import NpsSdk.Nwp.SqlBinding

/-! The two readings of a filter, on a row in memory and as a SQL condition: where names are
spelled as in the schema, conditions are not empty and operands are of the type of the row's
values, they agree. -/
namespace Nps.Nwp
open Json (Value Fields Number)
open Outcome
open Sql (Condition Operator Connective)

/-- The table holds the row's values, none of them null, in the columns of the schema. -/
def Stores (schema : MemoryNodeSchema) (row : MemoryNodeRow) (table : Sql.Row) : Prop :=
  ∀ field ∈ schema.fields, ∃ value, Json.get field.name row = some value ∧ value ≠ .null ∧
    table field.resolvedColumnName = extractValue value

/-- Scalars of one type that 64 bits hold. -/
inductive Alike : Value → Value → Prop where
  | string (s t : String) : Alike (.string s) (.string t)
  | bool (p q : Bool) : Alike (.bool p) (.bool q)
  | int {n m : Int} : -2 ^ 63 ≤ n ∧ n < 2 ^ 63 → -2 ^ 63 ≤ m ∧ m < 2 ^ 63 →
      Alike (.number (.int n)) (.number (.int m))
  | float (a b : Json.FloatLiteral) : Alike (.number (.float a)) (.number (.float b))

inductive Precise : Value → Prop where
  | int {n : Int} : |n| < 2 ^ 53 → Precise (.number (.int n))
  | float (a : Json.FloatLiteral) : Precise (.number (.float a))

/-- The operand is one that the operator is meant for on such a value. -/
def Typed (actual : Value) (op : String) (expected : Value) : Prop :=
  match op with
  | "$eq" => expected = .null ∨ Alike actual expected
  | "$ne" => Alike actual expected
  | "$lt" | "$lte" | "$gt" | "$gte" => Precise actual ∧ Precise expected
  | "$in" => ∀ item ∈ expected.asArray.getD [], item = .null ∨ Alike actual item
  | "$nin" => ∀ item ∈ expected.asArray.getD [], Alike actual item
  | "$contains" => ∃ text part, actual = .string text ∧ expected = .string part ∧
      ∀ c ∈ part.toList, Sql.plainChar c
  | _ => True

section Operands
variable {actual expected : Value}

theorem extractValue_int {n : Int} (fits : -2 ^ 63 ≤ n ∧ n < 2 ^ 63) :
    extractValue (.number (.int n)) = .int n := by
  rw [extractValue, Number.asI64, if_pos fits]

theorem Alike.same_comm (alike : Alike actual expected) :
    actual.same expected = expected.same actual := by
  cases alike with
  | string s t => simp [Value.same, eq_comm]
  | bool p q => simp [Value.same, eq_comm]
  | int left right => simp [Value.same, Number.same, eq_comm]
  | float a b => simp [Value.same, Number.same, eq_comm]

theorem Alike.holds (alike : Alike actual expected) :
    Operator.eq.holds (extractValue actual) (extractValue expected) = actual.same expected ∧
      Operator.ne.holds (extractValue actual) (extractValue expected) = !actual.same expected := by
  cases alike with
  | string s t =>
    exact Sql.holds_of_order rfl ((cmp_eq_eq_iff s t).trans (by simp [Value.same]))
  | bool p q =>
    exact Sql.holds_of_order rfl ((cmp_eq_eq_iff p q).trans (by simp [Value.same]))
  | @int n m left right =>
    rw [extractValue_int left, extractValue_int right]
    exact Sql.holds_of_order (Sql.order_number rfl rfl)
      ((cmp_eq_eq_iff _ _).trans (by simp [Value.same, Number.same]))
  | float a b =>
    exact Sql.holds_of_order (Sql.order_number rfl rfl)
      ((cmp_eq_eq_iff _ _).trans (by simp [Value.same, Number.same]))

theorem Precise.number (precise : Precise actual) :
    ∃ q, actual.asF64 = some q ∧ (extractValue actual).number? = some q := by
  cases precise with
  | @int n small =>
    have bounds := abs_lt.mp small
    rw [extractValue_int ⟨by omega, by omega⟩]
    exact ⟨n, congrArg some (Binary64.round_int small), rfl⟩
  | float a => exact ⟨_, rfl, rfl⟩

theorem same_null (nonNull : actual ≠ .null) : actual.same .null = false := by
  cases actual <;> first | rfl | exact absurd rfl nonNull

theorem null_same (nonNull : actual ≠ .null) : Value.same .null actual = false := by
  cases actual <;> first | rfl | exact absurd rfl nonNull

theorem any_congr_mem {α : Type} {items : List α} {p q : α → Bool}
    (same : ∀ item ∈ items, p item = q item) : items.any p = items.any q := by
  induction items with
  | nil => rfl
  | cons item rest ih =>
    rw [List.any_cons, List.any_cons, same item (List.mem_cons_self ..),
      ih fun other member => same other (List.mem_cons_of_mem _ member)]

/-- The values of a list parameter are compared like those of the list in memory. -/
theorem any_holds {items : List Value} (nonNull : actual ≠ .null)
    (typed : ∀ item ∈ items, item = .null ∨ Alike actual item) :
    (items.map extractValue).any (Operator.eq.holds (extractValue actual)) =
      items.any (·.same actual) := by
  rw [List.any_map]
  refine any_congr_mem fun item member => ?_
  rcases typed item member with rfl | alike
  · rw [null_same nonNull]
    exact Sql.holds_null .eq _
  · exact alike.holds.1.trans alike.same_comm

theorem all_holds {items : List Value} (typed : ∀ item ∈ items, Alike actual item) :
    (items.map extractValue).all (Operator.ne.holds (extractValue actual)) =
      !items.any (·.same actual) := by
  rw [List.all_map, List.not_any_eq_all_not, List.all_eq_not_any_not, List.all_eq_not_any_not]
  refine congrArg _ (any_congr_mem fun item member => ?_)
  have alike := typed item member
  change (!Operator.ne.holds (extractValue actual) (extractValue item)) = _
  rw [alike.holds.2, alike.same_comm]

theorem contains_holds {text part : String} (plain : ∀ c ∈ part.toList, Sql.plainChar c) :
    Operator.like.holds (.text text) (.text ("%" ++ part ++ "%")) = contains text part := by
  have pattern : ("%" ++ part ++ "%").toList = '%' :: part.toList ++ ['%'] := by
    simp [String.toList_append]
  rw [Bool.eq_iff_iff]
  change Sql.likeMatches ("%" ++ part ++ "%").toList text.toList = true ↔ _
  rw [pattern, Sql.likeMatches_part plain, contains, decide_eq_true_eq]

end Operands

section Operators
variable {field : MemoryNodeField} {actual expected : Value} {table : Sql.Row}
  {condition : Condition} {b : Bool}

theorem cmpNum_eq {holds : ℚ → ℚ → Bool} {q r : ℚ} (left : actual.asF64 = some q)
    (right : expected.asF64 = some r) : cmpNum holds actual expected = holds q r := by
  simp only [cmpNum, left, right]

theorem planIn_holds {negate : Bool} (stored : table field.resolvedColumnName = extractValue actual)
    (planned : planIn field negate expected = .ok condition) :
    ∃ items, expected.asArray = some items ∧ condition.holds table =
      if negate then (items.map extractValue).all (Operator.ne.holds (extractValue actual))
      else (items.map extractValue).any (Operator.eq.holds (extractValue actual)) := by
  unfold planIn at planned
  rcases list : expected.asArray with _ | _ | ⟨first, rest⟩ <;> rw [list] at planned <;>
    cases planned
  · exact ⟨[], rfl, by cases negate <;> rfl⟩
  · refine ⟨first :: rest, rfl, ?_⟩
    rw [← stored]
    cases negate <;> rfl

/-- One operator on a typed operand means the same in memory and in SQL. -/
theorem operator_agrees {op : String} (nonNull : actual ≠ .null)
    (stored : table field.resolvedColumnName = extractValue actual)
    (typed : Typed actual op expected)
    (planned : planOperator field op expected = .ok condition)
    (matched : matchOperator actual op expected = .ok b) : condition.holds table = b := by
  unfold matchOperator at matched
  split at matched
  · cases matched
    cases planned
    rw [Condition.holds, stored]
    rcases typed with rfl | alike
    · rw [same_null nonNull]
      exact Sql.holds_null .eq _
    · exact alike.holds.1
  · cases matched
    cases planned
    rw [Condition.holds, stored]
    exact typed.holds.2
  · cases matched
    cases planned
    obtain ⟨q, left, left'⟩ := typed.1.number
    obtain ⟨r, right, right'⟩ := typed.2.number
    rw [Condition.holds, stored, cmpNum_eq left right]
    exact (Sql.lt_holds_number left' right').1
  · cases matched
    cases planned
    obtain ⟨q, left, left'⟩ := typed.1.number
    obtain ⟨r, right, right'⟩ := typed.2.number
    rw [Condition.holds, stored, cmpNum_eq left right]
    exact (Sql.gt_holds_number left' right').2
  · cases matched
    cases planned
    obtain ⟨q, left, left'⟩ := typed.1.number
    obtain ⟨r, right, right'⟩ := typed.2.number
    rw [Condition.holds, stored, cmpNum_eq left right]
    exact (Sql.gt_holds_number left' right').1
  · cases matched
    cases planned
    obtain ⟨q, left, left'⟩ := typed.1.number
    obtain ⟨r, right, right'⟩ := typed.2.number
    rw [Condition.holds, stored, cmpNum_eq left right]
    exact (Sql.lt_holds_number left' right').2
  · cases matched
    change planIn field false expected = .ok condition at planned
    obtain ⟨items, list, holds⟩ := planIn_holds stored planned
    rw [list, Option.map_some, Option.getD_some, holds]
    exact any_holds nonNull (by simpa [Typed, list] using typed)
  · cases matched
    change planIn field true expected = .ok condition at planned
    obtain ⟨items, list, holds⟩ := planIn_holds stored planned
    rw [list, Option.map_some, Option.getD_some, holds]
    exact all_holds (by simpa [Typed, list] using typed)
  · obtain ⟨text, part, rfl, rfl, plain⟩ := typed
    cases matched
    cases planned
    rw [Condition.holds, stored]
    exact contains_holds plain
  · cases matched

/-- The operators of a condition hold together in memory and in SQL. -/
theorem operators_agree (nonNull : actual ≠ .null)
    (stored : table field.resolvedColumnName = extractValue actual) :
    ∀ {ops : Fields} {conditions : List Condition} {b : Bool},
      (∀ entry ∈ ops, Typed actual entry.1 entry.2) →
      planOperators field ops = .ok conditions → matchOperators actual ops = .ok b →
      (b = true ↔ ∀ condition ∈ conditions, condition.holds table = true)
  | [], conditions, b, _, planned, matched => by
    cases planned
    cases matched
    simp
  | (op, expected) :: rest, conditions, b, typed, planned, matched => by
    obtain ⟨condition, others, first, later, rfl⟩ := cons_ok.mp planned
    obtain ⟨holds, found, matched⟩ := bind_ok.mp matched
    have here := operator_agrees nonNull stored (typed _ (List.mem_cons_self ..)) first found
    rw [List.forall_mem_cons, here]
    cases holds with
    | false =>
      cases matched
      simp
    | true =>
      rw [operators_agree nonNull stored (fun entry member =>
        typed entry (List.mem_cons_of_mem _ member)) later matched]
      simp

end Operators

mutual
/-- Nothing is asked of a field: the filter translates to no condition. -/
def vacuous : Value → Bool
  | .object entries => entriesVacuous entries
  | _ => false

def entriesVacuous : List (String × Value) → Bool
  | [] => true
  | (name, value) :: rest =>
    (Text.startsWith "$" name && logicalVacuous value) && entriesVacuous rest

def logicalVacuous : Value → Bool
  | .array items => itemsVacuous items
  | _ => false

def itemsVacuous : List Value → Bool
  | [] => true
  | filter :: rest => vacuous filter && itemsVacuous rest
end

/-- A field under the schema's own spelling, with at least one operator and typed operands. -/
def FieldComparable (schema : MemoryNodeSchema) (row : MemoryNodeRow) (name : String)
    (condition : Value) : Prop :=
  (∃ field, schema.getField name = some field ∧ field.name = name) ∧
    noOperators condition = false ∧
    ∀ entry ∈ condition.asObject.getD [], Typed ((Json.get name row).getD .null) entry.1 entry.2

/-- An alternative is offered, and all of them ask something of a field or none does. -/
def Alternatives (items : List Value) : Prop :=
  items ≠ [] ∧ ((∀ item ∈ items, vacuous item = false) ∨ itemsVacuous items = true)

section Comparability
variable (schema : MemoryNodeSchema) (row : MemoryNodeRow)

mutual
/-- The filters on which the two readings are meant to agree. -/
def Comparable : Value → Prop
  | .object entries => EntriesComparable entries
  | _ => True

def EntriesComparable : List (String × Value) → Prop
  | [] => True
  | (name, value) :: rest =>
    (if Text.startsWith "$" name then LogicalComparable name value
      else FieldComparable schema row name value) ∧ EntriesComparable rest

def LogicalComparable (op : String) : Value → Prop
  | .array items => (op = "$or" → Alternatives items) ∧ ItemsComparable items
  | _ => True

def ItemsComparable : List Value → Prop
  | [] => True
  | filter :: rest => Comparable filter ∧ ItemsComparable rest
end

end Comparability
section Planning
variable {schema : MemoryNodeSchema}

theorem joinConditions_none (connective : Connective) (clauses : List (Option Condition)) :
    joinConditions connective clauses = none ↔ clauses.reduceOption = [] := by
  unfold joinConditions
  rcases clauses.reduceOption with _ | ⟨first, _ | ⟨second, rest⟩⟩ <;> simp

mutual
theorem plan_vacuous : ∀ (filter : Value) {clause : Option Condition},
    plan schema filter = .ok clause → (clause = none ↔ vacuous filter = true)
  | .object entries, clause, planned => by
    obtain ⟨clauses, found, rfl⟩ := map_ok.mp planned
    rw [joinConditions_none]
    exact planEntries_vacuous entries found

theorem planEntries_vacuous : ∀ (entries : List (String × Value))
    {clauses : List (Option Condition)}, planEntries schema entries = .ok clauses →
    (clauses.reduceOption = [] ↔ entriesVacuous entries = true)
  | [], clauses, planned => by
    cases planned
    simp [entriesVacuous]
  | (name, value) :: rest, clauses, planned => by
    obtain ⟨clause, others, first, later, rfl⟩ := cons_ok.mp planned
    rw [reduceOption_cons, List.append_eq_nil_iff, planEntries_vacuous rest later,
      entriesVacuous, Bool.and_eq_true, Bool.and_eq_true, Option.toList_eq_nil_iff]
    refine and_congr_left fun _ => ?_
    split at first <;> rename_i logical
    · rw [planLogical_vacuous name value first]
      exact (and_iff_right logical).symm
    · obtain ⟨field, -, found⟩ := bind_ok.mp first
      obtain ⟨condition, -, rfl⟩ := map_ok.mp found
      simp [logical]

theorem planLogical_vacuous (op : String) : ∀ (value : Value) {clause : Option Condition},
    planLogical schema op value = .ok clause → (clause = none ↔ logicalVacuous value = true)
  | .array items, clause, planned => by
    obtain ⟨connective, -, planned⟩ := bind_ok.mp planned
    obtain ⟨clauses, found, rfl⟩ := map_ok.mp planned
    rw [joinConditions_none]
    exact planItems_vacuous items found

theorem planItems_vacuous : ∀ (items : List Value) {clauses : List (Option Condition)},
    planItems schema items = .ok clauses →
    (clauses.reduceOption = [] ↔ itemsVacuous items = true)
  | [], clauses, planned => by
    cases planned
    simp [itemsVacuous]
  | filter :: rest, clauses, planned => by
    obtain ⟨clause, others, first, later, rfl⟩ := cons_ok.mp planned
    rw [reduceOption_cons, List.append_eq_nil_iff, planItems_vacuous rest later, itemsVacuous,
      Bool.and_eq_true, Option.toList_eq_nil_iff, plan_vacuous filter first]
end

variable {row : MemoryNodeRow}

mutual
theorem Comparable.full : ∀ {filter : Value}, Comparable schema row filter →
    hasEmptyCondition filter = false
  | .object _, comparable => EntriesComparable.full comparable
  | .null, _ => rfl
  | .bool _, _ => rfl
  | .number _, _ => rfl
  | .string _, _ => rfl
  | .array _, _ => rfl

theorem EntriesComparable.full : ∀ {entries : List (String × Value)},
    EntriesComparable schema row entries → entriesHaveEmpty entries = false
  | [], _ => rfl
  | (name, value) :: rest, comparable => by
    rw [entriesHaveEmpty, Bool.or_eq_false_iff]
    refine ⟨?_, EntriesComparable.full comparable.2⟩
    have first := comparable.1
    split at first <;> rename_i logical
    · rw [if_pos logical]
      exact LogicalComparable.full first
    · rw [if_neg logical]
      exact first.2.1

theorem LogicalComparable.full {op : String} : ∀ {value : Value},
    LogicalComparable schema row op value → logicalHasEmpty value = false
  | .array _, comparable => ItemsComparable.full comparable.2
  | .null, _ => rfl
  | .bool _, _ => rfl
  | .number _, _ => rfl
  | .string _, _ => rfl
  | .object _, _ => rfl

theorem ItemsComparable.full : ∀ {items : List Value}, ItemsComparable schema row items →
    itemsHaveEmpty items = false
  | [], _ => rfl
  | _ :: _, comparable => by
    rw [itemsHaveEmpty, Bool.or_eq_false_iff]
    exact ⟨Comparable.full comparable.1, ItemsComparable.full comparable.2⟩
end

end Planning

def Holds (table : Sql.Row) (clause : Option Condition) : Prop :=
  ∀ condition ∈ clause, condition.holds table = true

section Agreement
variable {schema : MemoryNodeSchema} {row : MemoryNodeRow} {table : Sql.Row} {b : Bool}

theorem holds_reduce (clauses : List (Option Condition)) :
    (∀ clause ∈ clauses, Holds table clause) ↔
      ∀ condition ∈ clauses.reduceOption, condition.holds table = true := by
  constructor
  · intro all condition member
    exact all _ (List.reduceOption_mem_iff.mp member) condition rfl
  · intro all clause member condition found
    obtain rfl : clause = some condition := found
    exact all condition (List.reduceOption_mem_iff.mpr member)

theorem holds_some {condition : Condition} :
    Holds table (some condition) ↔ condition.holds table = true := by
  simp [Holds]

theorem holds_joinAnd (clauses : List (Option Condition)) :
    Holds table (joinConditions .and clauses) ↔ ∀ clause ∈ clauses, Holds table clause := by
  rw [holds_reduce, joinConditions]
  rcases clauses.reduceOption with _ | ⟨first, _ | ⟨second, rest⟩⟩
  · simp [Holds]
  · simp [holds_some]
  · rw [holds_some, Condition.holds, Sql.allHold_iff]

/-- Of clauses joined by `or` one holds, where none of them is left out. -/
theorem holds_joinOr {clauses : List (Option Condition)} (full : clauses ≠ [])
    (asked : ∀ clause ∈ clauses, clause ≠ none) :
    Holds table (joinConditions .or clauses) ↔ ∃ clause ∈ clauses, Holds table clause := by
  have reduced : (∃ clause ∈ clauses, Holds table clause) ↔
      ∃ condition ∈ clauses.reduceOption, condition.holds table = true := by
    constructor
    · rintro ⟨clause, member, holds⟩
      obtain ⟨condition, rfl⟩ := Option.ne_none_iff_exists'.mp (asked clause member)
      exact ⟨condition, List.reduceOption_mem_iff.mpr member, holds_some.mp holds⟩
    · rintro ⟨condition, member, holds⟩
      exact ⟨some condition, List.reduceOption_mem_iff.mp member, holds_some.mpr holds⟩
  have kept : clauses.reduceOption ≠ [] := by
    obtain ⟨clause, member⟩ := List.exists_mem_of_ne_nil clauses full
    obtain ⟨condition, rfl⟩ := Option.ne_none_iff_exists'.mp (asked clause member)
    exact List.ne_nil_of_mem (List.reduceOption_mem_iff.mpr member)
  rw [reduced, joinConditions]
  generalize clauses.reduceOption = conditions at kept ⊢
  rcases conditions with _ | ⟨first, _ | ⟨second, rest⟩⟩
  · exact absurd rfl kept
  · simp [holds_some]
  · rw [holds_some, Condition.holds, Sql.anyHolds_iff]

theorem holds_groupUnless (conditions : List Condition) :
    (groupUnless conditions).holds table = true ↔
      ∀ condition ∈ conditions, condition.holds table = true := by
  rcases conditions with _ | ⟨first, _ | ⟨second, rest⟩⟩
  · change (Condition.group .and []).holds table = true ↔ _
    rw [Condition.holds, Sql.allHold_iff]
  · simp [groupUnless]
  · change (Condition.group .and (first :: second :: rest)).holds table = true ↔ _
    rw [Condition.holds, Sql.allHold_iff]

/-- The condition on a field agrees with that on the value of the row. -/
theorem field_agrees (stores : Stores schema row table) {name : String} {value : Value}
    {clause : Option Condition} (comparable : FieldComparable schema row name value)
    (planned : planNamed schema name value = .ok clause)
    (matched : matchFieldCond ((Json.get name row).getD .null) value = .ok b) :
    b = true ↔ Holds table clause := by
  obtain ⟨⟨field, found, rfl⟩, -, typed⟩ := comparable
  obtain ⟨field', validated, inside⟩ := bind_ok.mp planned
  rw [validateField, found] at validated
  cases validated
  obtain ⟨condition, conditioned, rfl⟩ := map_ok.mp inside
  obtain ⟨actual, here, nonNull, stored⟩ := stores field (List.mem_of_find?_eq_some found)
  rw [here, Option.getD_some] at matched typed
  cases value with
  | object ops =>
    obtain ⟨conditions, listed, rfl⟩ := map_ok.mp conditioned
    rw [holds_some, holds_groupUnless]
    exact operators_agree nonNull stored typed listed matched
  | null => cases conditioned
  | bool truth => cases conditioned
  | number n => cases conditioned
  | string text => cases conditioned
  | array items => cases conditioned

/-- One entry of a filter in memory. -/
def matchEntry (row : MemoryNodeRow) (key : String) (cond : Value) :
    Except MemoryNodeError Bool :=
  if key = "$and" then
    match cond with
    | .array items => matchAll row items
    | _ => .error (.filterInvalid "$and requires an array.")
  else if key = "$or" then
    match cond with
    | .array items => matchAny row items
    | _ => .error (.filterInvalid "$or requires an array.")
  else matchFieldCond ((Json.get key row).getD .null) cond

theorem matchEntries_cons (key : String) (cond : Value) (rest : Fields) :
    matchEntries row ((key, cond) :: rest) = matchEntry row key cond >>= fun holds =>
      if holds then matchEntries row rest else .ok false := by
  unfold matchEntry
  conv_lhs => unfold matchEntries
  split_ifs
  · cases cond <;> rfl
  · cases cond <;> rfl
  · rfl

theorem planItems_full {items : List Value} {clauses : List (Option Condition)}
    (full : items ≠ []) (planned : planItems schema items = .ok clauses) : clauses ≠ [] := by
  cases items with
  | nil => exact absurd rfl full
  | cons filter rest =>
    obtain ⟨clause, others, -, -, rfl⟩ := cons_ok.mp planned
    exact List.cons_ne_nil _ _

theorem planItems_asked {items : List Value} {clauses : List (Option Condition)}
    (asked : ∀ item ∈ items, vacuous item = false)
    (planned : planItems schema items = .ok clauses) : ∀ clause ∈ clauses, clause ≠ none := by
  induction items generalizing clauses with
  | nil =>
    cases planned
    nofun
  | cons filter rest ih =>
    obtain ⟨clause, others, first, later, rfl⟩ := cons_ok.mp planned
    rw [List.forall_mem_cons] at asked ⊢
    refine ⟨fun none_ => ?_, ih asked.2 later⟩
    have idle := (plan_vacuous filter first).mp none_
    rw [asked.1] at idle
    cases idle

/-- Alternatives that are all asked, or of which none is, hold when one of them does. -/
theorem holds_alternatives {items : List Value} {clauses : List (Option Condition)}
    (alternatives : Alternatives items) (planned : planItems schema items = .ok clauses) :
    Holds table (joinConditions .or clauses) ↔ ∃ clause ∈ clauses, Holds table clause := by
  have full := planItems_full alternatives.1 planned
  rcases alternatives.2 with asked | idle
  · exact holds_joinOr full (planItems_asked asked planned)
  · have reduced := (planItems_vacuous items planned).mpr idle
    have holds : ∀ clause ∈ clauses, Holds table clause := by
      rw [holds_reduce, reduced]
      nofun
    obtain ⟨clause, member⟩ := List.exists_mem_of_ne_nil clauses full
    rw [(joinConditions_none .or clauses).mpr reduced]
    exact iff_of_true nofun ⟨clause, member, holds clause member⟩

mutual
theorem filter_agrees (stores : Stores schema row table) : ∀ (filter : Value)
    {clause : Option Condition} {b : Bool}, Comparable schema row filter →
    plan schema filter = .ok clause → matchFilter row filter = .ok b →
    (b = true ↔ Holds table clause)
  | .object entries, clause, b, comparable, planned, matched => by
    obtain ⟨clauses, found, rfl⟩ := map_ok.mp planned
    rw [holds_joinAnd]
    exact entries_agree stores entries comparable found matched

theorem entries_agree (stores : Stores schema row table) : ∀ (entries : List (String × Value))
    {clauses : List (Option Condition)} {b : Bool}, EntriesComparable schema row entries →
    planEntries schema entries = .ok clauses → matchEntries row entries = .ok b →
    (b = true ↔ ∀ clause ∈ clauses, Holds table clause)
  | [], clauses, b, _, planned, matched => by
    cases planned
    cases matched
    simp
  | (name, value) :: rest, clauses, b, comparable, planned, matched => by
    obtain ⟨clause, others, first, later, rfl⟩ := cons_ok.mp planned
    rw [matchEntries_cons] at matched
    obtain ⟨holds, found, matched⟩ := bind_ok.mp matched
    have here : holds = true ↔ Holds table clause := by
      have asked := comparable.1
      split at asked <;> rename_i logical
      · rw [if_pos logical] at first
        exact logical_agrees stores name value asked first found
      · rw [if_neg logical] at first
        have other {op : String} (starts : Text.startsWith "$" op = true) : name ≠ op := by
          rintro rfl
          exact logical starts
        unfold matchEntry at found
        rw [if_neg (other (by decide)), if_neg (other (by decide))] at found
        exact field_agrees stores asked first found
    rw [List.forall_mem_cons, ← here]
    cases holds with
    | false =>
      cases matched
      simp
    | true =>
      rw [entries_agree stores rest comparable.2 later matched]
      simp

theorem logical_agrees (stores : Stores schema row table) (op : String) : ∀ (value : Value)
    {clause : Option Condition} {b : Bool}, LogicalComparable schema row op value →
    planLogical schema op value = .ok clause →
    matchEntry row op value = .ok b → (b = true ↔ Holds table clause)
  | .array items, clause, b, comparable, planned, matched => by
    obtain ⟨connective, known, planned⟩ := bind_ok.mp planned
    obtain ⟨clauses, found, rfl⟩ := map_ok.mp planned
    unfold logicalConnective at known
    unfold matchEntry at matched
    by_cases isAnd : op = "$and"
    · rw [if_pos isAnd] at known matched
      cases known
      rw [holds_joinAnd]
      exact all_agree stores items comparable.2 found matched
    rw [if_neg isAnd] at known matched
    by_cases isOr : op = "$or"
    · rw [if_pos isOr] at known matched
      cases known
      rw [any_agrees stores items comparable.2 found matched]
      exact (holds_alternatives (comparable.1 isOr) found).symm
    · rw [if_neg isOr] at known
      cases known

theorem all_agree (stores : Stores schema row table) : ∀ (items : List Value)
    {clauses : List (Option Condition)} {b : Bool}, ItemsComparable schema row items →
    planItems schema items = .ok clauses → matchAll row items = .ok b →
    (b = true ↔ ∀ clause ∈ clauses, Holds table clause)
  | [], clauses, b, _, planned, matched => by
    cases planned
    cases matched
    simp
  | filter :: rest, clauses, b, comparable, planned, matched => by
    obtain ⟨clause, others, first, later, rfl⟩ := cons_ok.mp planned
    obtain ⟨holds, found, matched⟩ := bind_ok.mp matched
    have here := filter_agrees stores filter comparable.1 first found
    rw [List.forall_mem_cons, ← here]
    cases holds with
    | false =>
      cases matched
      simp
    | true =>
      rw [all_agree stores rest comparable.2 later matched]
      simp

/-- Some alternative holds in memory when the condition of one of them does. -/
theorem any_agrees (stores : Stores schema row table) : ∀ (items : List Value)
    {clauses : List (Option Condition)} {b : Bool}, ItemsComparable schema row items →
    planItems schema items = .ok clauses → matchAny row items = .ok b →
    (b = true ↔ ∃ clause ∈ clauses, Holds table clause)
  | [], clauses, b, _, planned, matched => by
    cases planned
    cases matched
    simp
  | filter :: rest, clauses, b, comparable, planned, matched => by
    obtain ⟨clause, others, first, later, rfl⟩ := cons_ok.mp planned
    obtain ⟨holds, found, matched⟩ := bind_ok.mp matched
    have here := filter_agrees stores filter comparable.1 first found
    rw [List.exists_mem_cons_iff, ← here]
    cases holds with
    | true =>
      cases matched
      simp
    | false =>
      rw [any_agrees stores rest comparable.2 later matched]
      simp
end

/-- Where the filter is comparable, it holds in memory exactly when its translation, with the
parameters bound, is true of the row. -/
theorem filters_agree (stores : Stores schema row table) {filter : Value} {text : Sql.Text}
    {params : List Sql.Param} (translated : translate schema (some filter) = .ok (text, params))
    (matched : matchFilter row filter = .ok b) (comparable : Comparable schema row filter) :
    b = true ↔ Sql.TrueOf params text table := by
  obtain ⟨clause, planned, rfl, rfl⟩ := translate_ok translated
  have isObject : ∃ entries, filter = .object entries := by
    cases filter with
    | object entries => exact ⟨entries, rfl⟩
    | null => cases matched
    | bool truth => cases matched
    | number n => cases matched
    | string text => cases matched
    | array items => cases matched
  obtain ⟨entries, rfl⟩ := isObject
  rw [filter_agrees stores (.object entries) comparable planned matched]
  cases clause with
  | none => exact iff_of_true nofun (.inl rfl)
  | some condition =>
    have grouped := (plan_plans _ planned).grouped.mpr comparable.full condition (by simp)
    have denoted := Sql.denotes_numbered paramName_injective [] grouped
    rw [List.append_nil] at denoted
    rw [holds_some]
    exact (Sql.trueOf_iff denoted (condition.text_ne_nil 0)).symm

end Agreement

-- One row, asked for either of two things and for nothing at all.
namespace Stock

def schema : MemoryNodeSchema where
  tableName := "stock"
  primaryKey := "sku"
  fields := [⟨"count", "number", false, some "qty"⟩, ⟨"sku", "string", false, none⟩]

def row : MemoryNodeRow := [("count", Json.integer 3), ("sku", .string "bolt")]

def table : Sql.Row := fun column => if column = "qty" then .int 3 else .text "bolt"

theorem stores : Stores schema row table := by
  intro field member
  simp only [schema, List.mem_cons, List.not_mem_nil, or_false] at member
  rcases member with rfl | rfl
  · exact ⟨_, rfl, by simp [Json.integer], rfl⟩
  · exact ⟨_, rfl, by simp, rfl⟩

def either : Value := .object [("$or", .array [
  .object [("sku", .object [("$contains", .string "nut")])],
  .object [("count", .object [("$gte", Json.integer 2), ("$lt", Json.integer 10)])]])]

theorem comparable_either : Comparable schema row either := by
  have small {n : Int} (bound : |n| < 2 ^ 53) : Precise (.number (.int n)) := .int bound
  have sku : FieldComparable schema row "sku" (.object [("$contains", .string "nut")]) := by
    refine ⟨⟨_, rfl, rfl⟩, rfl, ?_⟩
    simp only [Value.asObject, Option.getD_some, List.forall_mem_singleton]
    exact ⟨"bolt", "nut", rfl, rfl, by simp [Sql.plainChar]⟩
  have count : FieldComparable schema row "count"
      (.object [("$gte", Json.integer 2), ("$lt", Json.integer 10)]) := by
    refine ⟨⟨_, rfl, rfl⟩, rfl, ?_⟩
    simp only [Value.asObject, Option.getD_some, List.forall_mem_cons]
    exact ⟨⟨small (by decide), small (by decide)⟩, ⟨small (by decide), small (by decide)⟩,
      List.forall_mem_nil _⟩
  refine ⟨?_, trivial⟩
  rw [if_pos (by decide)]
  refine ⟨fun _ => ⟨List.cons_ne_nil _ _, .inl (by decide)⟩, ⟨?_, trivial⟩, ⟨?_, trivial⟩, trivial⟩
  · rw [if_neg (by decide)]
    exact sku
  · rw [if_neg (by decide)]
    exact count

theorem either_matches : matchFilter row either = .ok true := by
  decide +kernel

theorem either_agrees : ∃ text params, translate schema (some either) = .ok (text, params) ∧
    matchFilter row either = .ok true ∧ (true = true ↔ Sql.TrueOf params text table) :=
  ⟨_, _, rfl, either_matches, filters_agree stores rfl either_matches comparable_either⟩

/-- No alternative at all matches no row in memory and asks nothing in SQL. -/
theorem no_alternative : Stores schema row table ∧
    matchFilter row (.object [("$or", .array [])]) = .ok false ∧
    translate schema (some (.object [("$or", .array [])])) = .ok ([], []) ∧
    ¬ (false = true ↔ Sql.TrueOf [] [] table) :=
  ⟨stores, rfl, rfl, fun agree => Bool.false_ne_true (agree.mpr (.inl rfl))⟩

end Stock
end Nps.Nwp
