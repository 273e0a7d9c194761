import NpsSdk.Nwp.FilterPlan

/-! What a generated query promises whatever a client sends: its text depends on the shape
of the request alone, every value is bound to a placeholder of its own, and the condition is
well formed unless a field has a condition without operators. -/
namespace Nps.Nwp
open Json (Value Fields)
open Outcome
open Sql (Condition Operator Connective placeholders)

/-- Of an operand only the length of a list is kept. -/
def operandSkeleton : Value → Value
  | .array items => .array (items.map fun _ => .null)
  | _ => .null

def conditionSkeleton : Value → Value
  | .object ops => .object (ops.map fun entry => (entry.1, operandSkeleton entry.2))
  | _ => .null

mutual
/-- The filter with its operators, field names and list lengths, and no value of the client. -/
def skeleton : Value → Value
  | .object entries => .object (entriesSkeleton entries)
  | _ => .null

def entriesSkeleton : List (String × Value) → List (String × Value)
  | [] => []
  | (name, value) :: rest =>
    (name, if Text.startsWith "$" name then logicalSkeleton value else conditionSkeleton value) ::
      entriesSkeleton rest

def logicalSkeleton : Value → Value
  | .array items => .array (itemsSkeleton items)
  | _ => .null

def itemsSkeleton : List Value → List Value
  | [] => []
  | filter :: rest => skeleton filter :: itemsSkeleton rest
end

structure Skeleton where
  filter : Option Value
  fields : Option (List String)
  /-- The fields to order by, and which of them descend. -/
  order : List (String × Bool)

def QueryFrame.skeleton (frame : QueryFrame) : Skeleton where
  filter := frame.filter.map Nwp.skeleton
  fields := frame.fields
  order := (orderClauses frame.order).map fun clause => (clause.field, descending clause.dir)

def shaped (planned : Except NwpFilterError (Option Condition)) :
    Except NwpFilterError (Option Condition) :=
  planned.map (Option.map Condition.shape)

section Skeletons
variable {field : MemoryNodeField}

theorem asArray_operandSkeleton (value : Value) :
    (operandSkeleton value).asArray = value.asArray.map fun items => items.map fun _ => .null := by
  cases value <;> rfl

theorem planOperator_skeleton (op : String) (value : Value) :
    (planOperator field op (operandSkeleton value)).map Condition.shape =
      (planOperator field op value).map Condition.shape := by
  unfold planOperator planIn planBetween planSimple
  rw [asArray_operandSkeleton]
  split_ifs
  · rcases value.asArray with _ | _ | _ <;> rfl
  · rcases value.asArray with _ | _ | _ <;> rfl
  · rcases value.asArray with _ | _ | ⟨low, _ | ⟨high, _ | _⟩⟩ <;> rfl
  · cases simpleOperator op <;> rfl

theorem map_bind_congr {α β γ δ σ : Type} {shape : α → σ} {x y : Except NwpFilterError α}
    {f : α → Except NwpFilterError β} {g : α → Except NwpFilterError γ}
    {out : β → δ} {out' : γ → δ} (same : x.map shape = y.map shape)
    (next : ∀ a b, shape a = shape b → (f a).map out = (g b).map out') :
    (x >>= f).map out = (y >>= g).map out' := by
  cases x with
  | error e =>
    cases y with
    | error e' =>
      cases same
      rfl
    | ok b => cases same
  | ok a =>
    cases y with
    | error e' => cases same
    | ok b => exact next a b (Except.ok.inj same)

theorem map_through {α β δ σ : Type} {shape : α → σ} {f : α → β} {out : β → δ} {through : σ → δ}
    (commutes : ∀ a, out (f a) = through (shape a)) {x y : Except NwpFilterError α}
    (same : x.map shape = y.map shape) : (x.map f).map out = (y.map f).map out := by
  have factors (x : Except NwpFilterError α) : (x.map f).map out = (x.map shape).map through := by
    cases x with
    | error e => rfl
    | ok a => exact congrArg Except.ok (commutes a)
  rw [factors x, factors y, same]

theorem planOperators_skeleton (ops : Fields) :
    (planOperators field (ops.map fun entry => (entry.1, operandSkeleton entry.2))).map Sql.shapes =
      (planOperators field ops).map Sql.shapes := by
  induction ops with
  | nil => rfl
  | cons entry rest ih =>
    obtain ⟨op, value⟩ := entry
    refine map_bind_congr (planOperator_skeleton op value) fun a b same => ?_
    refine map_bind_congr ih fun as bs others => ?_
    change Except.ok (a.shape :: Sql.shapes as) = Except.ok (b.shape :: Sql.shapes bs)
    rw [same, others]

theorem groupUnless_shape (conditions : List Condition) :
    (groupUnless conditions).shape = groupUnless (Sql.shapes conditions) := by
  rcases conditions with _ | ⟨first, _ | ⟨second, rest⟩⟩ <;> rfl

theorem planFieldCondition_skeleton (condition : Value) :
    (planFieldCondition field (conditionSkeleton condition)).map Condition.shape =
      (planFieldCondition field condition).map Condition.shape := by
  cases condition with
  | object ops =>
    exact map_through groupUnless_shape (planOperators_skeleton ops)
  | null => rfl
  | bool truth => rfl
  | number n => rfl
  | string text => rfl
  | array items => rfl

theorem shapes_eq_map (conditions : List Condition) :
    Sql.shapes conditions = conditions.map Condition.shape := by
  induction conditions with
  | nil => rfl
  | cons condition rest ih => rw [Sql.shapes, ih, List.map_cons]

def clauseShapes : List (Option Condition) → List (Option Condition) :=
  List.map (Option.map Condition.shape)

theorem joinConditions_shape (connective : Connective) (clauses : List (Option Condition)) :
    (joinConditions connective clauses).map Condition.shape =
      joinConditions connective (clauseShapes clauses) := by
  unfold joinConditions clauseShapes
  rw [List.reduceOption_map]
  rcases clauses.reduceOption with _ | ⟨first, _ | ⟨second, rest⟩⟩
  · rfl
  · rfl
  · simp only [Option.map_some, Condition.shape, shapes_eq_map, List.map_cons]

variable {schema : MemoryNodeSchema}

theorem planNamed_skeleton (name : String) (condition : Value) :
    shaped (planNamed schema name (conditionSkeleton condition)) =
      shaped (planNamed schema name condition) := by
  unfold planNamed
  cases validateField schema name with
  | error e => rfl
  | ok field =>
    have commutes (c : Condition) : (some c).map Condition.shape = some c.shape := rfl
    exact map_through commutes (planFieldCondition_skeleton condition)

mutual
/-- What is planned for a filter and for its skeleton differs in the operands only. -/
theorem plan_skeleton : ∀ filter : Value,
    shaped (plan schema (skeleton filter)) = shaped (plan schema filter)
  | .object entries => map_through (joinConditions_shape .and) (planEntries_skeleton entries)
  | .null => rfl
  | .bool _ => rfl
  | .number _ => rfl
  | .string _ => rfl
  | .array _ => rfl

theorem planEntries_skeleton : ∀ entries : List (String × Value),
    (planEntries schema (entriesSkeleton entries)).map clauseShapes =
      (planEntries schema entries).map clauseShapes
  | [] => rfl
  | (name, value) :: rest => by
    have first : shaped (if Text.startsWith "$" name then
          planLogical schema name (if Text.startsWith "$" name then logicalSkeleton value
            else conditionSkeleton value)
        else planNamed schema name (if Text.startsWith "$" name then logicalSkeleton value
            else conditionSkeleton value)) =
        shaped (if Text.startsWith "$" name then planLogical schema name value
          else planNamed schema name value) := by
      split
      · exact planLogical_skeleton name value
      · exact planNamed_skeleton name value
    refine map_bind_congr first fun a b same => ?_
    refine map_bind_congr (planEntries_skeleton rest) fun as bs others => ?_
    change Except.ok (a.map Condition.shape :: clauseShapes as) =
      Except.ok (b.map Condition.shape :: clauseShapes bs)
    rw [same, others]

theorem planLogical_skeleton (op : String) : ∀ value : Value,
    shaped (planLogical schema op (logicalSkeleton value)) = shaped (planLogical schema op value)
  | .array items => by
    cases found : logicalConnective op with
    | error e => simp only [logicalSkeleton, planLogical, found, error_bind]
    | ok connective =>
      simp only [logicalSkeleton, planLogical, found, ok_bind]
      exact map_through (joinConditions_shape connective) (planItems_skeleton items)
  | .null => rfl
  | .bool _ => rfl
  | .number _ => rfl
  | .string _ => rfl
  | .object _ => rfl

theorem planItems_skeleton : ∀ items : List Value,
    (planItems schema (itemsSkeleton items)).map clauseShapes =
      (planItems schema items).map clauseShapes
  | [] => rfl
  | filter :: rest => by
    refine map_bind_congr (plan_skeleton filter) fun a b same => ?_
    refine map_bind_congr (planItems_skeleton rest) fun as bs others => ?_
    change Except.ok (a.map Condition.shape :: clauseShapes as) =
      Except.ok (b.map Condition.shape :: clauseShapes bs)
    rw [same, others]
end

theorem clauseText_shape (start : Nat) (clause : Option Condition) :
    clauseText start (clause.map Condition.shape) = clauseText start clause := by
  cases clause with
  | none => rfl
  | some condition => exact condition.shape_text start

theorem translate_ok {filter : Option Value} {text : Sql.Text} {params : List Sql.Param}
    (built : translate schema filter = .ok (text, params)) :
    ∃ clause, planFilter schema filter = .ok clause ∧ text = clauseText 0 clause ∧
      params = Sql.numbered paramName 0 (clauseOperands clause) := by
  rw [translate_eq] at built
  cases planned : planFilter schema filter with
  | error e =>
    rw [planned] at built
    cases built
  | ok clause =>
    rw [planned] at built
    cases built
    exact ⟨clause, rfl, rfl, rfl⟩

theorem planFilter_skeleton {filter : Option Value} {clause : Option Condition}
    (planned : planFilter schema filter = .ok clause) :
    shaped (planFilter schema (filter.map skeleton)) = shaped (.ok clause) := by
  rw [← planned]
  cases filter with
  | none => rfl
  | some filter =>
    cases filter with
    | null => rfl
    | object entries => exact plan_skeleton (.object entries)
    | bool truth => cases planned
    | number n => cases planned
    | string text => cases planned
    | array items => cases planned

theorem translate_skeleton {filter other : Option Value} {text text' : Sql.Text}
    {params params' : List Sql.Param} (same : other.map skeleton = filter.map skeleton)
    (built : translate schema filter = .ok (text, params))
    (built' : translate schema other = .ok (text', params')) : text' = text := by
  obtain ⟨clause, planned, rfl, -⟩ := translate_ok built
  obtain ⟨clause', planned', rfl, -⟩ := translate_ok built'
  have shapes := (planFilter_skeleton planned').symm.trans
    ((congrArg (fun filter => shaped (planFilter schema filter)) same).trans
      (planFilter_skeleton planned))
  have alike : clause'.map Condition.shape = clause.map Condition.shape := Except.ok.inj shapes
  rw [← clauseText_shape 0 clause, ← alike, clauseText_shape]

end Skeletons

/-- The values of one operator, in the order of its placeholders. -/
def operatorOperands (op : String) (value : Value) : List Sql.Value :=
  if op = "$in" ∨ op = "$nin" then
    match value.asArray with
    | some (first :: rest) => [.list ((first :: rest).map extractValue)]
    | _ => []
  else if op = "$between" then (value.asArray.getD []).map extractValue
  else (simpleOperator op).toList.map (boundOperand · value)

def conditionOperands : Value → List Sql.Value
  | .object ops => ops.flatMap fun entry => operatorOperands entry.1 entry.2
  | _ => []

mutual
def filterOperands : Value → List Sql.Value
  | .object entries => entriesOperands entries
  | _ => []

def entriesOperands : List (String × Value) → List Sql.Value
  | [] => []
  | (name, value) :: rest =>
    (if Text.startsWith "$" name then logicalOperands value else conditionOperands value) ++
      entriesOperands rest

def logicalOperands : Value → List Sql.Value
  | .array items => itemsOperands items
  | _ => []

def itemsOperands : List Value → List Sql.Value
  | [] => []
  | filter :: rest => filterOperands filter ++ itemsOperands rest
end

def noOperators : Value → Bool
  | .object [] => true
  | _ => false

mutual
/-- Some field in the filter has a condition without operators. -/
def hasEmptyCondition : Value → Bool
  | .object entries => entriesHaveEmpty entries
  | _ => false

def entriesHaveEmpty : List (String × Value) → Bool
  | [] => false
  | (name, value) :: rest =>
    (if Text.startsWith "$" name then logicalHasEmpty value else noOperators value) ||
      entriesHaveEmpty rest

def logicalHasEmpty : Value → Bool
  | .array items => itemsHaveEmpty items
  | _ => false

def itemsHaveEmpty : List Value → Bool
  | [] => false
  | filter :: rest => hasEmptyCondition filter || itemsHaveEmpty rest
end

structure Plans (conditions : List Condition) (operands : List Sql.Value) (empty : Bool) : Prop where
  operands : conditions.flatMap Condition.operands = operands
  paired : ∀ condition ∈ conditions, condition.Paired
  grouped : (∀ condition ∈ conditions, condition.Grouped) ↔ empty = false

namespace Plans
variable {conditions more : List Condition} {operands values : List Sql.Value}
  {empty other : Bool}

theorem nil : Plans [] [] false := ⟨rfl, nofun, by simp⟩

theorem append (plans : Plans conditions operands empty) (others : Plans more values other) :
    Plans (conditions ++ more) (operands ++ values) (empty || other) where
  operands := by rw [List.flatMap_append, plans.operands, others.operands]
  paired := List.forall_mem_append.mpr ⟨plans.paired, others.paired⟩
  grouped := by
    rw [List.forall_mem_append, plans.grouped, others.grouped, Bool.or_eq_false_iff]

theorem group (connective : Connective) (several : 2 ≤ conditions.length)
    (plans : Plans conditions operands empty) :
    Plans [.group connective conditions] operands empty where
  operands := by
    rw [List.flatMap_singleton, Condition.operands, operandsOf_flatMap, plans.operands]
  paired := List.forall_mem_singleton.mpr ⟨by omega, Sql.allPaired_iff.mpr plans.paired⟩
  grouped := by
    rw [List.forall_mem_singleton, Condition.Grouped, Sql.allGrouped_iff, plans.grouped]
    exact and_iff_right several

theorem join (connective : Connective) {clauses : List (Option Condition)}
    (plans : Plans clauses.reduceOption operands empty) :
    Plans (joinConditions connective clauses).toList operands empty := by
  unfold joinConditions
  generalize clauses.reduceOption = conditions at plans
  rcases conditions with _ | ⟨first, _ | ⟨second, rest⟩⟩
  · exact plans
  · exact plans
  · exact plans.group connective (by simp)

end Plans

section Planned
variable {field : MemoryNodeField} {schema : MemoryNodeSchema}

theorem planOperator_plans {op : String} {value : Value} {condition : Condition}
    (planned : planOperator field op value = .ok condition) :
    Plans [condition] (operatorOperands op value) false := by
  have atom {condition : Condition} {operands : List Sql.Value}
      (same : condition.operands = operands) (paired : condition.Paired)
      (grouped : condition.Grouped) : Plans [condition] operands false :=
    ⟨by rw [List.flatMap_singleton, same], List.forall_mem_singleton.mpr paired,
      by simpa using grouped⟩
  have among {negate : Bool} (planned : planIn field negate value = .ok condition) :
      Plans [condition] (match value.asArray with
        | some (first :: rest) => [.list ((first :: rest).map extractValue)]
        | _ => []) false := by
    unfold planIn at planned
    rcases found : value.asArray with _ | _ | ⟨first, rest⟩ <;> rw [found] at planned <;>
      cases planned <;> exact atom rfl trivial trivial
  unfold planOperator at planned
  unfold operatorOperands
  by_cases isIn : op = "$in"
  · rw [if_pos isIn] at planned
    rw [if_pos (.inl isIn)]
    exact among planned
  · rw [if_neg isIn] at planned
    by_cases isNin : op = "$nin"
    · rw [if_pos isNin] at planned
      rw [if_pos (.inr isNin)]
      exact among planned
    · rw [if_neg isNin] at planned
      rw [if_neg (not_or.mpr ⟨isIn, isNin⟩)]
      by_cases isBetween : op = "$between"
      · rw [if_pos isBetween] at planned
        rw [if_pos isBetween]
        unfold planBetween at planned
        rcases found : value.asArray with _ | _ | ⟨low, _ | ⟨high, _ | _⟩⟩ <;>
          rw [found] at planned <;> cases planned
        exact atom rfl trivial trivial
      · rw [if_neg isBetween] at planned
        rw [if_neg isBetween]
        unfold planSimple at planned
        cases found : simpleOperator op <;> rw [found] at planned <;> cases planned
        exact atom rfl trivial trivial

theorem planOperators_plans {ops : Fields} {conditions : List Condition}
    (planned : planOperators field ops = .ok conditions) :
    conditions.length = ops.length ∧
      Plans conditions (ops.flatMap fun entry => operatorOperands entry.1 entry.2) false := by
  induction ops generalizing conditions with
  | nil =>
    cases planned
    exact ⟨rfl, .nil⟩
  | cons entry rest ih =>
    obtain ⟨op, value⟩ := entry
    obtain ⟨part, parts, first, others, rfl⟩ := cons_ok.mp planned
    obtain ⟨length, plans⟩ := ih others
    exact ⟨congrArg Nat.succ length, (planOperator_plans first).append plans⟩

theorem planFieldCondition_plans {condition : Value} {planned : Condition}
    (found : planFieldCondition field condition = .ok planned) :
    Plans [planned] (conditionOperands condition) (noOperators condition) := by
  cases condition with
  | object ops =>
    obtain ⟨conditions, ok, same⟩ : ∃ conditions, planOperators field ops = .ok conditions ∧
        groupUnless conditions = planned := by
      unfold planFieldCondition at found
      simp only [Value.asObject] at found
      cases ok : planOperators field ops with
      | error e =>
        rw [ok] at found
        cases found
      | ok conditions =>
        rw [ok] at found
        exact ⟨conditions, rfl, Except.ok.inj found⟩
    obtain ⟨length, plans⟩ := planOperators_plans ok
    subst same
    rcases conditions with _ | ⟨first, _ | ⟨second, rest⟩⟩
    · rw [List.eq_nil_of_length_eq_zero length.symm]
      refine ⟨rfl, List.forall_mem_singleton.mpr ⟨by decide, trivial⟩, ?_⟩
      simp [groupUnless, Condition.Grouped, noOperators]
    · obtain ⟨entry, rfl⟩ := List.length_eq_one_iff.mp length.symm
      exact plans
    · obtain ⟨one, two, rest', rfl⟩ : ∃ one two rest', ops = one :: two :: rest' := by
        rcases ops with _ | ⟨one, _ | ⟨two, rest'⟩⟩
        · cases length
        · cases length
        · exact ⟨one, two, rest', rfl⟩
      exact plans.group .and (by simp)
  | null => cases found
  | bool truth => cases found
  | number n => cases found
  | string text => cases found
  | array items => cases found

theorem planNamed_plans {name : String} {value : Value} {clause : Option Condition}
    (planned : planNamed schema name value = .ok clause) :
    Plans clause.toList (conditionOperands value) (noOperators value) := by
  obtain ⟨field, -, planned⟩ := bind_ok.mp planned
  cases found : planFieldCondition field value with
  | error e =>
    rw [found] at planned
    cases planned
  | ok condition =>
    rw [found] at planned
    cases planned
    exact planFieldCondition_plans found

theorem reduceOption_cons (clause : Option Condition) (rest : List (Option Condition)) :
    (clause :: rest).reduceOption = clause.toList ++ rest.reduceOption := by
  cases clause <;> rfl

mutual
theorem plan_plans : ∀ (filter : Value) {clause : Option Condition},
    plan schema filter = .ok clause →
    Plans clause.toList (filterOperands filter) (hasEmptyCondition filter)
  | .object entries, clause, planned => by
    obtain ⟨clauses, found, rfl⟩ := map_ok.mp planned
    exact (planEntries_plans entries found).join .and

theorem planEntries_plans : ∀ (entries : List (String × Value)) {clauses : List (Option Condition)},
    planEntries schema entries = .ok clauses →
    Plans clauses.reduceOption (entriesOperands entries) (entriesHaveEmpty entries)
  | [], clauses, planned => by
    cases planned
    exact .nil
  | (name, value) :: rest, clauses, planned => by
    obtain ⟨clause, others, first, later, rfl⟩ := cons_ok.mp planned
    rw [reduceOption_cons, entriesOperands, entriesHaveEmpty]
    refine Plans.append ?_ (planEntries_plans rest later)
    split at first <;> rename_i logical
    · rw [if_pos logical, if_pos logical]
      exact planLogical_plans name value first
    · rw [if_neg logical, if_neg logical]
      exact planNamed_plans first

theorem planLogical_plans (op : String) : ∀ (value : Value) {clause : Option Condition},
    planLogical schema op value = .ok clause →
    Plans clause.toList (logicalOperands value) (logicalHasEmpty value)
  | .array items, clause, planned => by
    obtain ⟨connective, -, planned⟩ := bind_ok.mp planned
    obtain ⟨clauses, found, rfl⟩ := map_ok.mp planned
    exact (planItems_plans items found).join connective

theorem planItems_plans : ∀ (items : List Value) {clauses : List (Option Condition)},
    planItems schema items = .ok clauses →
    Plans clauses.reduceOption (itemsOperands items) (itemsHaveEmpty items)
  | [], clauses, planned => by
    cases planned
    exact .nil
  | filter :: rest, clauses, planned => by
    obtain ⟨clause, others, first, later, rfl⟩ := cons_ok.mp planned
    rw [reduceOption_cons, itemsOperands, itemsHaveEmpty]
    exact (plan_plans filter first).append (planItems_plans rest later)
end

end Planned

theorem paramName_injective : Function.Injective paramName := by
  intro i j same
  have texts : "p".toList ++ (toString i).toList = "p".toList ++ (toString j).toList := by
    rw [← String.toList_append, ← String.toList_append]
    exact congrArg String.toList same
  have digits := List.append_cancel_left texts
  rw [Nat.toString_eq_repr, Nat.toString_eq_repr, Nat.repr, Nat.repr, String.toList_ofList,
    String.toList_ofList] at digits
  exact Json.toDigits_injective digits

theorem paramName_ne {name : String} (reserved : name.toList.head? = some '_') (i : Nat) :
    paramName i ≠ name := by
  rintro rfl
  rw [paramName, String.toList_append] at reserved
  cases reserved

section Queries
variable {schema : MemoryNodeSchema} {dialect : DatabaseDialect} {options : MemoryNodeOptions}

theorem placeholders_commaList {texts : List Sql.Text} (none : ∀ text ∈ texts, placeholders text = []) :
    placeholders (commaList texts) = [] := by
  rw [commaList, Sql.placeholders_intercalate rfl, List.flatten_eq_nil_iff]
  rintro names member
  obtain ⟨text, inside, rfl⟩ := List.mem_map.mp member
  exact none text inside

theorem selectColumn_placeholders (field : MemoryNodeField) : placeholders (selectColumn field) = [] := by
  unfold selectColumn
  split <;> rfl

theorem buildSelectList_placeholders {fields : Option (List String)} {text : Sql.Text}
    (built : buildSelectList schema fields = .ok text) : placeholders text = [] := by
  have all : placeholders (allColumns schema) = [] := by
    refine placeholders_commaList fun text member => ?_
    obtain ⟨field, -, rfl⟩ := List.mem_map.mp member
    rfl
  unfold buildSelectList at built
  split at built
  · cases built
    exact all
  · cases built
    exact all
  · obtain ⟨columns, -, same⟩ := bind_ok.mp built
    cases same
    refine placeholders_commaList fun text member => ?_
    obtain ⟨field, -, rfl⟩ := List.mem_map.mp member
    exact selectColumn_placeholders field

theorem orderFields_placeholders : ∀ {clauses : List OrderClause} {texts : List Sql.Text},
    clauses.mapM (orderField schema) = .ok texts → ∀ text ∈ texts, placeholders text = []
  | [], texts, built => by
    cases built
    exact nofun
  | clause :: rest, texts, built => by
    rw [List.mapM_cons] at built
    obtain ⟨first, others, found, later, rfl⟩ := cons_ok.mp built
    obtain ⟨field, -, same⟩ := bind_ok.mp found
    cases same
    exact List.forall_mem_cons.mpr ⟨rfl, orderFields_placeholders later⟩

theorem orderText_placeholders {order : Option Value} {text : Sql.Text}
    (built : orderText schema order = .ok text) : placeholders text = [] := by
  unfold orderText at built
  split at built
  · cases built
    rfl
  · obtain ⟨texts, ordered, same⟩ := bind_ok.mp built
    cases same
    exact placeholders_commaList (orderFields_placeholders ordered)

theorem orderFields_congr : ∀ {clauses others : List OrderClause},
    others.map (fun clause => (clause.field, descending clause.dir)) =
      clauses.map (fun clause => (clause.field, descending clause.dir)) →
    others.mapM (orderField schema) = clauses.mapM (orderField schema)
  | [], [], _ => rfl
  | clause :: rest, other :: others, same => by
    obtain ⟨first, later⟩ := List.cons.inj same
    obtain ⟨name, direction⟩ := Prod.mk.inj first
    rw [List.mapM_cons, List.mapM_cons, orderFields_congr later, orderField, orderField, name, direction]

theorem orderText_congr {order other : Option Value}
    (same : (orderClauses other).map (fun clause => (clause.field, descending clause.dir)) =
      (orderClauses order).map fun clause => (clause.field, descending clause.dir)) :
    orderText schema other = orderText schema order := by
  unfold orderText
  generalize orderClauses other = others at same
  generalize orderClauses order = clauses at same
  cases clauses with
  | nil =>
    cases others with
    | nil => rfl
    | cons => cases same
  | cons clause rest =>
    cases others with
    | nil => cases same
    | cons other others =>
      change buildOrderBy schema _ = buildOrderBy schema _
      rw [buildOrderBy, buildOrderBy, orderFields_congr same]

theorem planFilter_plans {filter : Option Value} {clause : Option Condition}
    (planned : planFilter schema filter = .ok clause) :
    Plans clause.toList ((filter.map filterOperands).getD [])
      ((filter.map hasEmptyCondition).getD false) := by
  cases filter with
  | none =>
    cases planned
    exact .nil
  | some filter =>
    cases filter with
    | null =>
      cases planned
      exact .nil
    | object entries => exact plan_plans (.object entries) planned
    | bool truth => cases planned
    | number n => cases planned
    | string text => cases planned
    | array items => cases planned

theorem placeholders_whereText (condition : Sql.Text) :
    placeholders (whereText condition) = placeholders condition := by
  unfold whereText
  split
  · rename_i empty
    rw [List.isEmpty_iff.mp empty]
  · rfl

theorem placeholders_clauseText (start : Nat) (clause : Option Condition) :
    placeholders (clauseText start clause) =
      (List.range' start (clauseOperands clause).length).map paramName := by
  cases clause with
  | none => rfl
  | some condition => exact condition.placeholders_text start

theorem placeholders_pageText (dialect : DatabaseDialect) :
    (placeholders (pageText dialect)).Perm ["_limit", "_offset"] := by
  cases dialect with
  | sqlServer => exact .swap ..
  | postgreSql => exact .refl _

theorem denotes_iff {clause : Option Condition} (more : List Sql.Param)
    (paired : ∀ condition ∈ clause, condition.Paired) :
    (clauseText 0 clause = [] ∨
      ∃ denoted, Sql.Denotes (Sql.numbered paramName 0 (clauseOperands clause) ++ more)
        (clauseText 0 clause) denoted) ↔ ∀ condition ∈ clause, condition.Grouped := by
  cases clause with
  | none => simp [clauseText]
  | some condition =>
    simp only [clauseText, clauseOperands, Option.mem_some_iff, forall_eq']
    constructor
    · rintro (empty | ⟨denoted, grouped, name, same, -⟩)
      · exact absurd empty (condition.text_ne_nil 0)
      · have filled : Sql.Filled (condition.text paramName 0) := by
          rw [same]
          exact (denoted.closed 0 grouped).filled
        exact condition.grouped_of_filled 0 (paired condition rfl) filled
    · exact fun grouped => .inr ⟨condition, Sql.denotes_numbered paramName_injective more grouped⟩

variable [Nip.Serde]

theorem buildSelect_ok {frame : QueryFrame} {text : Sql.Text} {params : List Sql.Param}
    (built : buildSelect schema dialect frame options = .ok (text, params)) :
    ∃ select clause order, buildSelectList schema frame.fields = .ok select ∧
      planFilter schema frame.filter = .ok clause ∧ orderText schema frame.order = .ok order ∧
      text = [.raw "SELECT "] ++ select ++ [.raw " FROM ", .identifier schema.tableName] ++
        whereText (clauseText 0 clause) ++ [.raw " ORDER BY "] ++ order ++ pageText dialect ∧
      params = Sql.numbered paramName 0 (clauseOperands clause) ++
        [⟨"_limit", .int (pageLimit frame options)⟩, ⟨"_offset", .int (decodeCursor frame.cursor)⟩] := by
  obtain ⟨select, selected, built⟩ := bind_ok.mp built
  obtain ⟨⟨condition, bound⟩, translated, built⟩ := bind_ok.mp built
  obtain ⟨order, ordered, same⟩ := bind_ok.mp built
  cases same
  obtain ⟨clause, planned, rfl, rfl⟩ := translate_ok translated
  exact ⟨select, clause, order, selected, planned, ordered, rfl, rfl⟩

/-- What is promised of a query that is built. -/
structure Parameterized (schema : MemoryNodeSchema) (dialect : DatabaseDialect)
    (options : MemoryNodeOptions) (frame : QueryFrame) (text : Sql.Text)
    (params : List Sql.Param) : Prop where
  /-- The text is that of every request with the same skeleton. -/
  skeleton : ∀ {other : QueryFrame} {text' : Sql.Text} {params' : List Sql.Param},
    other.skeleton = frame.skeleton →
    buildSelect schema dialect other options = .ok (text', params') → text' = text
  /-- Placeholders and parameters are the same names. -/
  bound : (placeholders text).Perm (params.map Sql.Param.name)
  distinct : (params.map Sql.Param.name).Nodup
  values : params = Sql.numbered paramName 0 ((frame.filter.map filterOperands).getD []) ++
    [⟨"_limit", .int (pageLimit frame options)⟩, ⟨"_offset", .int (decodeCursor frame.cursor)⟩]
  wellFormed : ∀ {condition : Sql.Text} {filterParams : List Sql.Param},
    translate schema frame.filter = .ok (condition, filterParams) → condition = [] ∨
      ∃ denoted, Sql.Denotes params condition denoted

variable {frame : QueryFrame} {text : Sql.Text} {params : List Sql.Param}

theorem buildSelect_bound (built : buildSelect schema dialect frame options = .ok (text, params)) :
    (placeholders text).Perm (params.map Sql.Param.name) := by
  obtain ⟨select, clause, order, selected, -, ordered, rfl, rfl⟩ := buildSelect_ok built
  have words (word : String) : placeholders [.raw word] = [] := rfl
  have table (word name : String) : placeholders [.raw word, .identifier name] = [] := rfl
  simp only [Sql.placeholders_append, buildSelectList_placeholders selected, words, table,
    orderText_placeholders ordered, placeholders_whereText, placeholders_clauseText,
    List.map_append, Sql.numbered_names, List.append_nil, List.nil_append, List.map_cons,
    List.map_nil]
  exact (placeholders_pageText dialect).append_left _

theorem buildSelect_distinct (built : buildSelect schema dialect frame options = .ok (text, params)) :
    (params.map Sql.Param.name).Nodup := by
  obtain ⟨select, clause, order, -, -, -, -, rfl⟩ := buildSelect_ok built
  rw [List.map_append, Sql.numbered_names]
  refine List.Nodup.append ((List.nodup_range' 1 Nat.one_pos).map paramName_injective) ?_ ?_
  · change ["_limit", "_offset"].Nodup
    decide
  · intro name member reserved
    obtain ⟨i, -, rfl⟩ := List.mem_map.mp member
    simp only [List.map_cons, List.map_nil, List.mem_cons, List.not_mem_nil, or_false] at reserved
    rcases reserved with same | same
    · exact paramName_ne rfl i same
    · exact paramName_ne rfl i same

theorem buildSelect_skeleton {other : QueryFrame} {text' : Sql.Text} {params' : List Sql.Param}
    (built : buildSelect schema dialect frame options = .ok (text, params))
    (same : other.skeleton = frame.skeleton)
    (built' : buildSelect schema dialect other options = .ok (text', params')) : text' = text := by
  obtain ⟨filters, fields, orders⟩ := Skeleton.mk.inj same
  obtain ⟨select, clause, order, selected, planned, ordered, rfl, -⟩ := buildSelect_ok built
  obtain ⟨select', clause', order', selected', planned', ordered', rfl, -⟩ := buildSelect_ok built'
  have selects : select' = select := by
    rw [fields] at selected'
    exact Except.ok.inj (selected'.symm.trans selected)
  have orders : order' = order := by
    rw [orderText_congr orders] at ordered'
    exact Except.ok.inj (ordered'.symm.trans ordered)
  have translated : translate schema frame.filter =
      .ok (clauseText 0 clause, Sql.numbered paramName 0 (clauseOperands clause)) := by
    rw [translate_eq, planned]
    rfl
  have translated' : translate schema other.filter =
      .ok (clauseText 0 clause', Sql.numbered paramName 0 (clauseOperands clause')) := by
    rw [translate_eq, planned']
    rfl
  have conditions := translate_skeleton filters translated translated'
  rw [selects, orders, conditions]

/-- Every query keeps what is promised, except that its condition is well formed exactly when
no field has a condition without operators. -/
theorem parameterized_iff (built : buildSelect schema dialect frame options = .ok (text, params)) :
    Parameterized schema dialect options frame text params ↔
      (frame.filter.map hasEmptyCondition).getD false = false := by
  obtain ⟨select, clause, order, -, planned, -, -, bound⟩ := buildSelect_ok built
  have plans := planFilter_plans planned
  have operands : clauseOperands clause = (frame.filter.map filterOperands).getD [] := by
    rw [← plans.operands]
    cases clause with
    | none => rfl
    | some condition => exact (List.flatMap_singleton ..).symm
  have translated : translate schema frame.filter =
      .ok (clauseText 0 clause, Sql.numbered paramName 0 (clauseOperands clause)) := by
    rw [translate_eq, planned]
    rfl
  have paired : ∀ condition ∈ clause, condition.Paired := fun condition member =>
    plans.paired condition (Option.mem_toList.mpr member)
  have denoted := denotes_iff [⟨"_limit", .int (pageLimit frame options)⟩,
    ⟨"_offset", .int (decodeCursor frame.cursor)⟩] paired
  rw [← bound] at denoted
  have grouped : (∀ condition ∈ clause, condition.Grouped) ↔
      (frame.filter.map hasEmptyCondition).getD false = false := by
    rw [← plans.grouped]
    simp only [Option.mem_toList, Option.mem_def]
  rw [← grouped, ← denoted]
  constructor
  · exact fun promised => promised.wellFormed translated
  · intro holds
    refine ⟨fun same built' => buildSelect_skeleton built same built', buildSelect_bound built,
      buildSelect_distinct built, operands ▸ bound, fun found => ?_⟩
    cases translated.symm.trans found
    exact holds

end Queries

-- One table, asked once for a name and once with no operator on the name.
namespace Products

scoped instance serde : Nip.Serde := .table []

def schema : MemoryNodeSchema where
  tableName := "products"
  primaryKey := "id"
  fields := [⟨"id", "number", false, none⟩, ⟨"name", "string", false, none⟩]

def options : MemoryNodeOptions := { schema }

def frame (condition : Value) : QueryFrame := { filter := some (.object [("name", condition)]) }

theorem parameterized_eq : ∃ text params,
    buildSelect schema .postgreSql (frame (.object [("$eq", .string "widget")])) options =
      .ok (text, params) ∧ Parameterized schema .postgreSql options
        (frame (.object [("$eq", .string "widget")])) text params :=
  ⟨_, _, rfl, (parameterized_iff rfl).mpr rfl⟩

/-- The condition is `()`. -/
theorem empty_parentheses : ∃ text params,
    buildSelect schema .postgreSql (frame (.object [])) options = .ok (text, params) ∧
      translate schema (frame (.object [])).filter = .ok ([.raw "(", .raw ")"], []) ∧
      ¬ Parameterized schema .postgreSql options (frame (.object [])) text params := by
  have translated : translate schema (frame (.object [])).filter =
      .ok ([.raw "(", .raw ")"], []) := rfl
  have paired : ∀ condition ∈ some (Condition.group .and []), condition.Paired := by
    simp [Condition.Paired, Sql.AllPaired]
  refine ⟨_, _, rfl, translated, fun promised => ?_⟩
  have grouped := (denotes_iff _ paired).mp (promised.wellFormed translated)
  exact absurd (grouped _ rfl).1 (by decide)

end Products
end Nps.Nwp
