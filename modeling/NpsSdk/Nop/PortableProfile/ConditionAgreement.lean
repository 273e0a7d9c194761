import NpsSdk.Lib.Casing
import NpsSdk.Nop.ConditionMeaning
import NpsSdk.Nop.PortableProfile.Orchestration

/-! A condition that is a comparison of a path with a literal, evaluated by the orchestrator and
by the portable profile. -/
namespace Nps.Nop.PortableProfile
open Json (Value Fields)
open Condition BooleanGrammar Lexing
open Nip (Serde)

section Operators
variable {text before : List Char} {operator : String}

theorem breakOn_after {mark : Char} {marks : List Char} (free : mark ∉ before) :
    Text.breakOn (mark :: marks) (before ++ text) =
      (Text.breakOn (mark :: marks) text).map fun (b, a) => (before ++ b, a) := by
  induction before with
  | nil => simp
  | cons c rest ih =>
    obtain ⟨first, others⟩ := not_or.mp (mt List.mem_cons.mpr free)
    rw [List.cons_append, Text.breakOn, if_neg (by simp [first]), ih others, Option.map_map]
    rfl

/-- An operator that the text begins with is taken, if no other one that is listed before it
begins there. -/
theorem firstOperator_start {front back : List String} {after : List Char}
    (here : Text.breakOn operator.toList text = some ([], after))
    (others : ∀ other ∈ front, ¬ other.toList <+: text) :
    firstOperator text (front ++ operator :: back) = some (operator, [], after) := by
  induction front with
  | nil =>
    rw [List.nil_append, firstOperator, here]
    cases firstOperator text back with
    | none => rfl
    | some other => simp
  | cons other front ih =>
    have rest := ih fun name member => others name (List.mem_cons_of_mem _ member)
    rw [List.cons_append, firstOperator, rest]
    cases found : Text.breakOn other.toList text with
    | none => rfl
    | some parts =>
      obtain ⟨b, a⟩ := parts
      have split := Text.breakOn_eq_some found
      cases b with
      | nil => exact absurd ⟨a, split.symm⟩ (others other List.mem_cons_self)
      | cons c b => simp

/-- The characters that operators begin with. -/
def marks : List Char := ['=', '!', '>', '<']

theorem operator_begins (member : operator ∈ operators) :
    ∃ mark ∈ marks, ∃ rest, operator.toList = mark :: rest := by
  simp only [operators, List.mem_cons, List.not_mem_nil, or_false] at member
  rcases member with rfl | rfl | rfl | rfl | rfl | rfl
  all_goals exact ⟨_, by decide, _, rfl⟩

theorem firstOperator_after (free : ∀ mark ∈ marks, mark ∉ before) : ∀ {names : List String},
    names ⊆ operators →
    firstOperator (before ++ text) names =
      (firstOperator text names).map fun (name, b, a) => (name, before ++ b, a) := by
  intro names known
  induction names with
  | nil => rfl
  | cons name rest ih =>
    obtain ⟨member, later⟩ := List.cons_subset.mp known
    obtain ⟨mark, marked, others, spelled⟩ := operator_begins member
    rw [firstOperator, firstOperator, ih later, spelled, breakOn_after (free mark marked)]
    cases Text.breakOn (mark :: others) text with
    | none => rfl
    | some parts =>
      cases firstOperator text rest with
      | none => rfl
      | some other =>
        simp only [Option.map_some, List.length_append, Nat.add_lt_add_iff_left]
        split <;> rfl

def symbol : TokenKind → String
  | .eq => "=="
  | .neq => "!="
  | .gte => ">="
  | .lte => "<="
  | .gt => ">"
  | .lt => "<"
  | _ => ""

variable {op : Token} {word rest after : List Char} {closed : Bool}

theorem breakOn_start (word after : List Char) :
    Text.breakOn word (word ++ after) = some ([], after) := by
  cases word with
  | nil =>
    cases after <;> rfl
  | cons c word => rw [List.cons_append, Text.breakOn, if_pos (by simp)]; simp

/-- The operator that a relation is written with is the first one in what follows it. -/
theorem firstOperator_spelled [CharClasses] (relation : op.kind.role = .relation)
    (spelled : op.Spells word rest closed) (some_ : rest ≠ []) (begins : rest <+: after) :
    firstOperator (word ++ after) operators = some (symbol op.kind, [], after) := by
  have same : after.head? = rest.head? := by
    obtain ⟨more, rfl⟩ := begins
    exact List.head?_append_of_ne_nil _ some_
  have known : op.kind ∈ [TokenKind.eq, .neq, .gte, .lte, .gt, .lt] := by
    revert relation
    cases op.kind <;> decide
  simp only [List.mem_cons, List.not_mem_nil, or_false] at known
  have start {symbol : String} (front back : List String) (spelled : word = symbol.toList)
      (others : ∀ other ∈ front, ¬ other.toList <+: word ++ after) :
      firstOperator (word ++ after) (front ++ symbol :: back) = some (symbol, [], after) := by
    subst spelled
    exact firstOperator_start (breakOn_start _ _) others
  have lone (alone : rest.head? ≠ some '=') : ¬ ['='] <+: after := by
    rintro ⟨more, rfl⟩
    exact alone same.symm
  unfold Token.Spells at spelled
  rcases known with kind | kind | kind | kind | kind | kind
  all_goals rw [kind] at spelled ⊢
  · exact start [] _ spelled fun _ member => absurd member List.not_mem_nil
  · refine start ["=="] _ spelled ?_
    simp [spelled]
  · refine start ["==", "!="] _ spelled ?_
    simp [spelled]
  · refine start ["==", "!=", ">="] _ spelled ?_
    simp [spelled]
  · refine start ["==", "!=", ">=", "<="] _ spelled.1 ?_
    simpa [spelled.1] using lone spelled.2
  · refine start ["==", "!=", ">=", "<=", ">"] _ spelled.1 ?_
    simpa [spelled.1] using lone spelled.2

end Operators

theorem foldlM_field (names : List String) (value : Value) :
    names.foldlM field value = navigate names value := by
  induction names generalizing value with
  | nil => rfl
  | cons name rest ih =>
    rw [List.foldlM_cons]
    cases value with
    | object fields =>
      change (Json.get name fields).bind _ = (Json.get name fields).bind _
      exact Option.bind_congr fun value _ => ih value
    | _ => rfl

theorem split_path (rest : String) : Text.split '.' ("$." ++ rest) = "$" :: Text.split '.' rest := by
  have whole : ("$." ++ rest).toList = ['$'] ++ '.' :: rest.toList := by
    rw [String.toList_append]
    rfl
  rw [Text.split, whole, Text.splitChars_append, List.map_append]
  rfl

/-- A path without empty names leads both to the same value. -/
theorem resolvePath_eq {path : String} {results : Fields} {element : Option Value}
    (named : "" ∉ Text.split '.' path) (found : resolve path results = .ok element) :
    resolvePath (.object results) path = element := by
  have whole : (Text.split '.' path).filter (· ≠ "") = Text.split '.' path := by
    rw [List.filter_eq_self]
    exact fun part member => decide_eq_true (ne_of_mem_of_not_mem member named)
  unfold resolve at found
  simp only [whole] at found
  split_ifs at found with blank other deep
  obtain ⟨rest, stripped⟩ : ∃ rest, Text.stripPrefix? "$." path = some rest := by
    simp only [Text.startsWith, Bool.not_eq_true', Bool.not_eq_false] at other
    exact ⟨_, if_pos other⟩
  rw [resolvePath, stripped]
  rw [Text.stripPrefix?_eq_some] at stripped
  rw [stripped, split_path, List.tail_cons] at found
  simp only [bind, Option.bind]
  cases names : Text.split '.' rest with
  | nil => exact absurd (List.map_eq_nil_iff.mp names) Text.splitChars_ne_nil
  | cons nodeId fields =>
    rw [names] at found
    rw [foldlM_field, ← Except.ok.inj found]
    rfl

/-- What a literal of a condition stands for, as one evaluator and as the other has it. -/
inductive Literal : Val → Value → Prop
  | number (n : Json.Number) : Literal (.num n.asF64) (.number n)
  | string (text : String) : Literal (.str text) (.string text)
  | bool (truth : Bool) : Literal (.bool truth) (.bool truth)
  | null : Literal .null .null

/-- An array or an object that is compared with its own text. -/
def OwnText (left : Value) (literal : Val) : Prop :=
  (left.asArray.isSome ∨ left.asObject.isSome) ∧ literal = .str left.text

/-- The comparison of the portable profile. -/
def compareAs (operator : String) (left right : Value) : Option Bool :=
  match left.asF64, right.asF64 with
  | some leftNumber, some rightNumber => compareNumbers operator leftNumber rightNumber
  | _, _ => compareValues operator left right

/-- Apart from numbers, which are compared by their sizes, a value is equal to a literal for one
evaluator where it is for the other. -/
theorem valOf_same {left right : Value} {literal : Val} (same : Literal literal right)
    (apart : ¬ OwnText left literal) (number : left.asF64 = none ∨ right.asF64 = none) :
    decide (valOf (some left) = literal) = left.same right := by
  cases same with
  | number n =>
    cases left with
    | number m => simp [Value.asF64] at number
    | _ => simp [valOf, Value.same]
  | string text =>
    cases left with
    | array items =>
      have other : (Value.array items).text ≠ text := by
        rintro rfl
        exact apart ⟨.inl rfl, rfl⟩
      simpa [valOf, Value.same] using other
    | object fields =>
      have other : (Value.object fields).text ≠ text := by
        rintro rfl
        exact apart ⟨.inr rfl, rfl⟩
      simpa [valOf, Value.same] using other
    | _ => simp [valOf, Value.same]
  | bool truth => cases left <;> simp [valOf, Value.same]
  | null => cases left <;> simp [valOf, Value.same]

theorem compareAs_some {kind : TokenKind} {left right : Value} {truth : Bool}
    (number : left.asF64 = none ∨ right.asF64 = none)
    (answer : compareAs (symbol kind) left right = some truth) :
    kind = .eq ∧ truth = left.same right ∨ kind = .neq ∧ truth = !left.same right := by
  have values : compareAs (symbol kind) left right = compareValues (symbol kind) left right := by
    unfold compareAs
    rcases number with none_ | none_
    · rw [none_]
    · rw [none_]
      cases left.asF64 <;> rfl
  rw [values] at answer
  cases kind <;> simp_all [symbol, compareValues]

theorem compare_agrees {kind : TokenKind} {left right : Value} {literal : Val} {truth : Bool}
    (same : Literal literal right)
    (apart : ¬ OwnText left literal) (answer : compareAs (symbol kind) left right = some truth) :
    Condition.compare (valOf (some left)) kind literal = truth := by
  by_cases number : left.asF64 = none ∨ right.asF64 = none
  · have equal := valOf_same same apart number
    rcases compareAs_some number answer with ⟨rfl, rfl⟩ | ⟨rfl, rfl⟩
    · exact equal
    · rw [← equal, ← decide_not]
      rfl
  · rw [not_or] at number
    cases same with
    | number n =>
      cases left with
      | number m =>
        simp only [compareAs, Value.asF64] at answer
        cases kind <;> simp_all [symbol, compareNumbers, Condition.compare, valOf]
      | _ => simp [Value.asF64] at number
    | _ => simp [Value.asF64] at number

/-- What is relied on of the JSON reader: a word is what it spells, a string without escapes its
characters, and a number the double next to it. -/
structure ReadsScalars [Serde] : Prop where
  true_ : ∀ {value}, Serde.fromStr "true" = .ok value → value = .bool true
  false_ : ∀ {value}, Serde.fromStr "false" = .ok value → value = .bool false
  null_ : ∀ {value}, Serde.fromStr "null" = .ok value → value = .null
  string : ∀ {content : List Char} {value}, '"' ∉ content → '\\' ∉ content →
    Serde.fromStr (String.ofList ('"' :: (content ++ ['"']))) = .ok value →
    value = .string (String.ofList content)
  number : ∀ {text : String} {value}, text ≠ "" →
    (∀ c ∈ text.toList, numberChar c = true ∨ c = '-') → Serde.fromStr text = .ok value →
    ∃ n : Json.Number, value = .number n ∧ n.asF64 = Binary64.ofRat (Json.decimal text.toList)

/-- No letter or digit is white space. -/
def Visible [CharClasses] : Prop := ∀ c, Text.isWhitespace c = true → isAlphanumeric c = false

/-- A path without empty names is compared with a literal, and nothing else follows. A string
literal is closed and has no backslash. -/
structure Single [CharClasses] (condition : String) (path op literal : Token) : Prop where
  cut : Cut condition [path, op, literal] true
  path_ : path.kind = .dollarPath
  relation : op.kind.role = .relation
  literal_ : literal.kind ∈ [TokenKind.number, .str, .true, .false, .null]
  named : "" ∉ Text.split '.' path.raw
  plain : '\\' ∉ literal.raw.toList

theorem blank_unmarked {c : Char} (blank : Text.isWhitespace c = true) : c ∉ marks := by
  intro marked
  have visible : (marks.all fun mark => !Text.isWhitespace mark) = true := rfl
  have unseen := List.all_eq_true.mp visible c marked
  rw [blank] at unseen
  cases unseen

section Agreement
variable [CharClasses] {condition : String} {results : Fields} {path op literal : Token}

theorem pathChar_unmarked {c : Char} (inside : pathChar c = true) : c ∉ marks := by
  intro marked
  have apart : (marks.all fun mark => decide (mark.toNat < 128) && !mark.isAlpha && !mark.isDigit &&
      !(mark == '_' || mark == '.' || mark == '$')) = true := rfl
  have unnamed := List.all_eq_true.mp apart c marked
  simp only [Bool.and_eq_true, decide_eq_true_eq, Bool.not_eq_true', and_assoc] at unnamed
  obtain ⟨ascii, letter, digit, other⟩ := unnamed
  simp only [Bool.or_eq_false_iff] at other
  simp [pathChar, isAlphanumeric, CharClasses.asciiAlphabetic c ascii,
    CharClasses.asciiNumeric c ascii, letter, digit, other] at inside

theorem pathChar_visible (visible : Visible) {c : Char} (inside : pathChar c = true) :
    Text.isWhitespace c = false := by
  by_contra blank
  rw [Bool.not_eq_false] at blank
  have plain := visible c blank
  simp only [pathChar, plain, Bool.false_or, Bool.or_eq_true, beq_iff_eq] at inside
  rcases inside with (rfl | rfl) | rfl <;> exact absurd blank (by decide)

/-- A literal neither begins nor ends with white space. -/
theorem literal_ends {word rest : List Char} (spelled : literal.Spells word rest true)
    (kind : literal.kind ∈ [TokenKind.number, .str, .true, .false, .null]) :
    word ≠ [] ∧ (∀ c ∈ word.head?, Text.isWhitespace c = false) ∧
      ∀ c ∈ word.getLast?, Text.isWhitespace c = false := by
  simp only [List.mem_cons, List.not_mem_nil, or_false] at kind
  unfold Token.Spells at spelled
  rcases kind with kind | kind | kind | kind | kind
  all_goals rw [kind] at spelled
  · obtain ⟨-, some_, inside⟩ := spelled
    have visible : ∀ c ∈ word, Text.isWhitespace c = false := by
      intro c member
      rcases inside c member with digit | rfl
      · rcases Bool.or_eq_true_iff.mp digit with digit | point
        · exact (digit_plain digit).1
        · rw [eq_of_beq point]
          decide
      · decide
    exact ⟨some_, fun c member => visible c (List.mem_of_mem_head? member),
      fun c member => visible c (List.mem_of_mem_getLast? member)⟩
  · rw [spelled.2 rfl]
    refine ⟨List.cons_ne_nil _ _, ?_, ?_⟩
    · rintro c ⟨⟩
      decide
    · intro c member
      rw [← List.cons_append, List.getLast?_concat] at member
      cases member
      decide
  all_goals
    subst spelled
    refine ⟨List.cons_ne_nil _ _, ?_, ?_⟩ <;>
    · rintro c ⟨⟩
      rfl

/-- The portable profile finds the path, the operator and the literal of the comparison. -/
theorem portable_parts (visible : Visible) (single : Single condition path op literal) :
    ∃ before after word rest,
      firstOperator condition.toList operators = some (symbol op.kind, before, after) ∧
      Text.trim (String.ofList before) = path.raw ∧
      Text.trim (String.ofList after) = String.ofList word ∧ literal.Spells word rest true := by
  obtain ⟨front, back, whole, leading, trailing⟩ := Text.trim_split condition
  obtain ⟨f₁, w₁, r₁, c₁, d₁, split₁, blank₁, piece₁, others₁, both₁⟩ := single.cut.first piece_skips
  obtain ⟨f₂, w₂, r₂, c₂, d₂, split₂, blank₂, piece₂, others₂, both₂⟩ := others₁.first piece_skips
  obtain ⟨f₃, w₃, r₃, c₃, d₃, split₃, blank₃, piece₃, others₃, both₃⟩ := others₂.first piece_skips
  have blank₄ := others₃.skipped piece_skips
  have complete : c₃ = true := by
    rw [both₂, both₃] at both₁
    simp only [Bool.true_eq, Bool.and_eq_true] at both₁
    exact both₁.2.2.1
  subst complete
  have pathSpelled := piece₁.spells
  unfold Token.Spells at pathSpelled
  rw [single.path_] at pathSpelled
  obtain ⟨pathText, ⟨names, dollar⟩, inside⟩ := pathSpelled
  have literalSpelled := piece₃.spells
  obtain ⟨some_, first, last⟩ := literal_ends literalSpelled single.literal_
  have follows : r₂ ≠ [] := by simp [split₃, some_]
  have parts : condition.toList = ((front ++ f₁) ++ (w₁ ++ f₂)) ++ (w₂ ++ (r₂ ++ back)) := by
    rw [whole, split₁, split₂]
    simp only [List.append_assoc]
  have free : ∀ mark ∈ marks, mark ∉ (front ++ f₁) ++ (w₁ ++ f₂) := by
    intro mark marked member
    simp only [List.mem_append] at member
    rcases member with (member | member) | member | member
    · exact blank_unmarked (leading mark member) marked
    · exact blank_unmarked (blank₁ mark member) marked
    · exact pathChar_unmarked (inside mark member) marked
    · exact blank_unmarked (blank₂ mark member) marked
  refine ⟨(front ++ f₁) ++ (w₁ ++ f₂), r₂ ++ back, w₃, r₃, ?_, ?_, ?_, literalSpelled⟩
  · rw [parts, firstOperator_after free (List.Subset.refl _),
      firstOperator_spelled single.relation piece₂.spells follows (List.prefix_append _ _)]
    simp only [Option.map_some, List.append_nil]
  · rw [Text.trim_between ?_ blank₂ (by simp [dollar]) ?_ ?_, pathText, String.ofList_toList]
    · intro c member
      rcases List.mem_append.mp member with member | member
      · exact leading c member
      · exact blank₁ c member
    · intro c member
      exact pathChar_visible visible (inside c (List.mem_of_mem_head? member))
    · intro c member
      exact pathChar_visible visible (inside c (List.mem_of_mem_getLast? member))
  · rw [split₃, List.append_assoc, List.append_assoc, Text.trim_between blank₃ ?_ some_ first last]
    intro c member
    rcases List.mem_append.mp member with member | member
    · exact blank₄ c member
    · exact trailing c member

/-- The literal is read alike. -/
theorem literal_read [Serde] (scalars : ReadsScalars) {word rest : List Char} {value : Value}
    {meant : Val} (spelled : literal.Spells word rest true)
    (kind : literal.kind ∈ [TokenKind.number, .str, .true, .false, .null])
    (plain : '\\' ∉ literal.raw.toList)
    (read : Serde.fromStr (String.ofList word) = .ok value)
    (denotes : denoted results literal = some meant) : Literal meant value := by
  simp only [List.mem_cons, List.not_mem_nil, or_false] at kind
  unfold Token.Spells at spelled
  unfold denoted at denotes
  rcases kind with kind | kind | kind | kind | kind
  all_goals rw [kind] at spelled denotes
  · obtain ⟨rfl, some_, inside⟩ := spelled
    rw [String.ofList_toList] at read
    have nonempty : literal.raw ≠ "" := fun empty => some_ (by rw [empty]; rfl)
    obtain ⟨n, rfl, size⟩ := scalars.number nonempty inside read
    obtain ⟨q, parsed_, rfl⟩ := Option.map_eq_some_iff.mp denotes
    unfold parseNumber at parsed_
    split at parsed_
    · rw [← Option.some.inj parsed_, ← size]
      exact .number n
    · cases parsed_
  · obtain ⟨closed, text⟩ := spelled
    rw [text rfl] at read
    rw [scalars.string closed plain read, String.ofList_toList, ← Option.some.inj denotes]
    exact .string _
  · rw [spelled, String.ofList_toList] at read
    rw [scalars.true_ read, ← Option.some.inj denotes]
    exact .bool _
  · rw [spelled, String.ofList_toList] at read
    rw [scalars.false_ read, ← Option.some.inj denotes]
    exact .bool _
  · rw [spelled, String.ofList_toList] at read
    rw [scalars.null_ read, ← Option.some.inj denotes]
    exact .null

/-- The orchestrator compares the values of the path and of the literal. -/
theorem orchestrated_parts (single : Single condition path op literal) {truth : Bool}
    (answer : evaluate condition results = .ok truth) :
    ∃ element meant, resolve path.raw results = .ok element ∧
      denoted results literal = some meant ∧
      truth = Condition.compare (valOf element) op.kind meant := by
  have some_ : Text.trim condition ≠ "" := by
    intro blank
    have nothing : Cut condition [] true := by
      rw [Cut, blank]
      exact .done
    cases (cut_unique single.cut nothing).1
  rcases evaluate_cut results some_ single.cut with ⟨truth', answer', begins⟩ | ⟨-, e, refused⟩
  · obtain rfl := Except.ok.inj (answer.symm.trans answer')
    have operand : path.kind.role = .operand := by rw [single.path_]; rfl
    have led : leads path = true := by simp [leads, single.path_]
    obtain ⟨v, meant, value, value', same⟩ := begins.compared operand led single.relation
    change denoted results path = some v at value
    rw [denoted, single.path_] at value
    cases found : resolve path.raw results with
    | error e =>
      simp only [Condition.resolvePath, found] at value
      cases value
    | ok element =>
      simp only [Condition.resolvePath, found] at value
      exact ⟨element, meant, rfl, value', by rw [same, ← Option.some.inj value]; rfl⟩
  · cases answer.symm.trans refused

/-- The orchestrator and the portable profile agree on a comparison. -/
theorem conditions_agree [Serde] (scalars : ReadsScalars) (visible : Visible)
    (single : Single condition path op literal)
    (apart : ∀ left meant, resolvePath (.object results) path.raw = some left →
      denoted results literal = some meant → ¬ OwnText left meant) {truth truth' : Bool}
    (orchestrated : evaluate condition results = .ok truth)
    (portable : evaluateCondition condition results = some truth') : truth = truth' := by
  obtain ⟨element, meant, found, denotes, rfl⟩ := orchestrated_parts single orchestrated
  obtain ⟨before, after, word, rest, parts, named, literal_, spelled⟩ := portable_parts visible single
  have reached := resolvePath_eq single.named found
  unfold evaluateCondition at portable
  simp only [parts, bind, Option.bind, named, literal_, reached] at portable
  cases element with
  | none => cases portable
  | some left =>
    cases read : Serde.fromStr (String.ofList word) with
    | error e => simp [read, Except.toOption] at portable
    | ok right =>
      simp only [read, Except.toOption] at portable
      have same := literal_read scalars spelled single.literal_ single.plain read denotes
      exact compare_agrees same (apart left meant reached denotes) portable

end Agreement

scoped instance classes : CharClasses := .ascii

namespace OwnTexts

scoped instance serde : Serde := .table [("\"[]\"", .string "[]")]

def results : Fields := [("n", .object [("rows", .array [])])]

/-- The orchestrator takes an array for its text, the portable profile does not. -/
theorem rows_differ : ¬ ∀ (condition : String) (results : Fields) (truth truth' : Bool),
    evaluate condition results = .ok truth → evaluateCondition condition results = some truth' →
    truth = truth' := by
  intro agree
  have orchestrated : evaluate "$.n.rows == \"[]\"" results = .ok true := by decide +kernel
  have portable : evaluateCondition "$.n.rows == \"[]\"" results = some false := rfl
  cases agree _ results _ _ orchestrated portable

end OwnTexts

namespace Compared

scoped instance serde : Serde := .table [("true", .bool true)]

def results : Fields := [("n", .object [("done", .bool true)])]

theorem known {text : String} {value : Value} (read : Serde.fromStr text = .ok value) :
    text = "true" ∧ value = .bool true := by
  by_cases same : text = "true"
  · subst same
    cases read
    exact ⟨rfl, rfl⟩
  · simp [Serde.fromStr, List.lookup_cons, beq_false_of_ne same] at read

theorem scalars : ReadsScalars where
  true_ read := (known read).2
  false_ := nofun
  null_ := nofun
  string _ _ read := by
    have first := congrArg (·.toList.head?) (known read).1
    simp at first
  number _ inside read := by
    rw [(known read).1] at inside
    exact absurd (inside 't' (by decide)) (by decide)

theorem visible : Visible := by
  intro c blank
  simp only [Text.isWhitespace, decide_eq_true_eq] at blank
  by_contra alphanumeric
  rw [Bool.not_eq_false] at alphanumeric
  change (c.isAlpha || c.isDigit) = true at alphanumeric
  rw [Bool.or_eq_true, Text.isAlpha_iff, Text.isUpper_iff, Text.isLower_iff,
    Text.isDigit_iff] at alphanumeric
  omega

def path : Token := ⟨.dollarPath, "$.n.done"⟩

def op : Token := ⟨.eq, "=="⟩

def literal : Token := ⟨.true, "true"⟩

theorem single : Single "$.n.done == true" path op literal where
  cut := by
    have names : Piece "$.n.done".toList (' ' :: ("==".toList ++ (' ' :: "true".toList)))
        (some path) true := .path (List.all_eq_true.mp rfl) (by rintro c ⟨⟩; rfl)
    have equal : Piece "==".toList (' ' :: "true".toList) (some op) true := .pair rfl
    have word : Piece "true".toList [] (some literal) true := .word (by decide) (by simp)
    have space {rest : List Char} : Piece [' '] rest none true := .blank (by decide)
    have text : (Text.trim "$.n.done == true").toList =
        "$.n.done".toList ++ ([' '] ++ ("==".toList ++ ([' '] ++ ("true".toList ++ [])))) := by
      decide
    rw [Cut, text]
    exact .next names (.next space (.next equal (.next space (.next word .done))))
  path_ := rfl
  relation := rfl
  literal_ := by decide
  named := by decide
  plain := by decide

theorem done_agrees : ∃ truth truth', evaluate "$.n.done == true" results = .ok truth ∧
    evaluateCondition "$.n.done == true" results = some truth' ∧ truth = truth' := by
  have orchestrated : evaluate "$.n.done == true" results = .ok true := by decide +kernel
  have portable : evaluateCondition "$.n.done == true" results = some true := rfl
  refine ⟨true, true, orchestrated, portable,
    conditions_agree scalars visible single ?_ orchestrated portable⟩
  rintro left meant - denotes ⟨-, own⟩
  cases denotes
  cases own

end Compared
end Nps.Nop.PortableProfile
