import Mathlib.Data.List.Basic
import Mathlib.Data.List.Chain
import Mathlib.Data.List.Infix
import Mathlib.Data.Rat.Defs
import Mathlib.Algebra.Order.Ring.Rat
import Mathlib.Order.Compare
import Mathlib.Tactic.Common

/-! Parameterized SQL conditions: their text in pieces, what a text denotes with its
parameters bound, and when a condition is true of a row. -/
namespace Sql

inductive Value where
  | null
  | bool (truth : Bool)
  | int (number : ℤ)
  | float (number : ℚ)
  | text (chars : String)
  | list (items : List Value)

structure Param where
  name : String
  value : Value

inductive Token where
  | raw (text : String)
  | identifier (name : String)
  | placeholder (param : String)
deriving DecidableEq

abbrev Text := List Token

def placeholders (text : Text) : List String :=
  text.filterMap fun
    | .placeholder param => some param
    | _ => none

inductive Operator where
  | eq
  | ne
  | lt
  | lte
  | gt
  | gte
  | like
deriving DecidableEq

def Operator.symbol : Operator → String
  | eq => "="
  | ne => "<>"
  | lt => "<"
  | lte => "<="
  | gt => ">"
  | gte => ">="
  | like => "LIKE"

inductive Connective where
  | and
  | or
deriving DecidableEq

def Connective.separator : Connective → Token
  | and => .raw " AND "
  | or => .raw " OR "

inductive Condition where
  | compare (column : String) (operator : Operator) (operand : Value)
  | among (column : String) (negated : Bool) (operand : Value)
  | between (column : String) (low high : Value)
  | constant (truth : Bool)
  | group (connective : Connective) (parts : List Condition)

mutual
def Condition.operands : Condition → List Value
  | .compare _ _ operand => [operand]
  | .among _ _ operand => [operand]
  | .between _ low high => [low, high]
  | .constant _ => []
  | .group _ parts => operandsOf parts

def operandsOf : List Condition → List Value
  | [] => []
  | part :: rest => part.operands ++ operandsOf rest
end

def compareText (column : String) (operator : Operator) (param : String) : Text :=
  [.identifier column, .raw (" " ++ operator.symbol ++ " "), .placeholder param]

def amongText (column : String) (negated : Bool) (param : String) : Text :=
  [.identifier column, .raw (if negated then " NOT IN " else " IN "), .placeholder param]

def betweenText (column low high : String) : Text :=
  [.identifier column, .raw " BETWEEN ", .placeholder low, .raw " AND ", .placeholder high]

def constantText (truth : Bool) : Text := [.raw (if truth then "1=1" else "1=0")]

def groupText (connective : Connective) (texts : List Text) : Text :=
  .raw "(" :: List.intercalate [connective.separator] texts ++ [.raw ")"]

mutual
/-- The text of a condition whose operands have the names from a number on. -/
def Condition.text (name : Nat → String) (start : Nat) : Condition → Text
  | .compare column operator _ => compareText column operator (name start)
  | .among column negated _ => amongText column negated (name start)
  | .between column _ _ => betweenText column (name start) (name (start + 1))
  | .constant truth => constantText truth
  | .group connective parts => groupText connective (textsOf name start parts)

def textsOf (name : Nat → String) (start : Nat) : List Condition → List Text
  | [] => []
  | part :: rest => part.text name start :: textsOf name (start + part.operands.length) rest
end

mutual
def Condition.Grouped : Condition → Prop
  | .group _ parts => 2 ≤ parts.length ∧ AllGrouped parts
  | _ => True

def AllGrouped : List Condition → Prop
  | [] => True
  | part :: rest => part.Grouped ∧ AllGrouped rest
end

def bound (params : List Param) (name : String) : Option Value :=
  (params.find? fun param => param.name = name).map Param.value

/-- The text is that of a well-formed condition, with a placeholder bound to each operand. -/
def Denotes (params : List Param) (text : Text) (condition : Condition) : Prop :=
  condition.Grouped ∧ ∃ name : Nat → String, text = condition.text name 0 ∧
    ∀ i operand, condition.operands[i]? = some operand → bound params (name i) = some operand

theorem Condition.text_ne_nil {name : Nat → String} (start : Nat) (c : Condition) :
    c.text name start ≠ [] := by
  cases c <;> exact nofun

section Placeholders
variable {name : Nat → String}

theorem placeholders_append (a b : Text) :
    placeholders (a ++ b) = placeholders a ++ placeholders b :=
  List.filterMap_append ..

theorem placeholders_intercalate {separator : Text} (none : placeholders separator = [])
    (texts : List Text) :
    placeholders (List.intercalate separator texts) = (texts.map placeholders).flatten := by
  induction texts with
  | nil => rfl
  | cons text rest ih =>
    cases rest with
    | nil => simp [List.intercalate]
    | cons next rest =>
      rw [List.intercalate_cons_cons, placeholders_append, placeholders_append, ih, none,
        List.append_nil]
      rfl

theorem placeholders_group (connective : Connective) (texts : List Text) :
    placeholders (groupText connective texts) = (texts.map placeholders).flatten := by
  have separator : placeholders [connective.separator] = [] := by cases connective <;> rfl
  rw [groupText, List.cons_append]
  change placeholders (_ ++ _) = _
  rw [placeholders_append, placeholders_intercalate separator]
  exact List.append_nil _

mutual
/-- The placeholders of a text are the names of its operands, in their order. -/
theorem Condition.placeholders_text (start : Nat) : ∀ c : Condition,
    placeholders (c.text name start) = (List.range' start c.operands.length).map name
  | .compare .. => rfl
  | .among .. => rfl
  | .between .. => rfl
  | .constant _ => rfl
  | .group connective parts => by
    rw [Condition.text, placeholders_group, Condition.operands]
    exact placeholders_textsOf start parts

theorem placeholders_textsOf (start : Nat) : ∀ parts : List Condition,
    ((textsOf name start parts).map placeholders).flatten =
      (List.range' start (operandsOf parts).length).map name
  | [] => rfl
  | part :: rest => by
    rw [textsOf, operandsOf, List.length_append, List.map_cons, List.flatten_cons,
      part.placeholders_text start, placeholders_textsOf _ rest, ← List.map_append,
      List.range'_append_1]
end

end Placeholders

/-- No opening parenthesis is closed at once. -/
def Filled (text : Text) : Prop :=
  text.IsChain fun a b => ¬ (a = .raw "(" ∧ b = .raw ")")

structure Closed (text : Text) : Prop where
  filled : Filled text
  nonempty : text ≠ []
  head : text.head? ≠ some (.raw ")")
  last : text.getLast? ≠ some (.raw "(")

mutual
/-- No group is of a single condition. -/
def Condition.Paired : Condition → Prop
  | .group _ parts => parts.length ≠ 1 ∧ AllPaired parts
  | _ => True

def AllPaired : List Condition → Prop
  | [] => True
  | part :: rest => part.Paired ∧ AllPaired rest
end

theorem allGrouped_iff {parts : List Condition} :
    AllGrouped parts ↔ ∀ part ∈ parts, part.Grouped := by
  induction parts with
  | nil => simp [AllGrouped]
  | cons part rest ih => rw [AllGrouped, ih, List.forall_mem_cons]

theorem allPaired_iff {parts : List Condition} :
    AllPaired parts ↔ ∀ part ∈ parts, part.Paired := by
  induction parts with
  | nil => simp [AllPaired]
  | cons part rest ih => rw [AllPaired, ih, List.forall_mem_cons]

section Parentheses
variable {name : Nat → String}

theorem Closed.intercalate {connective : Connective} {texts : List Text}
    (closed : ∀ text ∈ texts, Closed text) (some_ : texts ≠ []) :
    Closed (List.intercalate [connective.separator] texts) := by
  induction texts with
  | nil => exact absurd rfl some_
  | cons text rest ih =>
    have first := closed text (List.mem_cons_self ..)
    cases rest with
    | nil => simpa [List.intercalate] using first
    | cons next rest =>
      have others := ih (fun text member => closed text (List.mem_cons_of_mem _ member)) nofun
      have separator : connective.separator ≠ .raw "(" ∧ connective.separator ≠ .raw ")" := by
        cases connective <;> decide
      rw [List.intercalate_cons_cons]
      generalize List.intercalate [connective.separator] (next :: rest) = tail at others
      obtain ⟨a, front, rfl⟩ := List.exists_cons_of_ne_nil first.nonempty
      obtain ⟨b, back, rfl⟩ := List.exists_cons_of_ne_nil others.nonempty
      refine ⟨?_, by simp, by simpa using first.head, ?_⟩
      · refine List.isChain_append.mpr ⟨List.isChain_append.mpr ⟨first.filled, .singleton _, ?_⟩,
          others.filled, ?_⟩
        · rintro x - y same ⟨-, rfl⟩
          simp only [List.head?_cons, Option.mem_def, Option.some.injEq] at same
          exact separator.2 same
        · rintro x same y - ⟨rfl, -⟩
          simp only [List.getLast?_append, List.getLast?_singleton, Option.some_or, Option.mem_def,
            Option.some.injEq] at same
          exact separator.1 same
      · have := others.last
        rw [List.getLast?_append]
        cases last : (b :: back).getLast? with
        | none => simp at last
        | some token =>
          rw [last] at this
          simpa using this

theorem Closed.group {connective : Connective} {texts : List Text}
    (closed : ∀ text ∈ texts, Closed text) (some_ : texts ≠ []) :
    Closed (groupText connective texts) := by
  have inner : Closed (List.intercalate [connective.separator] texts) :=
    Closed.intercalate closed some_
  rw [groupText]
  generalize List.intercalate [connective.separator] texts = text at inner
  refine ⟨?_, by simp, by simp, by simp [List.getLast?_cons]⟩
  rw [List.cons_append]
  refine List.isChain_cons.mpr ⟨?_, List.isChain_append.mpr ⟨inner.filled, .singleton _, ?_⟩⟩
  · rintro y same ⟨-, rfl⟩
    obtain ⟨a, front, rfl⟩ := List.exists_cons_of_ne_nil inner.nonempty
    exact inner.head same
  · rintro x same y - ⟨rfl, -⟩
    exact inner.last same

theorem closed_compare (column : String) (operator : Operator) (param : String) :
    Closed (compareText column operator param) := by
  constructor <;> simp [compareText, Filled]

theorem closed_among (column : String) (negated : Bool) (param : String) :
    Closed (amongText column negated param) := by
  constructor <;> simp [amongText, Filled]

theorem closed_between (column low high : String) : Closed (betweenText column low high) := by
  constructor <;> simp [betweenText, Filled]

theorem closed_constant (truth : Bool) : Closed (constantText truth) := by
  cases truth <;> constructor <;> simp [constantText, Filled]

theorem textsOf_ne_nil {start : Nat} {parts : List Condition} (some_ : parts ≠ []) :
    textsOf name start parts ≠ [] := by
  cases parts with
  | nil => exact absurd rfl some_
  | cons => exact nofun

mutual
theorem Condition.closed (start : Nat) : ∀ c : Condition, c.Grouped → Closed (c.text name start)
  | .compare .., _ => closed_compare ..
  | .among .., _ => closed_among ..
  | .between .., _ => closed_between ..
  | .constant truth, _ => closed_constant truth
  | .group connective parts, grouped =>
    Closed.group (closed_textsOf start parts grouped.2)
      (textsOf_ne_nil fun none => by simp [none, Condition.Grouped] at grouped)

theorem closed_textsOf (start : Nat) : ∀ parts : List Condition, AllGrouped parts →
    ∀ text ∈ textsOf name start parts, Closed text
  | [], _, _, member => nomatch member
  | part :: rest, grouped, text, member => by
    rcases List.mem_cons.mp member with rfl | later
    · exact part.closed start grouped.1
    · exact closed_textsOf _ rest grouped.2 text later
end

theorem infix_intercalate {separator text : Text} {texts : List Text} (member : text ∈ texts) :
    text <:+: List.intercalate separator texts := by
  induction texts with
  | nil => cases member
  | cons first rest ih =>
    cases rest with
    | nil =>
      rcases List.mem_cons.mp member with rfl | later
      · simp [List.intercalate]
      · cases later
    | cons next rest =>
      rw [List.intercalate_cons_cons]
      rcases List.mem_cons.mp member with rfl | later
      · exact ⟨[], separator ++ List.intercalate separator (next :: rest), by simp⟩
      · exact (ih later).trans (List.suffix_append _ _).isInfix

theorem infix_group {connective : Connective} {text : Text} {texts : List Text}
    (member : text ∈ texts) : text <:+: groupText connective texts := by
  have inner : List.intercalate [connective.separator] texts <:+: groupText connective texts :=
    ⟨[.raw "("], [.raw ")"], rfl⟩
  exact (infix_intercalate member).trans inner

mutual
theorem Condition.grouped_of_filled (start : Nat) : ∀ c : Condition, c.Paired →
    Filled (c.text name start) → c.Grouped
  | .compare .., _, _ => trivial
  | .among .., _, _ => trivial
  | .between .., _, _ => trivial
  | .constant _, _, _ => trivial
  | .group connective parts, paired, filled => by
    refine ⟨?_, allGrouped_of_filled start parts paired.2 fun text member =>
      List.IsChain.infix filled (infix_group member)⟩
    cases parts with
    | nil => exact absurd ⟨rfl, rfl⟩ (List.isChain_cons.mp filled |>.1 _ rfl)
    | cons part rest =>
      have := paired.1
      simp only [List.length_cons] at this ⊢
      omega

theorem allGrouped_of_filled (start : Nat) : ∀ parts : List Condition, AllPaired parts →
    (∀ text ∈ textsOf name start parts, Filled text) → AllGrouped parts
  | [], _, _ => trivial
  | part :: rest, paired, filled =>
    ⟨part.grouped_of_filled start paired.1 (filled _ (List.mem_cons_self ..)),
      allGrouped_of_filled _ rest paired.2 fun text member =>
        filled text (List.mem_cons_of_mem _ member)⟩
end

end Parentheses

def numbered (name : Nat → String) (start : Nat) : List Value → List Param
  | [] => []
  | value :: rest => ⟨name start, value⟩ :: numbered name (start + 1) rest

section Numbered
variable {name : Nat → String} {start : Nat} {values : List Value}

theorem numbered_append (more : List Value) : numbered name start (values ++ more) =
    numbered name start values ++ numbered name (start + values.length) more := by
  induction values generalizing start with
  | nil => rfl
  | cons value rest ih =>
    rw [List.cons_append, numbered, ih, numbered, List.cons_append, List.length_cons,
      Nat.add_right_comm, Nat.add_assoc]

theorem numbered_names : (numbered name start values).map Param.name =
    (List.range' start values.length).map name := by
  induction values generalizing start with
  | nil => rfl
  | cons value rest ih =>
    rw [numbered, List.map_cons, ih]
    rfl

theorem bound_numbered (distinct : Function.Injective name) (more : List Param) (first : Nat)
    {i : Nat} {value : Value} (found : values[i]? = some value) :
    bound (numbered name first values ++ more) (name (first + i)) = some value := by
  induction values generalizing first i with
  | nil => cases found
  | cons head rest ih =>
    cases i with
    | zero =>
      cases found
      simp [numbered, bound]
    | succ i =>
      have different : name first ≠ name (first + (i + 1)) := fun same => by
        have := distinct same
        omega
      have later := ih (first + 1) (i := i) found
      rw [Nat.add_right_comm, Nat.add_assoc] at later
      simpa [numbered, bound, different] using later

theorem denotes_numbered (distinct : Function.Injective name) (more : List Param)
    {condition : Condition} (grouped : condition.Grouped) :
    Denotes (numbered name 0 condition.operands ++ more) (condition.text name 0) condition := by
  refine ⟨grouped, name, rfl, fun i operand found => ?_⟩
  have located := bound_numbered distinct more 0 found
  rwa [Nat.zero_add] at located

end Numbered

mutual
def Condition.shape : Condition → Condition
  | .compare column operator _ => .compare column operator .null
  | .among column negated _ => .among column negated .null
  | .between column _ _ => .between column .null .null
  | .constant truth => .constant truth
  | .group connective parts => .group connective (shapes parts)

def shapes : List Condition → List Condition
  | [] => []
  | part :: rest => part.shape :: shapes rest
end

mutual
theorem Condition.shape_operands : ∀ c : Condition, c.shape.operands.length = c.operands.length
  | .compare .. => rfl
  | .among .. => rfl
  | .between .. => rfl
  | .constant _ => rfl
  | .group _ parts => shapes_operands parts

theorem shapes_operands : ∀ parts : List Condition,
    (operandsOf (shapes parts)).length = (operandsOf parts).length
  | [] => rfl
  | part :: rest => by
    rw [shapes, operandsOf, operandsOf, List.length_append, List.length_append,
      part.shape_operands, shapes_operands rest]
end

section Shapes
variable {name : Nat → String}

mutual
theorem Condition.shape_text (start : Nat) : ∀ c : Condition,
    c.shape.text name start = c.text name start
  | .compare .. => rfl
  | .among .. => rfl
  | .between .. => rfl
  | .constant _ => rfl
  | .group connective parts => by
    rw [Condition.shape, Condition.text, Condition.text, shapes_textsOf start parts]

theorem shapes_textsOf (start : Nat) : ∀ parts : List Condition,
    textsOf name start (shapes parts) = textsOf name start parts
  | [] => rfl
  | part :: rest => by
    rw [shapes, textsOf, textsOf, part.shape_text start, part.shape_operands,
      shapes_textsOf _ rest]
end

end Shapes

def following (connective : Connective) (texts : List Text) : Text :=
  (texts.map fun text => connective.separator :: text).flatten

theorem following_cons (connective : Connective) (text : Text) (texts : List Text) :
    following connective (text :: texts) =
      connective.separator :: (text ++ following connective texts) := rfl

theorem separator_injective {a b : Connective} (same : a.separator = b.separator) : a = b := by
  cases a <;> cases b <;> first | rfl | exact absurd same (by decide)

theorem intercalate_following (connective : Connective) (text : Text) (texts : List Text) :
    List.intercalate [connective.separator] (text :: texts) = text ++ following connective texts := by
  induction texts generalizing text with
  | nil => simp [following, List.intercalate]
  | cons next rest ih =>
    rw [List.intercalate_cons_cons, ih]
    simp [following]

theorem operatorToken_injective {a b : Operator}
    (same : " " ++ a.symbol ++ " " = " " ++ b.symbol ++ " ") : a = b := by
  cases a <;> cases b <;> first | rfl | exact absurd same (by decide)

theorem operatorToken_ne (a : Operator) (negated : Bool) :
    " " ++ a.symbol ++ " " ≠ (if negated then " NOT IN " else " IN ") ∧
      " " ++ a.symbol ++ " " ≠ " BETWEEN " := by
  cases a <;> cases negated <;> decide

theorem amongToken_injective {a b : Bool} (same : (if a then " NOT IN " else " IN ") =
    (if b then " NOT IN " else " IN ")) : a = b := by
  cases a <;> cases b <;> first | rfl | exact absurd same (by decide)

theorem amongToken_ne (negated : Bool) : (if negated then " NOT IN " else " IN ") ≠ " BETWEEN " := by
  cases negated <;> decide

theorem constantToken_injective {a b : Bool}
    (same : (if a then "1=1" else "1=0") = (if b then "1=1" else "1=0")) : a = b := by
  cases a <;> cases b <;> first | rfl | exact absurd same (by decide)

theorem constantToken_ne (truth : Bool) : (if truth then "1=1" else "1=0") ≠ "(" := by
  cases truth <;> decide

section Unique
variable {name other : Nat → String}

mutual
/-- A text that starts with that of a condition starts with that of no other one. -/
theorem Condition.text_unique : ∀ (c d : Condition) (i j : Nat) {s t : Text}, c.Grouped → d.Grouped →
    c.text name i ++ s = d.text other j ++ t → c.shape = d.shape ∧ s = t
  | .compare column operator _, d, i, j, s, t, _, _, same => by
    cases d with
    | compare column' operator' operand' =>
      simp only [Condition.text, compareText, List.cons_append, List.nil_append, List.cons.injEq,
        Token.identifier.injEq, Token.raw.injEq, Token.placeholder.injEq] at same
      rw [same.1, operatorToken_injective same.2.1]
      exact ⟨rfl, same.2.2.2⟩
    | among column' negated operand' =>
      simp only [Condition.text, compareText, amongText, List.cons_append, List.cons.injEq,
        Token.raw.injEq] at same
      exact absurd same.2.1 (operatorToken_ne operator negated).1
    | between column' low' high' =>
      simp only [Condition.text, compareText, betweenText, List.cons_append, List.cons.injEq,
        Token.raw.injEq] at same
      exact absurd same.2.1 (operatorToken_ne operator true).2
    | constant truth => cases (List.cons.inj same).1
    | group connective parts => cases (List.cons.inj same).1
  | .among column negated _, d, i, j, s, t, _, _, same => by
    cases d with
    | compare column' operator' operand' =>
      simp only [Condition.text, compareText, amongText, List.cons_append, List.cons.injEq,
        Token.raw.injEq] at same
      exact absurd same.2.1.symm (operatorToken_ne operator' negated).1
    | among column' negated' operand' =>
      simp only [Condition.text, amongText, List.cons_append, List.nil_append, List.cons.injEq,
        Token.identifier.injEq, Token.raw.injEq, Token.placeholder.injEq] at same
      rw [same.1, amongToken_injective same.2.1]
      exact ⟨rfl, same.2.2.2⟩
    | between column' low' high' =>
      simp only [Condition.text, amongText, betweenText, List.cons_append, List.cons.injEq,
        Token.raw.injEq] at same
      exact absurd same.2.1 (amongToken_ne negated)
    | constant truth => cases (List.cons.inj same).1
    | group connective parts => cases (List.cons.inj same).1
  | .between column _ _, d, i, j, s, t, _, _, same => by
    cases d with
    | compare column' operator' operand' =>
      simp only [Condition.text, compareText, betweenText, List.cons_append, List.cons.injEq,
        Token.raw.injEq] at same
      exact absurd same.2.1.symm (operatorToken_ne operator' true).2
    | among column' negated' operand' =>
      simp only [Condition.text, amongText, betweenText, List.cons_append, List.cons.injEq,
        Token.raw.injEq] at same
      exact absurd same.2.1.symm (amongToken_ne negated')
    | between column' low' high' =>
      simp only [Condition.text, betweenText, List.cons_append, List.nil_append, List.cons.injEq,
        Token.identifier.injEq, Token.placeholder.injEq, true_and] at same
      rw [same.1]
      exact ⟨rfl, same.2.2.2⟩
    | constant truth => cases (List.cons.inj same).1
    | group connective parts => cases (List.cons.inj same).1
  | .constant truth, d, i, j, s, t, _, _, same => by
    cases d with
    | compare => cases (List.cons.inj same).1
    | among => cases (List.cons.inj same).1
    | between => cases (List.cons.inj same).1
    | constant truth' =>
      obtain ⟨first, rest⟩ := List.cons.inj same
      rw [constantToken_injective (Token.raw.inj first)]
      exact ⟨rfl, rest⟩
    | group connective parts =>
      exact absurd (Token.raw.inj (List.cons.inj same).1) (constantToken_ne truth)
  | .group _ [], d, i, j, s, t, grouped, _, _ => absurd grouped.1 (by decide)
  | .group connective (p :: ps), d, i, j, s, t, grouped, grouped', same => by
    cases d with
    | compare => cases (List.cons.inj same).1
    | among => cases (List.cons.inj same).1
    | between => cases (List.cons.inj same).1
    | constant truth =>
      exact absurd (Token.raw.inj (List.cons.inj same).1).symm (constantToken_ne truth)
    | group connective' parts =>
      cases parts with
      | nil => exact absurd grouped'.1 (by decide)
      | cons q qs =>
        simp only [Condition.text, textsOf, groupText, intercalate_following, List.cons_append,
          List.append_assoc, List.nil_append, List.cons.injEq, true_and] at same
        obtain ⟨first, rest⟩ := p.text_unique q i j grouped.2.1 grouped'.2.1 same
        obtain ⟨others, after, connectives⟩ :=
          following_unique ps qs _ _ grouped.2.2 grouped'.2.2 rest
        have several : ps ≠ [] := by
          rintro rfl
          exact absurd grouped.1 (by simp)
        rw [Condition.shape, Condition.shape, shapes, shapes, first, others, connectives several]
        exact ⟨rfl, after⟩

theorem following_unique : ∀ (ps qs : List Condition) (i j : Nat) {c d : Connective} {s t : Text},
    AllGrouped ps → AllGrouped qs →
    following c (textsOf name i ps) ++ .raw ")" :: s = following d (textsOf other j qs) ++ .raw ")" :: t →
    shapes ps = shapes qs ∧ s = t ∧ (ps ≠ [] → c = d)
  | [], qs, i, j, c, d, s, t, _, _, same => by
    cases qs with
    | nil => exact ⟨rfl, (List.cons.inj same).2, fun some_ => absurd rfl some_⟩
    | cons q qs =>
      have first := (List.cons.inj same).1
      cases d <;> exact absurd first (by decide)
  | p :: ps, qs, i, j, c, d, s, t, grouped, grouped', same => by
    cases qs with
    | nil =>
      have first := (List.cons.inj same).1
      cases c <;> exact absurd first (by decide)
    | cons q qs =>
      simp only [textsOf, following_cons, List.cons_append, List.append_assoc,
        List.cons.injEq] at same
      obtain ⟨first, rest⟩ := p.text_unique q i j grouped.1 grouped'.1 same.2
      obtain ⟨others, after, -⟩ := following_unique ps qs _ _ grouped.2 grouped'.2 rest
      rw [shapes, shapes, first, others]
      exact ⟨rfl, after, fun _ => separator_injective same.1⟩
end

end Unique

mutual
/-- A condition is its shape with its operands. -/
theorem Condition.eq_of_shape : ∀ c d : Condition, c.shape = d.shape → c.operands = d.operands → c = d
  | .compare .., d, same, values => by
    cases d <;> cases same
    cases values
    rfl
  | .among .., d, same, values => by
    cases d <;> cases same
    cases values
    rfl
  | .between .., d, same, values => by
    cases d <;> cases same
    cases values
    rfl
  | .constant _, d, same, _ => by
    cases d <;> cases same
    rfl
  | .group _ parts, d, same, values => by
    cases d with
    | group connective others =>
      obtain ⟨rfl, shapes⟩ := Condition.group.inj same
      rw [eq_of_shapes parts others shapes values]
    | compare => cases same
    | among => cases same
    | between => cases same
    | constant => cases same

theorem eq_of_shapes : ∀ ps qs : List Condition, shapes ps = shapes qs →
    operandsOf ps = operandsOf qs → ps = qs
  | [], qs, same, _ => by
    cases qs with
    | nil => rfl
    | cons => cases same
  | p :: ps, qs, same, values => by
    cases qs with
    | nil => cases same
    | cons q qs =>
      obtain ⟨first, rest⟩ := List.cons.inj same
      have lengths : p.operands.length = q.operands.length := by
        rw [← p.shape_operands, first, q.shape_operands]
      obtain ⟨value, others⟩ := List.append_inj values lengths
      rw [p.eq_of_shape q first value, eq_of_shapes ps qs rest others]
end

/-- A text with its parameters denotes at most one condition. -/
theorem denotes_unique {params : List Param} {text : Text} {c d : Condition}
    (first : Denotes params text c) (second : Denotes params text d) : c = d := by
  obtain ⟨grouped, name, same, values⟩ := first
  obtain ⟨grouped', other, same', values'⟩ := second
  have texts : c.text name 0 ++ [] = d.text other 0 ++ [] := by
    rw [← same, ← same']
  have shape := (c.text_unique d 0 0 grouped grouped' texts).1
  refine c.eq_of_shape d shape (List.ext_getElem? fun i => ?_)
  have names := congrArg placeholders (same.symm.trans same')
  rw [c.placeholders_text, d.placeholders_text] at names
  have lengths : c.operands.length = d.operands.length := by
    simpa using congrArg List.length names
  cases found : c.operands[i]? with
  | none =>
    rw [List.getElem?_eq_none_iff] at found
    exact (List.getElem?_eq_none_iff.mpr (lengths ▸ found)).symm
  | some operand =>
    obtain ⟨inside, -⟩ := List.getElem?_eq_some_iff.mp found
    have here : name i = other i := by
      have located := congrArg (fun names => names[i]?) names
      simpa [inside, lengths ▸ inside] using located
    have there : d.operands[i]? = some d.operands[i] := List.getElem?_eq_getElem (lengths ▸ inside)
    have same := values i operand found
    rw [here, values' i _ there] at same
    rw [there, Option.some.inj same]

end Sql
