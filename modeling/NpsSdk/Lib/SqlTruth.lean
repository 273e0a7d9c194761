import Mathlib.Data.String.Basic
import NpsSdk.Lib.Sql

/-! When a SQL condition is true of a row. Conditions have no negation of other conditions, so
a comparison that is unknown counts like one that is false. -/
namespace Sql

abbrev Row := String → Value

def Value.number? : Value → Option ℚ
  | int number => some number
  | float number => some number
  | _ => none

/-- Values of one type are compared; with null, and across types, no comparison is true. -/
def order (a b : Value) : Option Ordering :=
  match a, b with
  | .text s, .text t => some (cmp s t)
  | .bool p, .bool q => some (cmp p q)
  | a, b => do return cmp (← a.number?) (← b.number?)

def Operator.accepts : Operator → Ordering → Bool
  | eq, o => o == .eq
  | ne, o => o != .eq
  | lt, o => o == .lt
  | lte, o => o != .gt
  | gt, o => o == .gt
  | gte, o => o != .lt
  | like, _ => false

/-- `%` stands for any characters and `_` for one. -/
def likeMatches : List Char → List Char → Bool
  | [], text => text.isEmpty
  | c :: pattern, text =>
    if c = '%' then text.tails.any (likeMatches pattern)
    else match text with
      | [] => false
      | d :: rest => (c = '_' || c = d) && likeMatches pattern rest

def Operator.holds (operator : Operator) (a b : Value) : Bool :=
  match operator with
  | .like => match a, b with
    | .text text, .text pattern => likeMatches pattern.toList text.toList
    | _, _ => false
  | operator => (order a b).any operator.accepts

def Value.members : Value → List Value
  | list items => items
  | _ => []

mutual
def Condition.holds (row : Row) : Condition → Bool
  | .compare column operator operand => operator.holds (row column) operand
  | .among column false operand => operand.members.any (Operator.eq.holds (row column))
  | .among column true operand => operand.members.all (Operator.ne.holds (row column))
  | .between column low high =>
    Operator.gte.holds (row column) low && Operator.lte.holds (row column) high
  | .constant truth => truth
  | .group .and parts => allHold row parts
  | .group .or parts => anyHolds row parts

def allHold (row : Row) : List Condition → Bool
  | [] => true
  | part :: rest => part.holds row && allHold row rest

def anyHolds (row : Row) : List Condition → Bool
  | [] => false
  | part :: rest => part.holds row || anyHolds row rest
end

/-- The text is true of the row, with its parameters; no text at all is true of every row. -/
def TrueOf (params : List Param) (text : Text) (row : Row) : Prop :=
  text = [] ∨ ∃ condition, Denotes params text condition ∧ condition.holds row = true

theorem trueOf_iff {params : List Param} {text : Text} {row : Row} {condition : Condition}
    (denoted : Denotes params text condition) (some_ : text ≠ []) :
    TrueOf params text row ↔ condition.holds row = true := by
  constructor
  · rintro (none | ⟨other, denoted', holds⟩)
    · exact absurd none some_
    · rwa [denotes_unique denoted denoted']
  · exact fun holds => .inr ⟨condition, denoted, holds⟩

def plainChar (c : Char) : Prop := c ≠ '%' ∧ c ≠ '_'

theorem likeMatches_percent (pattern text : List Char) :
    likeMatches ('%' :: pattern) text = text.tails.any (likeMatches pattern) := by
  unfold likeMatches
  rfl

theorem likeMatches_plain {c : Char} (plain : plainChar c) (pattern text : List Char) :
    likeMatches (c :: pattern) text = (match text with
      | [] => false
      | d :: rest => c = d && likeMatches pattern rest) := by
  conv_lhs => unfold likeMatches
  rw [if_neg plain.1]
  cases text with
  | nil => rfl
  | cons d rest => simp [plain.2]

theorem likeMatches_any (text : List Char) : likeMatches ['%'] text = true := by
  rw [likeMatches_percent, List.any_eq_true]
  exact ⟨[], (List.mem_tails _ _).mpr List.nil_suffix, rfl⟩

theorem likeMatches_start {part text : List Char} (plain : ∀ c ∈ part, plainChar c) :
    likeMatches (part ++ ['%']) text = true ↔ part <+: text := by
  induction part generalizing text with
  | nil => simp [likeMatches_any]
  | cons c part ih =>
    rw [List.cons_append, likeMatches_plain (plain c (List.mem_cons_self ..))]
    cases text with
    | nil => simp
    | cons d rest =>
      have later : likeMatches (part ++ ['%']) rest = true ↔ part <+: rest :=
        ih fun c member => plain c (List.mem_cons_of_mem _ member)
      simp only [Bool.and_eq_true, decide_eq_true_eq, later, List.cons_prefix_cons]

theorem likeMatches_part {part text : List Char} (plain : ∀ c ∈ part, plainChar c) :
    likeMatches ('%' :: part ++ ['%']) text = true ↔ part <:+: text := by
  rw [List.cons_append, likeMatches_percent, List.any_eq_true, List.infix_iff_prefix_suffix]
  simp only [List.mem_tails, likeMatches_start plain]
  exact exists_congr fun _ => and_comm

theorem order_null (a : Value) : order a .null = none := by
  cases a <;> rfl

theorem holds_null (operator : Operator) (a : Value) : operator.holds a .null = false := by
  cases operator with
  | like => cases a <;> rfl
  | eq => simp [Operator.holds, order_null]
  | ne => simp [Operator.holds, order_null]
  | lt => simp [Operator.holds, order_null]
  | lte => simp [Operator.holds, order_null]
  | gt => simp [Operator.holds, order_null]
  | gte => simp [Operator.holds, order_null]

theorem holds_of_order {a b : Value} {o : Ordering} {same : Bool} (ordered : order a b = some o)
    (equal : o = .eq ↔ same = true) :
    Operator.eq.holds a b = same ∧ Operator.ne.holds a b = !same := by
  simp only [Operator.holds, ordered, Option.any_some, Operator.accepts]
  cases o <;> cases same <;> simp_all

theorem order_number {a b : Value} {q r : ℚ} (left : a.number? = some q)
    (right : b.number? = some r) : order a b = some (cmp q r) := by
  cases a <;> cases left <;> cases b <;> cases right <;> rfl

theorem order_trichotomy {a b : Value} {q r : ℚ} (left : a.number? = some q)
    (right : b.number? = some r) : order a b = some .lt ∧ q < r ∨ order a b = some .eq ∧ q = r ∨
      order a b = some .gt ∧ r < q := by
  rw [order_number left right]
  rcases lt_trichotomy q r with less | same | more
  · exact .inl ⟨congrArg some ((cmp_eq_lt_iff q r).mpr less), less⟩
  · exact .inr (.inl ⟨congrArg some ((cmp_eq_eq_iff q r).mpr same), same⟩)
  · exact .inr (.inr ⟨congrArg some ((cmp_eq_gt_iff q r).mpr more), more⟩)

theorem lt_holds_number {a b : Value} {q r : ℚ} (left : a.number? = some q)
    (right : b.number? = some r) : Operator.lt.holds a b = decide (q < r) ∧
      Operator.gte.holds a b = decide (r ≤ q) := by
  rcases order_trichotomy left right with ⟨ordered, less⟩ | ⟨ordered, same⟩ | ⟨ordered, more⟩
  · simp [Operator.holds, ordered, Operator.accepts, less, not_le.mpr less]
  · simp [Operator.holds, ordered, Operator.accepts, same]
  · simp [Operator.holds, ordered, Operator.accepts, more.le, not_lt.mpr more.le]

theorem gt_holds_number {a b : Value} {q r : ℚ} (left : a.number? = some q)
    (right : b.number? = some r) : Operator.gt.holds a b = decide (r < q) ∧
      Operator.lte.holds a b = decide (q ≤ r) := by
  rcases order_trichotomy left right with ⟨ordered, less⟩ | ⟨ordered, same⟩ | ⟨ordered, more⟩
  · simp [Operator.holds, ordered, Operator.accepts, less.le, not_lt.mpr less.le]
  · simp [Operator.holds, ordered, Operator.accepts, same]
  · simp [Operator.holds, ordered, Operator.accepts, more, not_le.mpr more]

theorem allHold_iff {row : Row} {parts : List Condition} :
    allHold row parts = true ↔ ∀ part ∈ parts, part.holds row = true := by
  induction parts with
  | nil => simp [allHold]
  | cons part rest ih => rw [allHold, Bool.and_eq_true, ih, List.forall_mem_cons]

theorem anyHolds_iff {row : Row} {parts : List Condition} :
    anyHolds row parts = true ↔ ∃ part ∈ parts, part.holds row = true := by
  induction parts with
  | nil => simp [anyHolds]
  | cons part rest ih => rw [anyHolds, Bool.or_eq_true, ih, List.exists_mem_cons_iff]

end Sql
