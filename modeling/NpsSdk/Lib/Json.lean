import Mathlib.Data.List.Basic
import Mathlib.Data.List.Nodup
import Mathlib.Data.String.Basic
import Mathlib.Tactic.Common

/-! JSON values, their compact text and maps ordered by key. The text is shown to
determine the value, so a signature or a hash over it is one over the value. -/
namespace Json

def numberChar (c : Char) : Bool :=
  c.isDigit || c == '-' || c == '+' || c == '.' || c == 'e' || c == 'E'

/-- A floating-point number is kept as the literal it prints as, which always
shows a fraction or an exponent. -/
structure FloatLiteral where
  text : List Char
  numeric : ∀ c ∈ text, numberChar c = true
  marked : '.' ∈ text ∨ 'e' ∈ text
deriving DecidableEq

inductive Number where
  | int (value : Int)
  | float (literal : FloatLiteral)
deriving DecidableEq

inductive Value where
  | null
  | bool (value : Bool)
  | number (value : Number)
  | string (text : String)
  | array (items : List Value)
  | object (fields : List (String × Value))

abbrev Fields := List (String × Value)

instance : Inhabited Value := ⟨.null⟩

def keyLess (a b : String) : Bool := decide (a.toList < b.toList)

section Maps
variable {β : Type}

def insert (key : String) (value : β) : List (String × β) → List (String × β)
  | [] => [(key, value)]
  | (other, old) :: rest =>
    if keyLess key other then (key, value) :: (other, old) :: rest
    else if key = other then (key, value) :: rest
    else (other, old) :: insert key value rest

def get (key : String) : List (String × β) → Option β
  | [] => none
  | (other, value) :: rest => if key = other then some value else get key rest

attribute [local simp] insert get

def sortEntries (entries : List (String × β)) : List (String × β) :=
  entries.foldr (fun entry sorted => insert entry.1 entry.2 sorted) []

@[simp] theorem get_insert_self (key : String) (value : β) (entries : List (String × β)) :
    get key (insert key value entries) = some value := by
  induction entries with
  | nil => simp
  | cons entry rest ih =>
    obtain ⟨other, old⟩ := entry
    simp only [insert]
    split_ifs with less same
    · simp
    · simp
    · simp [same, ih]

theorem get_insert_ne {key other : String} (different : other ≠ key) (value : β)
    (entries : List (String × β)) : get other (insert key value entries) = get other entries := by
  induction entries with
  | nil => simp [different]
  | cons entry rest ih =>
    obtain ⟨first, old⟩ := entry
    simp only [insert]
    split_ifs with less same
    · simp [different]
    · subst same
      simp [different]
    · simp only [get, ih]

@[simp] theorem insert_insert (key : String) (value old : β) (entries : List (String × β)) :
    insert key value (insert key old entries) = insert key value entries := by
  have irrefl : keyLess key key = false := decide_eq_false (lt_irrefl key.toList)
  induction entries with
  | nil => simp [irrefl]
  | cons entry rest ih =>
    obtain ⟨other, held⟩ := entry
    simp only [insert]
    split_ifs with less same
    · simp [irrefl]
    · simp [irrefl]
    · simp [less, same, ih]

@[simp] theorem get_sortEntries (key : String) (entries : List (String × β)) :
    get key (sortEntries entries) = get key entries := by
  induction entries with
  | nil => rfl
  | cons entry rest ih =>
    obtain ⟨first, value⟩ := entry
    change get key (insert first value (sortEntries rest)) = get key ((first, value) :: rest)
    by_cases same : key = first
    · subst same
      simp
    · simp [same, get_insert_ne same, ih]

theorem get_eq_none {key : String} {entries : List (String × β)} :
    get key entries = none ↔ key ∉ entries.map Prod.fst := by
  induction entries with
  | nil => simp
  | cons entry rest ih =>
    obtain ⟨other, value⟩ := entry
    by_cases same : key = other
    · simp [same]
    · simp [same, ih]

theorem mem_of_get {key : String} {value : β} {entries : List (String × β)}
    (found : get key entries = some value) : (key, value) ∈ entries := by
  induction entries with
  | nil => cases found
  | cons entry rest ih =>
    obtain ⟨other, old⟩ := entry
    by_cases same : key = other
    · simp only [get, if_pos same, Option.some.injEq] at found
      exact List.mem_cons.mpr (.inl (by rw [same, found]))
    · rw [get, if_neg same] at found
      exact List.mem_cons_of_mem _ (ih found)

theorem get_eq_some {key : String} {value : β} {entries : List (String × β)}
    (distinct : (entries.map Prod.fst).Nodup) :
    get key entries = some value ↔ (key, value) ∈ entries := by
  refine ⟨mem_of_get, fun member => ?_⟩
  cases found : get key entries with
  | none => exact absurd (List.mem_map.mpr ⟨_, member, rfl⟩) (get_eq_none.mp found)
  | some other =>
    have same := List.inj_on_of_nodup_map distinct (mem_of_get found) member rfl
    exact congrArg some (congrArg Prod.snd same)

theorem insert_perm {key : String} {entries : List (String × β)} (fresh : get key entries = none)
    (value : β) : (insert key value entries).Perm ((key, value) :: entries) := by
  induction entries with
  | nil => exact .refl _
  | cons entry rest ih =>
    obtain ⟨other, old⟩ := entry
    by_cases same : key = other
    · simp [same] at fresh
    · rw [get, if_neg same] at fresh
      unfold insert
      split
      · exact .refl _
      · exact ((ih fresh).cons _).trans (.swap ..)

/-- An optional field is written only when it is there. -/
def insertSome (key : String) (field : Option β) (entries : List (String × β)) :
    List (String × β) :=
  match field with
  | some value => insert key value entries
  | none => entries

@[simp] theorem get_insertSome_self (key : String) (field : Option β) (entries : List (String × β)) :
    get key (insertSome key field entries) = field.or (get key entries) := by
  cases field <;> simp [insertSome]

theorem get_insertSome_ne {key other : String} (different : other ≠ key) (field : Option β)
    (entries : List (String × β)) : get other (insertSome key field entries) = get other entries := by
  cases field with
  | none => rfl
  | some value => exact get_insert_ne different value entries

end Maps

namespace Value

def asStr : Value → Option String
  | string text => some text
  | _ => none

def asBool : Value → Option Bool
  | bool value => some value
  | _ => none

def asArray : Value → Option (List Value)
  | array items => some items
  | _ => none

def asObject : Value → Option Fields
  | object fields => some fields
  | _ => none

end Value

def stringArray (texts : List String) : Value := .array (texts.map .string)

def document (entries : List (String × Value)) : Value := .object (sortEntries entries)

def integer (value : Int) : Value := .number (.int value)

def optional (text : Option String) : Value := (text.map Value.string).getD .null

def Number.compact : Number → List Char
  | .int (.ofNat n) => Nat.toDigits 10 n
  | .int (.negSucc n) => '-' :: Nat.toDigits 10 (n + 1)
  | .float literal => literal.text

def shortEscape (c : Char) : Option Char :=
  if c = '"' then some '"'
  else if c = '\\' then some '\\'
  else if c = '\x08' then some 'b'
  else if c = '\t' then some 't'
  else if c = '\n' then some 'n'
  else if c = '\x0c' then some 'f'
  else if c = '\r' then some 'r'
  else none

def escapeChar (c : Char) : List Char :=
  match shortEscape c with
  | some letter => ['\\', letter]
  | none =>
    if c.toNat < 0x20 then
      ['\\', 'u', '0', '0', Nat.digitChar (c.toNat / 16), Nat.digitChar (c.toNat % 16)]
    else [c]

def quote (text : String) : List Char :=
  '"' :: text.toList.flatMap escapeChar ++ ['"']

mutual
def Value.compact : Value → List Char
  | .null => ['n', 'u', 'l', 'l']
  | .bool true => ['t', 'r', 'u', 'e']
  | .bool false => ['f', 'a', 'l', 's', 'e']
  | .number n => n.compact
  | .string text => quote text
  | .array items => '[' :: compactItems items ++ [']']
  | .object fields => '{' :: compactFields fields ++ ['}']

def compactItems : List Value → List Char
  | [] => []
  | item :: rest => item.compact ++ compactMoreItems rest

def compactMoreItems : List Value → List Char
  | [] => []
  | item :: rest => ',' :: item.compact ++ compactMoreItems rest

def compactFields : List (String × Value) → List Char
  | [] => []
  | (key, value) :: rest => quote key ++ ':' :: value.compact ++ compactMoreFields rest

def compactMoreFields : List (String × Value) → List Char
  | [] => []
  | (key, value) :: rest =>
    ',' :: quote key ++ ':' :: value.compact ++ compactMoreFields rest
end

def Value.text (value : Value) : String := String.ofList value.compact

example : (Value.object [("a", .array [.null, .number (.int (-7))])]).text =
    "\x7b\"a\":[null,-7]\x7d" := by decide

theorem shortEscape_injective {c d letter : Char} (hc : shortEscape c = some letter)
    (hd : shortEscape d = some letter) : c = d := by
  simp only [shortEscape] at hc hd
  split_ifs at hc <;> cases hc <;> split_ifs at hd <;> simp_all

theorem shortEscape_not_unicode {c : Char} : shortEscape c ≠ some 'u' := by
  unfold shortEscape
  grind

theorem escapeChar_head {c : Char} : ∃ d tail, escapeChar c = d :: tail ∧ d ≠ '"' := by
  unfold escapeChar
  split
  · exact ⟨_, _, rfl, by decide⟩
  · rename_i plain
    split
    · exact ⟨_, _, rfl, by decide⟩
    · refine ⟨_, _, rfl, ?_⟩
      rintro rfl
      simp [shortEscape] at plain

theorem digitChar_injective : ∀ a < 16, ∀ b < 16, Nat.digitChar a = Nat.digitChar b → a = b := by
  decide

/-- Escapes form a prefix code: the first one read is the first one written. -/
theorem escapeChar_unique {c d : Char} {s t : List Char}
    (same : escapeChar c ++ s = escapeChar d ++ t) : c = d ∧ s = t := by
  have slash : shortEscape '\\' = some '\\' := by decide
  unfold escapeChar at same
  cases hc : shortEscape c with
  | some a =>
    cases hd : shortEscape d with
    | some b =>
      simp only [hc, hd, List.cons_append, List.nil_append, List.cons.injEq, true_and] at same
      exact ⟨shortEscape_injective hc (same.1 ▸ hd), same.2⟩
    | none =>
      simp only [hc, hd] at same
      split at same
      · simp only [List.cons_append, List.nil_append, List.cons.injEq, true_and] at same
        exact absurd (same.1 ▸ hc) shortEscape_not_unicode
      · simp only [List.cons_append, List.nil_append, List.cons.injEq] at same
        simp [← same.1, slash] at hd
  | none =>
    cases hd : shortEscape d with
    | some b =>
      simp only [hc, hd] at same
      split at same
      · simp only [List.cons_append, List.nil_append, List.cons.injEq, true_and] at same
        exact absurd (same.1 ▸ hd) shortEscape_not_unicode
      · simp only [List.cons_append, List.nil_append, List.cons.injEq] at same
        simp [same.1, slash] at hc
    | none =>
      simp only [hc, hd] at same
      split at same
      · split at same
        · simp only [List.cons_append, List.nil_append, List.cons.injEq, true_and] at same
          obtain ⟨high, low, rest⟩ := same
          have high := digitChar_injective _ (by omega) _ (by omega) high
          have low := digitChar_injective _ (by omega) _ (by omega) low
          exact ⟨Char.toNat_inj.mp (by omega), rest⟩
        · simp only [List.cons_append, List.nil_append, List.cons.injEq] at same
          simp [← same.1, slash] at hd
      · split at same
        · simp only [List.cons_append, List.nil_append, List.cons.injEq] at same
          simp [same.1, slash] at hc
        · simpa using same

theorem escape_unique {a b s t : List Char}
    (same : a.flatMap escapeChar ++ '"' :: s = b.flatMap escapeChar ++ '"' :: t) :
    a = b ∧ s = t := by
  induction a generalizing b with
  | nil =>
    cases b with
    | nil => simpa using same
    | cons d b =>
      obtain ⟨head, tail, eq, ne⟩ := escapeChar_head (c := d)
      simp [eq, ne.symm] at same
  | cons c a ih =>
    cases b with
    | nil =>
      obtain ⟨head, tail, eq, ne⟩ := escapeChar_head (c := c)
      simp [eq, ne] at same
    | cons d b =>
      simp only [List.flatMap_cons, List.append_assoc] at same
      obtain ⟨rfl, rest⟩ := escapeChar_unique same
      obtain ⟨rfl, rfl⟩ := ih rest
      exact ⟨rfl, rfl⟩

theorem quote_unique {a b : String} {s t : List Char} (same : quote a ++ s = quote b ++ t) :
    a = b ∧ s = t := by
  simp only [quote, List.cons_append, List.append_assoc, List.nil_append, List.cons.injEq,
    true_and] at same
  obtain ⟨texts, rest⟩ := escape_unique same
  exact ⟨String.toList_inj.mp texts, rest⟩

def Ends (s : List Char) : Prop := ∀ c ∈ s.head?, numberChar c = false

theorem numberChar_of_isDigit {c : Char} (digit : c.isDigit = true) : numberChar c = true := by
  simp [numberChar, digit]

theorem mark_not_isDigit {c : Char} (mark : c = '-' ∨ c = '.' ∨ c = 'e') : c.isDigit = false := by
  rcases mark with rfl | rfl | rfl <;> decide

theorem toDigits_isDigit {n : Nat} {c : Char} (member : c ∈ Nat.toDigits 10 n) :
    c.isDigit = true :=
  Nat.isDigit_of_mem_toDigits (b := 10) (by decide) (by decide) member

theorem toDigits_injective {n m : Nat} (same : Nat.toDigits 10 n = Nat.toDigits 10 m) : n = m := by
  rw [← Nat.ofDigitChars_ten_toDigits (n := n), same, Nat.ofDigitChars_ten_toDigits]

theorem Number.compact_numeric (n : Number) : ∀ c ∈ n.compact, numberChar c = true := by
  intro c member
  cases n with
  | float literal => exact literal.numeric c member
  | int value =>
    cases value with
    | ofNat n => exact numberChar_of_isDigit (toDigits_isDigit member)
    | negSucc n =>
      rcases List.mem_cons.mp member with rfl | member
      · decide
      · exact numberChar_of_isDigit (toDigits_isDigit member)

theorem Number.compact_ne_nil (n : Number) : n.compact ≠ [] := by
  cases n with
  | float literal =>
    intro empty
    have marked := literal.marked
    simp_all [Number.compact]
  | int value =>
    cases value with
    | ofNat n => exact Nat.toDigits_ne_nil
    | negSucc n => exact List.cons_ne_nil _ _

theorem Number.int_unmarked {value : Int} {mark : Char} (special : mark = '.' ∨ mark = 'e') :
    mark ∉ (Number.int value).compact := by
  intro member
  have digit := mark_not_isDigit (.inr special)
  cases value with
  | ofNat n => simp [toDigits_isDigit member] at digit
  | negSucc n =>
    rcases List.mem_cons.mp member with rfl | member
    · simp at special
    · simp [toDigits_isDigit member] at digit

theorem Number.float_ne_int {literal : FloatLiteral} {value : Int} :
    (Number.float literal).compact ≠ (Number.int value).compact := by
  intro same
  have texts : literal.text = (Number.int value).compact := same
  rcases literal.marked with mark | mark
  · exact Number.int_unmarked (.inl rfl) (texts ▸ mark)
  · exact Number.int_unmarked (.inr rfl) (texts ▸ mark)

theorem toDigits_ne_minus {n : Nat} {tail : List Char} : Nat.toDigits 10 n ≠ '-' :: tail := by
  intro same
  have digit := toDigits_isDigit (n := n) (c := '-') (by simp [same])
  exact absurd digit (by decide)

theorem Number.compact_injective {n m : Number} (same : n.compact = m.compact) : n = m := by
  cases n with
  | float a =>
    cases m with
    | int value => exact absurd same Number.float_ne_int
    | float b =>
      cases a
      cases b
      simp_all [Number.compact]
  | int a =>
    cases m with
    | float literal => exact absurd same.symm Number.float_ne_int
    | int b =>
      cases a with
      | ofNat a =>
        cases b with
        | ofNat b => rw [toDigits_injective same]
        | negSucc b => exact absurd same toDigits_ne_minus
      | negSucc a =>
        cases b with
        | ofNat b => exact absurd same.symm toDigits_ne_minus
        | negSucc b =>
          have := toDigits_injective (List.cons.inj same).2
          simp_all

theorem takeWhile_ends {a s : List Char} (numeric : ∀ c ∈ a, numberChar c = true) (ends : Ends s) :
    (a ++ s).takeWhile numberChar = a := by
  rw [List.takeWhile_append_of_pos numeric]
  cases s with
  | nil => simp
  | cons c s => simp [ends c (by simp)]

theorem Number.compact_unique {n m : Number} {s t : List Char}
    (same : n.compact ++ s = m.compact ++ t) (ends : Ends s) (ends' : Ends t) :
    n = m ∧ s = t := by
  have texts : n.compact = m.compact := by
    rw [← takeWhile_ends n.compact_numeric ends, same, takeWhile_ends m.compact_numeric ends']
  exact ⟨Number.compact_injective texts, List.append_cancel_left (texts ▸ same)⟩

theorem Number.compact_cons (n : Number) : ∃ c tail, n.compact = c :: tail ∧ numberChar c = true := by
  cases text : n.compact with
  | nil => exact absurd text n.compact_ne_nil
  | cons c tail => exact ⟨c, tail, rfl, n.compact_numeric c (by simp [text])⟩

inductive Kind where
  | null | bool | number | string | array | object
deriving DecidableEq

def Value.kind : Value → Kind
  | .null => .null
  | .bool _ => .bool
  | .number _ => .number
  | .string _ => .string
  | .array _ => .array
  | .object _ => .object

def leadKind (c : Char) : Kind :=
  if c = 'n' then .null
  else if c = 't' ∨ c = 'f' then .bool
  else if c = '"' then .string
  else if c = '[' then .array
  else if c = '{' then .object
  else .number

theorem leadKind_number {c : Char} (numeric : numberChar c = true) : leadKind c = .number := by
  unfold leadKind
  split_ifs with h h h h h
  all_goals first | rfl | (rcases h with rfl | rfl <;> exact absurd numeric (by decide))

theorem Value.compact_cons (v : Value) :
    ∃ c tail, v.compact = c :: tail ∧ leadKind c = v.kind ∧ c ≠ ']' := by
  cases v with
  | null => exact ⟨_, _, rfl, by decide⟩
  | bool b => cases b <;> exact ⟨_, _, rfl, by decide⟩
  | number n =>
    obtain ⟨c, tail, eq, numeric⟩ := n.compact_cons
    refine ⟨c, tail, eq, leadKind_number numeric, ?_⟩
    rintro rfl
    exact absurd numeric (by decide)
  | string text => exact ⟨_, _, rfl, rfl, by decide⟩
  | array items => exact ⟨_, _, rfl, rfl, by decide⟩
  | object fields => exact ⟨_, _, rfl, rfl, by decide⟩

theorem Value.kind_unique {v w : Value} {s t : List Char}
    (same : v.compact ++ s = w.compact ++ t) : v.kind = w.kind := by
  obtain ⟨c, tail, eq, kind, _⟩ := v.compact_cons
  obtain ⟨d, tail', eq', kind', _⟩ := w.compact_cons
  rw [eq, eq'] at same
  rw [← kind, ← kind', (List.cons.inj same).1]

theorem ends_cons {c : Char} {s : List Char} (other : numberChar c = false) : Ends (c :: s) := by
  intro d head
  cases head
  exact other

theorem bool_unique {a b : Bool} {s t : List Char}
    (same : (Value.bool a).compact ++ s = (Value.bool b).compact ++ t) : a = b ∧ s = t := by
  cases a <;> cases b <;> simp_all [Value.compact]

theorem compactMoreItems_ends (items : List Value) (s : List Char) :
    Ends (compactMoreItems items ++ ']' :: s) := by
  cases items with
  | nil => exact ends_cons (by decide)
  | cons item items => exact ends_cons (by decide)

theorem compactMoreFields_ends (fields : Fields) (s : List Char) :
    Ends (compactMoreFields fields ++ '}' :: s) := by
  cases fields with
  | nil => exact ends_cons (by decide)
  | cons field fields => exact ends_cons (by decide)

mutual
/-- Compact texts are uniquely readable; only a number needs to know where it ends. -/
theorem Value.compact_unique : ∀ (v w : Value) {s t : List Char},
    v.compact ++ s = w.compact ++ t → Ends s → Ends t → v = w ∧ s = t
  | .null, w, s, t, same, _, _ => by
    cases w <;> cases Value.kind_unique same
    exact ⟨rfl, by simpa [Value.compact] using same⟩
  | .bool a, w, s, t, same, _, _ => by
    cases w <;> cases Value.kind_unique same
    obtain ⟨rfl, rest⟩ := bool_unique same
    exact ⟨rfl, rest⟩
  | .number n, w, s, t, same, ends, ends' => by
    cases w <;> cases Value.kind_unique same
    obtain ⟨rfl, rest⟩ := Number.compact_unique same ends ends'
    exact ⟨rfl, rest⟩
  | .string a, w, s, t, same, _, _ => by
    cases w <;> cases Value.kind_unique same
    obtain ⟨rfl, rest⟩ := quote_unique same
    exact ⟨rfl, rest⟩
  | .array xs, w, s, t, same, _, _ => by
    cases w <;> cases Value.kind_unique same
    rename_i ys
    simp only [Value.compact, List.cons_append, List.append_assoc, List.nil_append,
      List.cons.injEq, true_and] at same
    obtain ⟨rfl, rest⟩ := compactItems_unique xs ys same
    exact ⟨rfl, rest⟩
  | .object xs, w, s, t, same, _, _ => by
    cases w <;> cases Value.kind_unique same
    rename_i ys
    simp only [Value.compact, List.cons_append, List.append_assoc, List.nil_append,
      List.cons.injEq, true_and] at same
    obtain ⟨rfl, rest⟩ := compactFields_unique xs ys same
    exact ⟨rfl, rest⟩

theorem compactItems_unique : ∀ (xs ys : List Value) {s t : List Char},
    compactItems xs ++ ']' :: s = compactItems ys ++ ']' :: t → xs = ys ∧ s = t
  | [], [], s, t, same => ⟨rfl, by simpa [compactItems] using same⟩
  | [], y :: ys, s, t, same => by
    obtain ⟨c, tail, eq, _, ne⟩ := y.compact_cons
    simp [compactItems, eq, ne.symm] at same
  | x :: xs, [], s, t, same => by
    obtain ⟨c, tail, eq, _, ne⟩ := x.compact_cons
    simp [compactItems, eq, ne] at same
  | x :: xs, y :: ys, s, t, same => by
    simp only [compactItems, List.append_assoc] at same
    obtain ⟨rfl, more⟩ := Value.compact_unique x y same
      (compactMoreItems_ends xs s) (compactMoreItems_ends ys t)
    obtain ⟨rfl, rest⟩ := compactMoreItems_unique xs ys more
    exact ⟨rfl, rest⟩

theorem compactMoreItems_unique : ∀ (xs ys : List Value) {s t : List Char},
    compactMoreItems xs ++ ']' :: s = compactMoreItems ys ++ ']' :: t → xs = ys ∧ s = t
  | [], [], s, t, same => ⟨rfl, by simpa [compactMoreItems] using same⟩
  | [], y :: ys, s, t, same => by simp [compactMoreItems] at same
  | x :: xs, [], s, t, same => by simp [compactMoreItems] at same
  | x :: xs, y :: ys, s, t, same => by
    simp only [compactMoreItems, List.cons_append, List.append_assoc, List.cons.injEq,
      true_and] at same
    obtain ⟨rfl, more⟩ := Value.compact_unique x y same
      (compactMoreItems_ends xs s) (compactMoreItems_ends ys t)
    obtain ⟨rfl, rest⟩ := compactMoreItems_unique xs ys more
    exact ⟨rfl, rest⟩

theorem compactFields_unique : ∀ (xs ys : Fields) {s t : List Char},
    compactFields xs ++ '}' :: s = compactFields ys ++ '}' :: t → xs = ys ∧ s = t
  | [], [], s, t, same => ⟨rfl, by simpa [compactFields] using same⟩
  | [], y :: ys, s, t, same => by simp [compactFields, quote] at same
  | x :: xs, [], s, t, same => by simp [compactFields, quote] at same
  | (a, x) :: xs, (b, y) :: ys, s, t, same => by
    simp only [compactFields, List.append_assoc, List.cons_append] at same
    obtain ⟨rfl, entry⟩ := quote_unique same
    obtain ⟨rfl, more⟩ := Value.compact_unique x y (List.cons.inj entry).2
      (compactMoreFields_ends xs s) (compactMoreFields_ends ys t)
    obtain ⟨rfl, rest⟩ := compactMoreFields_unique xs ys more
    exact ⟨rfl, rest⟩

theorem compactMoreFields_unique : ∀ (xs ys : Fields) {s t : List Char},
    compactMoreFields xs ++ '}' :: s = compactMoreFields ys ++ '}' :: t → xs = ys ∧ s = t
  | [], [], s, t, same => ⟨rfl, by simpa [compactMoreFields] using same⟩
  | [], y :: ys, s, t, same => by simp [compactMoreFields] at same
  | x :: xs, [], s, t, same => by simp [compactMoreFields] at same
  | (a, x) :: xs, (b, y) :: ys, s, t, same => by
    simp only [compactMoreFields, List.append_assoc, List.cons_append, List.cons.injEq,
      true_and] at same
    obtain ⟨rfl, entry⟩ := quote_unique same
    obtain ⟨rfl, more⟩ := Value.compact_unique x y (List.cons.inj entry).2
      (compactMoreFields_ends xs s) (compactMoreFields_ends ys t)
    obtain ⟨rfl, rest⟩ := compactMoreFields_unique xs ys more
    exact ⟨rfl, rest⟩
end

theorem Value.text_injective : Function.Injective Value.text := by
  intro v w same
  have texts : v.compact = w.compact := by
    simpa [Value.text] using congrArg String.toList same
  exact (Value.compact_unique v w (s := []) (t := []) (by rw [texts]) (by simp [Ends])
    (by simp [Ends])).1

end Json
