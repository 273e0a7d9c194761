import NpsSdk.Lib.Lexing
import NpsSdk.Nop.Condition

/-! The pieces that a condition is cut into, and that the tokenizer finds them: it answers with
the tokens of the only way to cut the text, or refuses a text that cannot be cut. -/
namespace Nps.Nop.Condition
open Lexing

def words : List (String × TokenKind) := [("true", .true), ("false", .false), ("null", .null)]

def numberChar (c : Char) : Bool := c.isDigit || c == '.'

section
variable [CharClasses]

/-- A piece of a condition and what follows it. Only a string literal may be left open, by the
end of the condition. -/
inductive Piece : (word rest : List Char) → Option Token → (closed : Bool) → Prop
  | blank {c : Char} {rest : List Char} : Text.isWhitespace c = true → Piece [c] rest none true
  | path {names rest : List Char} : (∀ c ∈ names, pathChar c = true) →
      (∀ next ∈ rest.head?, pathChar next = false) →
      Piece ('$' :: '.' :: names) rest
        (some ⟨.dollarPath, String.ofList ('$' :: '.' :: names)⟩) true
  | literal {content rest : List Char} : '"' ∉ content →
      Piece ('"' :: (content ++ ['"'])) rest (some ⟨.str, String.ofList content⟩) true
  | unclosed {content : List Char} : '"' ∉ content →
      Piece ('"' :: content) [] (some ⟨.str, String.ofList content⟩) false
  | positive {digit : Char} {digits rest : List Char} : digit.isDigit = true →
      (∀ c ∈ digits, numberChar c = true) → (∀ next ∈ rest.head?, numberChar next = false) →
      Piece (digit :: digits) rest (some ⟨.number, String.ofList (digit :: digits)⟩) true
  | negative {digit : Char} {digits rest : List Char} : digit.isDigit = true →
      (∀ c ∈ digits, numberChar c = true) → (∀ next ∈ rest.head?, numberChar next = false) →
      Piece ('-' :: digit :: digits) rest
        (some ⟨.number, String.ofList ('-' :: digit :: digits)⟩) true
  | pair {c second : Char} {kind : TokenKind} {rest : List Char} :
      twoChars c = some (second, kind) →
      Piece [c, second] rest (some ⟨kind, String.ofList [c, second]⟩) true
  | single {c : Char} {kind : TokenKind} {rest : List Char} : oneChar c = some kind →
      (∀ two ∈ twoChars c, rest.head? ≠ some two.1) →
      Piece [c] rest (some ⟨kind, String.ofList [c]⟩) true
  | word {name : String} {kind : TokenKind} {rest : List Char} : (name, kind) ∈ words →
      (∀ next ∈ rest.head?, isAlphanumeric next = false) →
      Piece name.toList rest (some ⟨kind, name⟩) true

end

section Tokenizer
variable {chars word rest tail : List Char} {i : Nat} {c : Char} {input : String}

theorem charAt_of_drop (at_ : chars.drop i = c :: tail) : charAt chars i = .ok c := by
  have here : chars[i]? = some c := by rw [← List.head?_drop, at_, List.head?_cons]
  rw [charAt, here]

theorem next_of_drop (at_ : chars.drop i = c :: tail) : chars[i + 1]? = tail.head? := by
  rw [← List.head?_drop, ← List.drop_drop, at_, List.drop_succ_cons, List.drop_zero]

theorem skipWhile_of_drop (kind : Char → Bool) (at_ : chars.drop i = tail) :
    skipWhile chars kind i = i + (tail.takeWhile kind).length := by
  rw [skipWhile, at_]

theorem slice_of_drop (at_ : chars.drop i = word ++ rest) (inside : i ≤ chars.length) :
    slice chars i (i + word.length) = .ok (String.ofList word) := by
  have total := congrArg List.length at_
  rw [List.length_drop, List.length_append] at total
  rw [slice, if_pos ⟨by omega, by omega⟩, List.drop_take, Nat.add_sub_cancel_left, at_,
    List.take_left]

theorem inside_of_drop (at_ : chars.drop i = c :: tail) : i < chars.length := by
  by_contra past
  rw [List.drop_of_length_le (Nat.le_of_not_lt past)] at at_
  cases at_

theorem digit_plain (digit : c.isDigit = true) :
    Text.isWhitespace c = false ∧ c ≠ '$' ∧ c ≠ '"' ∧ c ≠ '-' := by
  have range : 48 ≤ c.toNat ∧ c.toNat ≤ 57 := by
    simp only [Char.isDigit, Bool.and_eq_true, decide_eq_true_eq] at digit
    exact digit
  refine ⟨?_, ?_, ?_, ?_⟩
  · simp only [Text.isWhitespace, decide_eq_false_iff_not]
    omega
  all_goals
    rintro rfl
    revert range
    decide

/-- A character that begins neither white space nor a path, a literal or a number. -/
structure Plain (c : Char) (tail : List Char) : Prop where
  blank : ¬ Text.isWhitespace c = true
  path : ¬ (c = '$' ∧ tail.head? = some '.')
  quote : c ≠ '"'
  number : ¬ (c.isDigit = true ∨ c = '-' ∧ (tail.head?.map Char.isDigit).getD false = true)

theorem plain_of_operator (operator : (twoChars c).isSome ∨ (oneChar c).isSome) :
    Plain c tail := by
  have known : c = '>' ∨ c = '<' ∨ c = '=' ∨ c = '!' ∨ c = '&' ∨ c = '|' ∨ c = '(' ∨
      c = ')' := by
    by_contra other
    simp only [not_or] at other
    obtain ⟨gt, lt, eq, not, and, or, opening, closing⟩ := other
    simp [twoChars, oneChar, gt, lt, eq, not, and, or, opening, closing] at operator
  rcases known with rfl | rfl | rfl | rfl | rfl | rfl | rfl | rfl <;>
    exact ⟨by decide, by simp, by decide, by simp⟩

theorem keyword_spec (input name : String) :
    (∃ kind, (name, kind) ∈ words ∧ keyword input name = .ok ⟨kind, name⟩) ∨
    ∃ e, keyword input name = .error (.refused e) := by
  unfold keyword
  split
  · rename_i same
    subst same
    exact .inl ⟨.true, by decide, rfl⟩
  · split
    · rename_i same
      subst same
      exact .inl ⟨.false, by decide, rfl⟩
    · split
      · rename_i same
        subst same
        exact .inl ⟨.null, by decide, rfl⟩
      · exact .inr ⟨_, rfl⟩

variable [CharClasses]

theorem tokenAt_blank (at_ : chars.drop i = c :: tail) (blank : Text.isWhitespace c = true) :
    tokenAt chars input i = .ok (none, i + 1) := by
  unfold tokenAt
  rw [charAt_of_drop at_]
  simp only [bind, Except.bind]
  rw [if_pos blank]
  rfl

theorem tokenAt_path (at_ : chars.drop i = '$' :: '.' :: tail) :
    tokenAt chars input i =
      .ok (some ⟨.dollarPath, String.ofList (('$' :: '.' :: tail).takeWhile pathChar)⟩,
        i + (('$' :: '.' :: tail).takeWhile pathChar).length) := by
  obtain ⟨rest, split, -⟩ := takeWhile_split pathChar ('$' :: '.' :: tail)
  have cut := slice_of_drop (at_.trans split) (inside_of_drop at_).le
  unfold tokenAt
  rw [charAt_of_drop at_]
  simp only [bind, Except.bind, follows, next_of_drop at_, skipWhile_of_drop _ at_, cut]
  rfl

theorem tokenAt_quote (at_ : chars.drop i = '"' :: tail) :
    tokenAt chars input i =
      .ok (some ⟨.str, String.ofList (tail.takeWhile (· ≠ '"'))⟩,
        i + 1 + (tail.takeWhile (· ≠ '"')).length + 1) := by
  have next : chars.drop (i + 1) = tail := by
    rw [← List.drop_drop, at_, List.drop_succ_cons, List.drop_zero]
  obtain ⟨rest, split, -⟩ := takeWhile_split (· ≠ '"') tail
  have cut := slice_of_drop (next.trans split) (inside_of_drop at_)
  unfold tokenAt
  rw [charAt_of_drop at_]
  simp only [bind, Except.bind, skipWhile_of_drop _ next]
  rw [if_neg (by decide), if_neg (by simp), if_pos trivial, cut]
  rfl

theorem tokenAt_positive (at_ : chars.drop i = c :: tail) (digit : c.isDigit = true) :
    tokenAt chars input i =
      .ok (some ⟨.number, String.ofList ((c :: tail).takeWhile numberChar)⟩,
        i + ((c :: tail).takeWhile numberChar).length) := by
  obtain ⟨rest, split, -⟩ := takeWhile_split numberChar (c :: tail)
  have cut := slice_of_drop (at_.trans split) (inside_of_drop at_).le
  obtain ⟨blank, path, quote, minus⟩ := digit_plain digit
  unfold tokenAt
  rw [charAt_of_drop at_]
  simp only [bind, Except.bind]
  rw [if_neg (by simp [blank]), if_neg fun dollar => path dollar.1, if_neg quote,
    if_pos (.inl digit), if_neg minus, skipWhile_of_drop _ at_]
  change Except.bind (slice chars i (i + (List.takeWhile numberChar (c :: tail)).length)) _ = _
  rw [cut]
  rfl

theorem tokenAt_negative (at_ : chars.drop i = '-' :: c :: tail) (digit : c.isDigit = true) :
    tokenAt chars input i =
      .ok (some ⟨.number, String.ofList ('-' :: (c :: tail).takeWhile numberChar)⟩,
        i + ('-' :: (c :: tail).takeWhile numberChar).length) := by
  have next : chars.drop (i + 1) = c :: tail := by
    rw [← List.drop_drop, at_, List.drop_succ_cons, List.drop_zero]
  obtain ⟨rest, split, -⟩ := takeWhile_split numberChar (c :: tail)
  have whole : chars.drop i = ('-' :: (c :: tail).takeWhile numberChar) ++ rest := by
    rw [at_, List.cons_append, ← split]
  have cut := slice_of_drop whole (inside_of_drop at_).le
  have stop : skipWhile chars numberChar (i + 1) =
      i + ('-' :: (c :: tail).takeWhile numberChar).length := by
    rw [skipWhile_of_drop _ next, List.length_cons]
    omega
  unfold tokenAt
  rw [charAt_of_drop at_]
  simp only [bind, Except.bind, next_of_drop at_]
  rw [if_neg (by decide), if_neg (by simp), if_neg (by decide), if_pos (by simp [digit]),
    if_pos trivial]
  change Except.bind (slice chars i (skipWhile chars numberChar (i + 1))) (fun raw =>
    pure (some (Token.mk .number raw), skipWhile chars numberChar (i + 1))) = _
  rw [stop, cut]
  rfl

theorem tokenAt_plain (at_ : chars.drop i = c :: tail) (plain : Plain c tail) :
    tokenAt chars input i =
      match (twoChars c).filter fun two => tail.head? == some two.1, oneChar c with
      | some (second, kind), _ => .ok (some ⟨kind, String.ofList [c, second]⟩, i + 2)
      | none, some kind => .ok (some ⟨kind, String.ofList [c]⟩, i + 1)
      | none, none =>
        if CharClasses.isAlphabetic c then
          (keyword input (String.ofList ((c :: tail).takeWhile isAlphanumeric))).map fun token =>
            (some token, i + ((c :: tail).takeWhile isAlphanumeric).length)
        else refuse s!"Unexpected character '{c}' at position {i}." input := by
  obtain ⟨rest, split, -⟩ := takeWhile_split isAlphanumeric (c :: tail)
  have cut := slice_of_drop (at_.trans split) (inside_of_drop at_).le
  have path : ¬ (c = '$' ∧ follows chars i '.' = true) := by
    rw [follows, next_of_drop at_, beq_iff_eq]
    exact plain.path
  have number : ¬ (c.isDigit = true ∨ c = '-' ∧ (chars[i + 1]?.map Char.isDigit).getD false) := by
    rw [next_of_drop at_]
    exact plain.number
  unfold tokenAt
  rw [charAt_of_drop at_]
  simp only [bind, Except.bind]
  rw [if_neg plain.blank, if_neg path, if_neg plain.quote, if_neg number]
  simp only [follows, next_of_drop at_, skipWhile_of_drop _ at_, cut]
  cases (twoChars c).filter fun two => tail.head? == some two.1 with
  | some two => rfl
  | none =>
    cases oneChar c with
    | some kind => rfl
    | none =>
      simp only
      split
      · cases keyword input (String.ofList ((c :: tail).takeWhile isAlphanumeric)) <;> rfl
      · rfl

theorem letter_alphabetic (ascii : c.toNat < 128) (letter : c.isAlpha = true) :
    CharClasses.isAlphabetic c = true := by
  rw [CharClasses.asciiAlphabetic c ascii, letter]

theorem word_alphanumeric {name : String} {kind : TokenKind} (known : (name, kind) ∈ words) :
    ∀ c ∈ name.toList, isAlphanumeric c = true := by
  have letters : name.toList.all (fun c => decide (c.toNat < 128) && c.isAlpha) = true := by
    simp only [words, List.mem_cons, Prod.mk.injEq, List.not_mem_nil, or_false] at known
    rcases known with ⟨rfl, -⟩ | ⟨rfl, -⟩ | ⟨rfl, -⟩ <;> rfl
  intro c member
  obtain ⟨ascii, letter⟩ := Bool.and_eq_true_iff.mp (List.all_eq_true.mp letters c member)
  rw [isAlphanumeric, letter_alphabetic (of_decide_eq_true ascii) letter, Bool.true_or]

theorem word_begins {name : String} {kind : TokenKind} (known : (name, kind) ∈ words)
    (input : String) :
    ∃ first others, name.toList = first :: others ∧ CharClasses.isAlphabetic first = true ∧
      twoChars first = none ∧ oneChar first = none ∧ (∀ tail, Plain first tail) ∧
      keyword input name = .ok ⟨kind, name⟩ := by
  simp only [words, List.mem_cons, Prod.mk.injEq, List.not_mem_nil, or_false] at known
  rcases known with ⟨rfl, rfl⟩ | ⟨rfl, rfl⟩ | ⟨rfl, rfl⟩
  · exact ⟨'t', _, rfl, letter_alphabetic (by decide) rfl, by decide, by decide,
      fun _ => ⟨by decide, by simp, by decide, by simp⟩, rfl⟩
  · exact ⟨'f', _, rfl, letter_alphabetic (by decide) rfl, by decide, by decide,
      fun _ => ⟨by decide, by simp, by decide, by simp⟩, rfl⟩
  · exact ⟨'n', _, rfl, letter_alphabetic (by decide) rfl, by decide, by decide,
      fun _ => ⟨by decide, by simp, by decide, by simp⟩, rfl⟩

/-- Every piece is found where the text has it. -/
theorem tokenAt_piece {token : Option Token} {closed : Bool}
    (piece : Piece word rest token closed) (at_ : chars.drop i = word ++ rest) :
    tokenAt chars input i = .ok (token, i + word.length + if closed then 0 else 1) := by
  cases piece with
  | blank blank => exact tokenAt_blank at_ blank
  | @path names _ inside after =>
    have all : ∀ c ∈ '$' :: '.' :: names, pathChar c = true := by simpa [pathChar] using inside
    have munch : ('$' :: '.' :: (names ++ rest)).takeWhile pathChar = '$' :: '.' :: names :=
      takeWhile_word all after
    rw [List.cons_append, List.cons_append] at at_
    rw [tokenAt_path at_, munch]
    rfl
  | @literal content _ inside =>
    have munch : (content ++ '"' :: rest).takeWhile (· ≠ '"') = content := by
      refine takeWhile_word ?_ (by simp)
      intro c member
      simpa using ne_of_mem_of_not_mem member inside
    simp only [List.cons_append, List.append_assoc, List.nil_append] at at_
    rw [tokenAt_quote at_, munch]
    simp only [List.length_cons, List.length_append, List.length_nil, ↓reduceIte]
    congr 2
    omega
  | @unclosed content inside =>
    have munch : (content ++ []).takeWhile (· ≠ '"') = content := by
      refine takeWhile_word ?_ (by simp)
      intro c member
      simpa using ne_of_mem_of_not_mem member inside
    rw [List.cons_append] at at_
    rw [tokenAt_quote at_, munch]
    simp only [List.length_cons, Bool.false_eq_true, ↓reduceIte]
    congr 2
    omega
  | @positive digit digits _ isDigit inside after =>
    have all : ∀ c ∈ digit :: digits, numberChar c = true := by
      simpa [numberChar, isDigit] using inside
    have munch : (digit :: (digits ++ rest)).takeWhile numberChar = digit :: digits :=
      takeWhile_word all after
    rw [List.cons_append] at at_
    rw [tokenAt_positive at_ isDigit, munch]
    rfl
  | @negative digit digits _ isDigit inside after =>
    have all : ∀ c ∈ digit :: digits, numberChar c = true := by
      simpa [numberChar, isDigit] using inside
    have munch : (digit :: (digits ++ rest)).takeWhile numberChar = digit :: digits :=
      takeWhile_word all after
    rw [List.cons_append, List.cons_append] at at_
    rw [tokenAt_negative at_ isDigit, munch]
    rfl
  | @pair c second kind _ operator =>
    have plain : Plain c (second :: rest) := plain_of_operator (.inl (by simp [operator]))
    have two : (twoChars c).filter (fun two => (second :: rest).head? == some two.1) =
        some (second, kind) := by
      simp [operator, Option.filter_some]
    rw [List.cons_append, List.singleton_append] at at_
    rw [tokenAt_plain at_ plain, two]
    rfl
  | @single c kind _ operator alone =>
    have plain : Plain c rest := plain_of_operator (.inr (by simp [operator]))
    have none_ : (twoChars c).filter (fun two => rest.head? == some two.1) = none := by
      simpa using alone
    rw [tokenAt_plain at_ plain]
    simp [none_, operator]
  | @word name kind _ known after =>
    obtain ⟨first, others, split, alphabetic, two, one, plain, read⟩ := word_begins known input
    have munch : (name.toList ++ rest).takeWhile isAlphanumeric = name.toList :=
      takeWhile_word (word_alphanumeric known) after
    rw [split, List.cons_append] at at_ munch
    rw [tokenAt_plain at_ (plain _), two, one, munch, if_pos alphabetic, ← split, String.ofList_toList,
      read]
    rfl

/-- What no piece begins is refused. -/
theorem piece_of_drop (input : String) (at_ : chars.drop i = c :: tail) :
    (∃ e, tokenAt chars input i = .error (.refused e)) ∨
      ∃ word rest token closed, Piece word rest token closed ∧ c :: tail = word ++ rest := by
  by_cases blank : Text.isWhitespace c = true
  · exact .inr ⟨[c], tail, none, true, .blank blank, rfl⟩
  by_cases path : c = '$' ∧ tail.head? = some '.'
  · obtain ⟨rfl, dot⟩ := path
    obtain ⟨tail, rfl⟩ := List.head?_eq_some_iff.mp dot
    obtain ⟨rest, split, inside, after⟩ := takeWhile_split pathChar tail
    refine .inr ⟨'$' :: '.' :: tail.takeWhile pathChar, rest, _, _, .path inside after, ?_⟩
    rw [List.cons_append, List.cons_append, ← split]
  by_cases quote : c = '"'
  · subst quote
    obtain ⟨rest, split, inside, after⟩ := takeWhile_split (· ≠ '"') tail
    have free : '"' ∉ tail.takeWhile (· ≠ '"') := fun member => by simpa using inside _ member
    cases rest with
    | nil =>
      refine .inr ⟨'"' :: tail.takeWhile (· ≠ '"'), [], _, _, .unclosed free, ?_⟩
      rw [List.cons_append, ← split]
    | cons next rest =>
      obtain rfl : next = '"' := by simpa using after next rfl
      refine .inr ⟨'"' :: (tail.takeWhile (· ≠ '"') ++ ['"']), rest, _, _, .literal free, ?_⟩
      rw [List.cons_append, List.append_assoc, List.singleton_append, ← split]
  by_cases number : c.isDigit = true ∨ c = '-' ∧ (tail.head?.map Char.isDigit).getD false = true
  · rcases number with digit | ⟨rfl, digit⟩
    · obtain ⟨rest, split, inside, after⟩ := takeWhile_split numberChar tail
      refine .inr ⟨c :: tail.takeWhile numberChar, rest, _, _, .positive digit inside after, ?_⟩
      rw [List.cons_append, ← split]
    · cases tail with
      | nil => cases digit
      | cons first tail =>
        obtain ⟨rest, split, inside, after⟩ := takeWhile_split numberChar tail
        refine .inr ⟨'-' :: first :: tail.takeWhile numberChar, rest, _, _,
          .negative digit inside after, ?_⟩
        rw [List.cons_append, List.cons_append, ← split]
  rw [tokenAt_plain at_ ⟨blank, path, quote, number⟩]
  cases two : (twoChars c).filter fun two => tail.head? == some two.1 with
  | some two =>
    obtain ⟨operator, follows⟩ := Option.filter_eq_some_iff.mp two
    obtain ⟨rest, rfl⟩ := List.head?_eq_some_iff.mp (beq_iff_eq.mp follows)
    exact .inr ⟨[c, _], rest, _, _, .pair operator, rfl⟩
  | none =>
    cases one : oneChar c with
    | some kind =>
      refine .inr ⟨[c], tail, _, _, .single one ?_, rfl⟩
      simpa using two
    | none =>
      simp only
      split
      · rename_i alphabetic
        obtain ⟨rest, split, inside, after⟩ := takeWhile_split isAlphanumeric (c :: tail)
        rcases keyword_spec input (String.ofList ((c :: tail).takeWhile isAlphanumeric)) with
          ⟨kind, known, -⟩ | ⟨e, refused⟩
        · refine .inr ⟨_, rest, _, _, .word known after, ?_⟩
          rwa [String.toList_ofList]
        · exact .inl ⟨e, by rw [refused]; rfl⟩
      · exact .inl ⟨_, rfl⟩

theorem Piece.rest_nil {token : Option Token} (piece : Piece word rest token false) :
    rest = [] := by
  cases piece
  rfl

theorem piece_deterministic : Deterministic Piece where
  nonempty piece := by
    cases piece with
    | word known =>
      obtain ⟨first, others, split, -⟩ := word_begins known ""
      rw [split]
      exact List.cons_ne_nil _ _
    | _ => exact List.cons_ne_nil _ _
  unique {word rest token closed word' rest' token' closed'} piece piece' same := by
    -- the tokenizer finds both, so that it stops at the same place after both
    have found : tokenAt (word ++ rest) "" 0 = _ := tokenAt_piece piece rfl
    have found' : tokenAt (word ++ rest) "" 0 = _ := tokenAt_piece piece' same
    have agree := Except.ok.inj (found.symm.trans found')
    obtain ⟨rfl, stop⟩ := Prod.mk.inj agree
    have total := congrArg List.length same
    rw [List.length_append, List.length_append] at total
    have lengths : word.length = word'.length ∧ closed = closed' := by
      cases closed with
      | true =>
        cases closed' with
        | true => exact ⟨by simpa using stop, rfl⟩
        | false =>
          rw [piece'.rest_nil] at total
          simp only [List.length_nil, ↓reduceIte, Bool.false_eq_true] at total stop
          omega
      | false =>
        rw [piece.rest_nil] at total
        cases closed' with
        | true =>
          simp only [List.length_nil, ↓reduceIte, Bool.false_eq_true] at total stop
          omega
        | false => exact ⟨by simpa using stop, rfl⟩
    exact ⟨(List.append_inj same lengths.1).1, rfl, lengths.2⟩

theorem drop_piece {token : Option Token} {closed : Bool} (piece : Piece word rest token closed)
    (at_ : chars.drop i = word ++ rest) :
    chars.drop (i + word.length + if closed then 0 else 1) = rest := by
  rw [← List.drop_drop, ← List.drop_drop, at_, List.drop_left]
  cases closed with
  | true => rfl
  | false =>
    rw [piece.rest_nil]
    rfl

/-- The tokenizer from a position on: the tokens that the rest of the text is cut into, and a
mark at the end. -/
theorem tokensFrom_spec (chars : List Char) (input : String) : ∀ fuel i,
    chars.length ≤ i + fuel →
    (∃ ts closed, Lexes Piece (chars.drop i) ts closed ∧
      tokensFrom chars input (fuel + 1) i = .ok (ts ++ [⟨.eof, ""⟩])) ∨
    (¬ ∃ ts closed, Lexes Piece (chars.drop i) ts closed) ∧
      ∃ e, tokensFrom chars input (fuel + 1) i = .error (.refused e) := by
  have ended {fuel i : Nat} (past : chars.length ≤ i) :
      ∃ ts closed, Lexes Piece (chars.drop i) ts closed ∧
        tokensFrom chars input (fuel + 1) i = .ok (ts ++ [⟨.eof, ""⟩]) := by
    refine ⟨[], true, ?_, ?_⟩
    · rw [List.drop_of_length_le past]
      exact .done
    · rw [tokensFrom, if_neg (Nat.not_lt.mpr past)]
      rfl
  intro fuel
  induction fuel with
  | zero => exact fun i past => .inl (ended past)
  | succ fuel ih =>
    intro i enough
    rcases Nat.lt_or_ge i chars.length with inside | past
    · rw [tokensFrom, if_pos inside]
      obtain ⟨c, tail, at_⟩ := List.exists_cons_of_ne_nil (List.drop_eq_nil_iff.not.mpr
        (Nat.not_le.mpr inside))
      rw [at_]
      rcases piece_of_drop input at_ with
        ⟨e, refused⟩ | ⟨word, rest, token, closed, piece, split⟩
      · refine .inr ⟨?_, e, by rw [refused]; rfl⟩
        rintro ⟨ts, closed, whole⟩
        obtain ⟨word, rest, token, closed, piece, split⟩ := whole.head (List.cons_ne_nil _ _)
        rw [tokenAt_piece piece (at_.trans split)] at refused
        cases refused
      · rw [split] at at_ ⊢
        have some_ := List.length_pos_iff.mpr (piece_deterministic.nonempty piece)
        simp only [tokenAt_piece piece at_, bind, Except.bind]
        rcases ih (i + word.length + if closed then 0 else 1) (by omega) with
          ⟨ts, closed', others, read⟩ | ⟨none_, e, refused⟩
        · rw [drop_piece piece at_] at others
          refine .inl ⟨token.toList ++ ts, closed && closed', .next piece others, ?_⟩
          rw [read, List.append_assoc]
          rfl
        · refine .inr ⟨?_, e, by rw [refused]⟩
          rintro ⟨ts, closed', whole⟩
          rw [drop_piece piece at_] at none_
          exact none_ (whole.tail piece_deterministic piece)
    · exact .inl (ended past)

theorem tokenize_spec (input : String) :
    (∃ ts closed, Lexes Piece input.toList ts closed ∧
      tokenize input = .ok (ts ++ [⟨.eof, ""⟩])) ∨
    (¬ ∃ ts closed, Lexes Piece input.toList ts closed) ∧
      ∃ e, tokenize input = .error (.refused e) := by
  have spec := tokensFrom_spec input.toList input input.toList.length 0 (by omega)
  rwa [List.drop_zero] at spec

theorem piece_skips : Skips Piece fun c => Text.isWhitespace c = true := by
  intro word rest closed piece
  cases piece with
  | blank blank => exact ⟨rfl, fun c member => List.mem_singleton.mp member ▸ blank⟩

/-- How a token is written, where it is a path, a literal or a relation. -/
def Token.Spells (token : Token) (word rest : List Char) (closed : Bool) : Prop :=
  match token.kind with
  | .dollarPath => word = token.raw.toList ∧ (∃ names, word = '$' :: '.' :: names) ∧
      ∀ c ∈ word, pathChar c = true
  | .number => word = token.raw.toList ∧ word ≠ [] ∧ ∀ c ∈ word, numberChar c = true ∨ c = '-'
  | .str => '"' ∉ token.raw.toList ∧
      (closed = true → word = '"' :: (token.raw.toList ++ ['"']))
  | .true => word = "true".toList
  | .false => word = "false".toList
  | .null => word = "null".toList
  | .gt => word = ['>'] ∧ rest.head? ≠ some '='
  | .lt => word = ['<'] ∧ rest.head? ≠ some '='
  | .gte => word = ['>', '=']
  | .lte => word = ['<', '=']
  | .eq => word = ['=', '=']
  | .neq => word = ['!', '=']
  | _ => True

theorem Piece.spells {token : Token} {closed : Bool} (piece : Piece word rest (some token) closed) :
    token.Spells word rest closed := by
  cases piece with
  | path inside after =>
    refine ⟨(String.toList_ofList ..).symm, ⟨_, rfl⟩, ?_⟩
    simpa [pathChar] using inside
  | literal inside => simpa [Token.Spells] using inside
  | unclosed inside => simpa [Token.Spells] using inside
  | positive digit inside after =>
    refine ⟨(String.toList_ofList ..).symm, List.cons_ne_nil _ _, ?_⟩
    intro c member
    rcases List.mem_cons.mp member with rfl | later
    · exact .inl (by simp [numberChar, digit])
    · exact .inl (inside c later)
  | negative digit inside after =>
    refine ⟨(String.toList_ofList ..).symm, List.cons_ne_nil _ _, ?_⟩
    intro c member
    rcases List.mem_cons.mp member with rfl | member
    · exact .inr rfl
    · rcases List.mem_cons.mp member with rfl | later
      · exact .inl (by simp [numberChar, digit])
      · exact .inl (inside c later)
  | pair operator =>
    unfold twoChars at operator
    split_ifs at operator with gt lt eq not and or
    all_goals
      obtain ⟨rfl, rfl⟩ := Prod.mk.inj (Option.some.inj operator)
      simp [Token.Spells, *]
  | single operator alone =>
    unfold oneChar at operator
    split_ifs at operator with gt lt
    all_goals
      obtain rfl := Option.some.inj operator
      simp_all [Token.Spells, twoChars]
  | word known after =>
    simp only [words, List.mem_cons, Prod.mk.injEq, List.not_mem_nil, or_false] at known
    rcases known with ⟨rfl, rfl⟩ | ⟨rfl, rfl⟩ | ⟨rfl, rfl⟩ <;> rfl

end Tokenizer
end Nps.Nop.Condition
