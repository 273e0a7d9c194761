import NpsSdk.Lib.Glob
import NpsSdk.Nip.Ca.Ra

/-! The patterns of an enrollment allowlist. They are matched byte by byte, so a `?` stands for one byte of an
identifier: which patterns and which identifiers are none the worse for it. -/
namespace Nps.Nip.Ca
open Glob
open String (utf8EncodeChar)

/-- Over bytes the matcher is right. -/
theorem globBytes_iff (pattern input : List UInt8) :
    globBytes pattern input = true ↔ Language 0x2A 0x3F pattern input := by
  have different : (0x2A : UInt8) ≠ 0x3F := by decide
  fun_induction globBytes pattern input with
  | case1 input => rw [language_nil, List.isEmpty_iff]
  | case2 pattern ih =>
    refine ih.trans (language_any.trans ?_).symm
    simp
  | case3 pattern byte input ih ih' =>
    rw [language_any, Bool.or_eq_true]
    refine or_congr ih (ih'.trans ⟨fun inside => ⟨byte, input, rfl, inside⟩, ?_⟩)
    rintro ⟨_, _, ⟨⟩, inside⟩
    exact inside
  | case4 c pattern plain =>
    refine iff_of_false Bool.false_ne_true fun inside => ?_
    by_cases mark : c = 0x3F
    · obtain ⟨_, _, none, -⟩ := (language_one different).mp (mark ▸ inside)
      cases none
    · obtain ⟨_, none, -⟩ := (language_same plain mark).mp inside
      cases none
  | case5 c pattern byte input plain ih =>
    rw [Bool.and_eq_true, Bool.or_eq_true, beq_iff_eq, beq_iff_eq]
    by_cases mark : c = 0x3F
    · subst mark
      rw [and_iff_right (.inl rfl), language_one different]
      refine ih.trans ?_
      refine ⟨fun inside => ⟨byte, input, rfl, inside⟩, ?_⟩
      rintro ⟨_, _, ⟨⟩, inside⟩
      exact inside
    · rw [language_same plain mark]
      refine (and_congr (or_iff_right mark) ih).trans ⟨fun both => ⟨input, by rw [both.1], both.2⟩, ?_⟩
      rintro ⟨_, ⟨⟩, inside⟩
      exact ⟨rfl, inside⟩

def continues (byte : UInt8) : Prop := byte.toNat / 64 = 2

theorem encode_cons (c : Char) : ∃ lead tail, utf8EncodeChar c = lead :: tail ∧
    ¬ continues lead ∧ ∀ byte ∈ tail, continues byte := by
  have bound : c.val.toNat < 1114112 := by
    rcases c.valid with low | ⟨-, high⟩
    · omega
    · exact high
  unfold utf8EncodeChar continues
  dsimp only
  split_ifs with one two three
  all_goals refine ⟨_, _, rfl, by rw [UInt8.toNat_ofNat']; omega, ?_⟩
  · exact fun _ => nofun
  all_goals
    simp only [List.mem_cons, List.not_mem_nil, or_false, forall_eq_or_imp, forall_eq, UInt8.toNat_ofNat']
    omega

theorem utf8EncodeChar_any : utf8EncodeChar '*' = [0x2A] := by decide

theorem utf8EncodeChar_one : utf8EncodeChar '?' = [0x3F] := by decide

theorem encode_ne {c d : Char} {byte mark : UInt8} (different : c ≠ d) (member : byte ∈ utf8EncodeChar c)
    (small : mark.toNat < 128) (same : d.toNat = mark.toNat) : byte ≠ mark := by
  rintro rfl
  exact different (Char.toNat_inj.mp ((Text.utf8EncodeChar_plain member small).trans same.symm))

/-- One byte off the text and what is left of the character before it. -/
theorem popped {tail : List UInt8} {text : List Char} {P : List UInt8 → Prop} {Q : Nat → List Char → Prop}
    (inner : ∀ byte ∈ tail, continues byte)
    (same : ∀ tail' text', (∀ byte ∈ tail', continues byte) →
      (tail' ++ text'.flatMap utf8EncodeChar).length < (tail ++ text.flatMap utf8EncodeChar).length →
      (P (tail' ++ text'.flatMap utf8EncodeChar) ↔ Q tail'.length text')) :
    (∃ byte rest, tail ++ text.flatMap utf8EncodeChar = byte :: rest ∧ P rest) ↔
      ∃ k' text', Pop Char.utf8Size tail.length text k' text' ∧ Q k' text' := by
  cases tail with
  | cons byte tail =>
    have later := same tail text (fun b member => inner b (List.mem_cons_of_mem _ member)) (by simp)
    constructor
    · rintro ⟨_, _, ⟨⟩, holds⟩
      exact ⟨_, _, .unit _ _, later.mp holds⟩
    · rintro ⟨_, _, ⟨⟩, holds⟩
      exact ⟨_, _, rfl, later.mpr holds⟩
  | nil =>
    cases text with
    | nil =>
      refine iff_of_false ?_ ?_
      · rintro ⟨_, _, none, -⟩
        cases none
      · rintro ⟨_, _, ⟨⟩, -⟩
    | cons c text =>
      obtain ⟨lead, tail, spelled, -, inside⟩ := encode_cons c
      have size : c.utf8Size - 1 = tail.length := by
        rw [← String.length_utf8EncodeChar, spelled, List.length_cons, Nat.add_sub_cancel]
      have bytes : [] ++ (c :: text).flatMap utf8EncodeChar = lead :: (tail ++ text.flatMap utf8EncodeChar) := by
        rw [List.nil_append, List.flatMap_cons, spelled, List.cons_append]
      have later := same tail text inside (by rw [bytes, List.length_cons]; omega)
      rw [bytes]
      constructor
      · rintro ⟨_, _, ⟨⟩, holds⟩
        exact ⟨_, _, .symbol c text, size ▸ later.mp holds⟩
      · rintro ⟨_, _, ⟨⟩, holds⟩
        exact ⟨lead, _, rfl, later.mpr (size ▸ holds)⟩

theorem starts_with {tail rest : List UInt8} {c : Char} {text : List Char}
    (inner : ∀ byte ∈ tail, continues byte)
    (whole : tail ++ text.flatMap utf8EncodeChar = utf8EncodeChar c ++ rest) :
    tail = [] ∧ ∃ back, text = c :: back ∧ rest = back.flatMap utf8EncodeChar := by
  obtain ⟨lead, others, spelled, begins, -⟩ := encode_cons c
  cases tail with
  | cons byte tail =>
    rw [spelled, List.cons_append, List.cons_append] at whole
    exact absurd ((List.cons.inj whole).1 ▸ inner byte List.mem_cons_self) begins
  | nil =>
    have front : [c].flatMap utf8EncodeChar ++ rest = text.flatMap utf8EncodeChar := by
      rw [List.flatMap_singleton, ← whole, List.nil_append]
    exact ⟨rfl, Text.utf8_prefix front⟩

/-- Over the bytes of a text, each character counts as many times as it has bytes. -/
theorem language_utf8 {pattern text : List Char} {tail : List UInt8}
    (inner : ∀ byte ∈ tail, continues byte) :
    Language 0x2A 0x3F (pattern.flatMap utf8EncodeChar) (tail ++ text.flatMap utf8EncodeChar) ↔
      Stands '*' '?' Char.utf8Size tail.length pattern text := by
  have different : ('*' : Char) ≠ '?' := by decide
  have positive : ∀ c : Char, 0 < c.utf8Size := Char.utf8Size_pos
  induction pattern generalizing text tail with
  | nil =>
    rw [List.flatMap_nil, language_nil, stands_nil _ _ positive, List.append_eq_nil_iff,
      List.length_eq_zero_iff]
    refine and_congr_right fun _ => ⟨fun none => ?_, fun none => none ▸ rfl⟩
    cases text with
    | nil => rfl
    | cons c text =>
      obtain ⟨lead, others, spelled, -⟩ := encode_cons c
      rw [List.flatMap_cons, spelled] at none
      cases none
  | cons c pattern ih =>
    rw [List.flatMap_cons]
    by_cases star : c = '*'
    · subst star
      rw [utf8EncodeChar_any, List.singleton_append]
      generalize size : (tail ++ text.flatMap utf8EncodeChar).length = n
      induction n using Nat.strong_induction_on generalizing tail text with
      | _ n later =>
        rw [language_any, stands_any _ _ positive]
        refine or_congr (ih inner) (popped inner fun tail' text' inner' shorter => ?_)
        exact later _ (size ▸ shorter) inner' rfl
    · by_cases mark : c = '?'
      · subst mark
        rw [utf8EncodeChar_one, List.singleton_append, language_one (by decide), stands_one positive different]
        exact popped inner fun tail' text' inner' _ => ih inner'
      · have plain : ∀ byte ∈ utf8EncodeChar c, byte ≠ 0x2A ∧ byte ≠ 0x3F := fun byte member =>
          ⟨encode_ne star member (by decide) (by decide), encode_ne mark member (by decide) (by decide)⟩
        rw [language_append plain, stands_same positive star mark]
        constructor
        · rintro ⟨rest, whole, inside⟩
          obtain ⟨rfl, back, rfl, rfl⟩ := starts_with inner whole
          exact ⟨rfl, back, rfl, (@ih back [] fun _ => nofun).mp inside⟩
        · rintro ⟨none, back, rfl, inside⟩
          obtain rfl := List.length_eq_zero_iff.mp none
          exact ⟨_, rfl, (@ih back [] fun _ => nofun).mpr inside⟩

/-- The matcher says what the language of the pattern says. -/
def GlobAgrees (pattern identifier : String) : Prop :=
  globMatch pattern identifier = true ↔ Language '*' '?' pattern.toList identifier.toList

theorem globMatch_iff (pattern identifier : String) : globMatch pattern identifier = true ↔
    Stands '*' '?' Char.utf8Size 0 pattern.toList identifier.toList := by
  have bytes : globBytes (Text.utf8 pattern) (Text.utf8 identifier) = true ↔
      Stands '*' '?' Char.utf8Size 0 pattern.toList identifier.toList :=
    (globBytes_iff _ _).trans (@language_utf8 _ _ [] fun _ => nofun)
  rw [globMatch, Bool.or_eq_true, beq_iff_eq, bytes]
  refine or_iff_right_of_imp ?_
  rintro rfl
  rw [← bytes, globBytes_iff]
  have all : Language 0x2A 0x3F (0x2A :: []) (Text.utf8 identifier ++ []) := .any _ .nil
  rwa [List.append_nil] at all

theorem utf8Size_single (c : Char) : c.toNat < 128 ↔ c.utf8Size = 1 := by
  have small : c.val ≤ 0x7F ↔ c.toNat < 128 := UInt32.le_iff_toNat_le.trans Nat.lt_succ_iff.symm
  rw [← small, Char.utf8Size]
  split_ifs <;> simp_all

/-- A pattern is right about every identifier just when each run of its wildcards has no `?`, or has one
and a `*`; and every pattern is right about an identifier just when it is in ASCII. -/
theorem globMatch_exact_iff (pattern identifier : String) :
    (GlobAgrees pattern identifier ↔
      (Stands '*' '?' Char.utf8Size 0 pattern.toList identifier.toList ↔
        Stands '*' '?' (fun _ => 1) 0 pattern.toList identifier.toList)) ∧
    ((∀ other, GlobAgrees pattern other) ↔ Steady '*' '?' pattern.toList) ∧
    ((∀ other, GlobAgrees other identifier) ↔ ∀ c ∈ identifier.toList, c.toNat < 128) := by
  have different : ('*' : Char) ≠ '?' := by decide
  have positive : ∀ c : Char, 0 < c.utf8Size := Char.utf8Size_pos
  refine ⟨by rw [GlobAgrees, globMatch_iff, language_iff different], ?_, ?_⟩
  · rw [← stands_all_iff different positive (by decide : 'é'.utf8Size = 2) (by decide : 'a'.utf8Size = 1)]
    refine ⟨fun same text => ?_, fun same other => (globMatch_iff _ _).trans (same _)⟩
    have agrees := (globMatch_iff _ _).symm.trans (same (String.ofList text))
    rwa [String.toList_ofList] at agrees
  · have single (c : Char) : c.toNat < 128 ↔ c.utf8Size = 1 := utf8Size_single c
    simp only [single]
    rw [← every_pattern_iff different positive]
    refine ⟨fun same text => ?_, fun same other => (globMatch_iff _ _).trans (same _)⟩
    have agrees := (globMatch_iff _ _).symm.trans (same (String.ofList text))
    rwa [String.toList_ofList] at agrees

/-- One character is refused where one is asked for, if it takes two bytes. -/
theorem wide_refused : ¬ ∀ pattern identifier : String, GlobAgrees pattern identifier := by
  intro agrees
  have inside : Language '*' '?' "?".toList "é".toList := .one 'é' .nil
  have matched := (globMatch_iff _ _).mp ((agrees "?" "é").mpr inside)
  have pattern : "?".toList = ['?'] := String.toList_ofList
  have identifier : "é".toList = ['é'] := String.toList_ofList
  rw [pattern, identifier, stands_one Char.utf8Size_pos (by decide)] at matched
  obtain ⟨_, _, ⟨⟩, none⟩ := matched
  exact absurd ((stands_nil _ _ Char.utf8Size_pos).mp none).1 (by decide)

end Nps.Nip.Ca
