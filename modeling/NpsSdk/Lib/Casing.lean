import NpsSdk.Lib.Splitting

/-! The lower-case forms of texts: what they say about the text, and what does not depend on case. -/
namespace Text

theorem isLower_iff {c : Char} : c.isLower = true ↔ 97 ≤ c.toNat ∧ c.toNat ≤ 122 := by
  change (decide (97 ≤ c.toNat) && decide (c.toNat ≤ 122)) = true ↔ _
  simp

theorem isUpper_iff {c : Char} : c.isUpper = true ↔ 65 ≤ c.toNat ∧ c.toNat ≤ 90 := by
  change decide (c.val ≥ 'A'.val ∧ c.val ≤ 'Z'.val) = true ↔ _
  exact decide_eq_true_iff

theorem isAlpha_iff {c : Char} : c.isAlpha = true ↔ c.isUpper = true ∨ c.isLower = true :=
  Bool.or_eq_true_iff

theorem toLower_upper {c : Char} (upper : c.isUpper = true) : c.toLower.toNat = c.toNat + 32 := by
  have range : 65 ≤ c.toNat ∧ c.toNat ≤ 90 := isUpper_iff.mp upper
  have moved : c.toLower = ⟨c.val + ('a'.val - 'A'.val), _⟩ := dif_pos range
  have value : c.toLower.toNat = (c.toNat + 32) % 2 ^ 32 := by
    rw [moved]
    rfl
  omega

theorem toLower_other {c : Char} (other : c.isUpper = false) : c.toLower = c := by
  refine dif_neg fun range => ?_
  rw [isUpper_iff.mpr range] at other
  cases other

theorem toLower_eq {c d : Char} (same : c.toLower = d) (fixed : d.isLower = false) : c = d := by
  cases upper : c.isUpper with
  | true =>
    have range := isUpper_iff.mp upper
    have value := toLower_upper upper
    rw [same] at value
    rw [isLower_iff.mpr (by omega)] at fixed
    cases fixed
  | false => rwa [toLower_other upper] at same

theorem toLower_toLower (c : Char) : c.toLower.toLower = c.toLower := by
  apply toLower_other
  rw [Bool.eq_false_iff]
  intro again
  have range := isUpper_iff.mp again
  cases upper : c.isUpper with
  | true =>
    have first := isUpper_iff.mp upper
    have value := toLower_upper upper
    omega
  | false =>
    rw [toLower_other upper, upper] at again
    cases again

theorem isDigit_iff {c : Char} : c.isDigit = true ↔ 48 ≤ c.toNat ∧ c.toNat ≤ 57 := by
  change (decide (48 ≤ c.toNat) && decide (c.toNat ≤ 57)) = true ↔ _
  simp

theorem toLower_digit {c : Char} (digit : c.isDigit = true) : c.toLower = c := by
  have range := isDigit_iff.mp digit
  apply toLower_other
  rw [Bool.eq_false_iff]
  intro upper
  have letter := isUpper_iff.mp upper
  omega

theorem toLower_mark {c : Char} (mark : Char) (fixed : mark.isLower = false) (own : mark.toLower = mark) :
    c.toLower = mark ↔ c = mark := by
  constructor
  · exact fun same => toLower_eq same fixed
  · rintro rfl
    exact own

theorem isDigit_toLower (c : Char) : c.toLower.isDigit = c.isDigit := by
  cases digit : c.isDigit with
  | true => rw [toLower_digit digit, digit]
  | false =>
    rw [Bool.eq_false_iff]
    intro lower
    have plain : c.toLower.isLower = false := by
      rw [Bool.eq_false_iff]
      intro letter
      have first := isLower_iff.mp letter
      have last := isDigit_iff.mp lower
      omega
    rw [← toLower_eq rfl plain, digit] at lower
    cases lower

section Lists
variable {chars : List Char} {p : Char → Bool}

theorem map_toLower_map_toLower (chars : List Char) :
    (chars.map Char.toLower).map Char.toLower = chars.map Char.toLower := by
  rw [List.map_map]
  exact List.map_congr_left fun c _ => toLower_toLower c

theorem map_toLower_eq {same : List Char} (fixed : ∀ c ∈ same, c.isLower = false ∧ c.toLower = c) :
    chars.map Char.toLower = same ↔ chars = same := by
  constructor
  · rintro rfl
    have back : ∀ c ∈ chars, c.toLower = c := fun c member =>
      (toLower_eq rfl (fixed _ (List.mem_map_of_mem member)).1).symm
    exact ((List.map_congr_left back).trans (List.map_id _)).symm
  · rintro rfl
    exact (List.map_congr_left fun c member => (fixed c member).2).trans (List.map_id _)

theorem takeWhile_lower (blind : ∀ c, p c.toLower = p c) :
    (chars.map Char.toLower).takeWhile p = (chars.takeWhile p).map Char.toLower := by
  rw [List.takeWhile_map, show p ∘ Char.toLower = p from funext blind]

theorem dropWhile_lower (blind : ∀ c, p c.toLower = p c) :
    (chars.map Char.toLower).dropWhile p = (chars.dropWhile p).map Char.toLower := by
  rw [List.dropWhile_map, show p ∘ Char.toLower = p from funext blind]

theorem splitChars_lower {separator : Char}
    (mark : ∀ c : Char, c.toLower = separator ↔ c = separator) :
    splitChars separator (chars.map Char.toLower) =
      (splitChars separator chars).map (List.map Char.toLower) := by
  induction chars with
  | nil => rfl
  | cons c rest ih =>
    simp only [List.map_cons, splitChars, ih, mark c]
    split
    · rfl
    · cases splitChars separator rest with
      | nil => rfl
      | cons part parts => rfl

end Lists

theorem toList_lowerAscii (text : String) :
    (lowerAscii text).toList = text.toList.map Char.toLower := String.toList_ofList

theorem lowerAscii_lowerAscii (text : String) : lowerAscii (lowerAscii text) = lowerAscii text := by
  rw [← String.toList_inj]
  simp only [toList_lowerAscii, map_toLower_map_toLower]

theorem parseInt?_lowerAscii (text : String) : parseInt? (lowerAscii text) = parseInt? text := by
  by_cases plain : ∀ c ∈ text.toList, c.isDigit = true ∨ c = '-' ∨ c = '+'
  · have same : lowerAscii text = text := by
      rw [← String.toList_inj, toList_lowerAscii]
      refine (List.map_congr_left fun c member => ?_).trans (List.map_id _)
      rcases plain c member with digit | rfl | rfl
      · exact toLower_digit digit
      · rfl
      · rfl
    rw [same]
  · have own : parseInt? text = none := by
      by_contra some_
      obtain ⟨n, parsed⟩ := Option.ne_none_iff_exists'.mp some_
      exact plain (parseInt?_char parsed)
    have lower : parseInt? (lowerAscii text) = none := by
      by_contra some_
      obtain ⟨n, parsed⟩ := Option.ne_none_iff_exists'.mp some_
      refine plain fun c member => ?_
      have small : c.toLower ∈ (lowerAscii text).toList := by
        rw [toList_lowerAscii]
        exact List.mem_map_of_mem member
      have char := parseInt?_char parsed _ small
      rwa [isDigit_toLower, toLower_mark _ rfl rfl, toLower_mark _ rfl rfl] at char
    rw [own, lower]

end Text
