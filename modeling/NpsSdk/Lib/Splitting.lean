import Mathlib.Data.List.DropRight
import Mathlib.Data.List.TakeWhile
import NpsSdk.Lib.Text

/-! Lists of texts that are written with a separator in between, and read back. -/
namespace Text

section Parts
variable {separator : Char} {chars front back part : List Char}

attribute [local simp] splitChars

theorem splitChars_ne_nil : splitChars separator chars ≠ [] := by
  induction chars with
  | nil => simp
  | cons c rest ih =>
    unfold splitChars
    split
    · exact List.cons_ne_nil _ _
    · split <;> exact List.cons_ne_nil _ _

/-- No part has the separator in it. -/
theorem separator_notMem (member : part ∈ splitChars separator chars) : separator ∉ part := by
  induction chars generalizing part with
  | nil =>
    rw [splitChars, List.mem_singleton] at member
    exact member ▸ List.not_mem_nil
  | cons c rest ih =>
    unfold splitChars at member
    split at member
    · rcases List.mem_cons.mp member with rfl | later
      · exact List.not_mem_nil
      · exact ih later
    · rename_i different
      split at member
      · rename_i empty
        exact absurd empty splitChars_ne_nil
      · rename_i first others parts
        rcases List.mem_cons.mp member with rfl | later
        · have free := ih (parts ▸ List.mem_cons_self)
          simpa [Ne.symm different] using free
        · exact ih (parts ▸ List.mem_cons_of_mem _ later)

/-- Every other character is in some part. -/
theorem mem_splitChars {c : Char} (member : c ∈ chars) (other : c ≠ separator) :
    ∃ part ∈ splitChars separator chars, c ∈ part := by
  induction chars with
  | nil => cases member
  | cons first rest ih =>
    have later (inside : c ∈ rest) : ∃ part ∈ splitChars separator (first :: rest), c ∈ part := by
      obtain ⟨part, found, within⟩ := ih inside
      unfold splitChars
      split
      · exact ⟨part, List.mem_cons_of_mem _ found, within⟩
      · split
        · rename_i empty
          exact absurd empty splitChars_ne_nil
        · rename_i head others parts
          rw [parts] at found
          rcases List.mem_cons.mp found with rfl | found
          · exact ⟨_, List.mem_cons_self, List.mem_cons_of_mem _ within⟩
          · exact ⟨part, List.mem_cons_of_mem _ found, within⟩
    rcases List.mem_cons.mp member with rfl | inside
    · unfold splitChars
      rw [if_neg other]
      split
      · exact ⟨_, List.mem_cons_self, List.mem_cons_self⟩
      · exact ⟨_, List.mem_cons_self, List.mem_cons_self⟩
    · exact later inside

theorem splitChars_append : splitChars separator (front ++ separator :: back) =
    splitChars separator front ++ splitChars separator back := by
  induction front with
  | nil => simp
  | cons c rest ih =>
    simp only [List.cons_append, splitChars, ih]
    split
    · rfl
    · cases parts : splitChars separator rest with
      | nil => exact absurd parts splitChars_ne_nil
      | cons first others => rfl

theorem splitChars_continue : splitChars separator (front ++ back) =
    (splitChars separator front).dropLast ++
      splitChars separator ((splitChars separator front).getLast?.getD [] ++ back) := by
  induction front with
  | nil => simp
  | cons c rest ih =>
    cases parts : splitChars separator rest with
    | nil => exact absurd parts splitChars_ne_nil
    | cons first others =>
      rw [parts] at ih
      by_cases same : c = separator
      · simp [same, parts, ih]
      · cases others with
        | nil =>
          simp only [List.dropLast_singleton, List.nil_append, List.getLast?_singleton,
            Option.getD_some] at ih
          simp [same, parts, ih]
        | cons second others => simp [same, parts, ih]

theorem splitChars_plain (plain : separator ∉ chars) : splitChars separator chars = [chars] := by
  induction chars with
  | nil => rfl
  | cons c rest ih =>
    obtain ⟨first, others⟩ := not_or.mp (mt List.mem_cons.mpr plain)
    simp only [splitChars, if_neg (Ne.symm first), ih others]

theorem splitChars_front {first : List Char} {others : List (List Char)} (plain : separator ∉ front)
    (split : splitChars separator back = first :: others) :
    splitChars separator (front ++ back) = (front ++ first) :: others := by
  induction front with
  | nil => exact split
  | cons c rest ih =>
    obtain ⟨other, plain⟩ := not_or.mp (mt List.mem_cons.mpr plain)
    rw [List.cons_append, splitChars, if_neg (Ne.symm other), ih plain]
    rfl

def joinChars (separator : Char) : List (List Char) → List Char
  | [] => []
  | [part] => part
  | part :: rest => part ++ separator :: joinChars separator rest

theorem mem_splitChars_join {parts : List (List Char)} (member : part ∈ parts)
    (plain : separator ∉ part) : part ∈ splitChars separator (joinChars separator parts) := by
  induction parts with
  | nil => cases member
  | cons first rest ih =>
    cases rest with
    | nil =>
      cases List.mem_singleton.mp member
      rw [joinChars, splitChars_plain plain]
      exact List.mem_singleton_self _
    | cons second others =>
      change part ∈ splitChars separator (first ++ separator :: joinChars separator (second :: others))
      rw [splitChars_append, List.mem_append]
      rcases List.mem_cons.mp member with rfl | later
      · left
        rw [splitChars_plain plain]
        exact List.mem_singleton_self _
      · exact .inr (ih later)

end Parts

theorem breakOn_eq_some {separator text before after : List Char}
    (found : breakOn separator text = some (before, after)) : text = before ++ (separator ++ after) := by
  induction text generalizing before with
  | nil =>
    unfold breakOn at found
    split_ifs at found with empty
    cases found
    simp [empty]
  | cons c rest ih =>
    unfold breakOn at found
    split_ifs at found with here
    · cases found
      exact (List.prefix_iff_eq_append.mp (List.isPrefixOf_iff_prefix.mp here)).symm
    · obtain ⟨⟨front, back⟩, later, same⟩ := Option.map_eq_some_iff.mp found
      cases same
      rw [ih later, List.cons_append]

theorem breakOn_append {mark : Char} {marks before after : List Char} (fresh : mark ∉ before) :
    breakOn (mark :: marks) (before ++ mark :: (marks ++ after)) = some (before, after) := by
  induction before with
  | nil =>
    rw [List.nil_append, breakOn, if_pos]
    · simp
    · simp
  | cons c rest ih =>
    obtain ⟨first, others⟩ := not_or.mp (mt List.mem_cons.mpr fresh)
    rw [List.cons_append, breakOn, if_neg (by simp [first]), ih others]
    rfl

theorem afterLast_append {mark : Char} {front last : List Char} (plain : mark ∉ last) :
    ((front ++ mark :: last).reverse.takeWhile (· ≠ mark)).reverse = last := by
  have whole : last.reverse.takeWhile (· ≠ mark) = last.reverse := by
    rw [List.takeWhile_eq_self_iff]
    intro c member
    have other : c ≠ mark := fun same => plain (same ▸ List.mem_reverse.mp member)
    simpa using other
  rw [List.reverse_append, List.reverse_cons, List.append_assoc, List.takeWhile_append, whole,
    if_pos rfl]
  simp

theorem trim_toList (text : String) :
    (trim text).toList = (text.toList.dropWhile isWhitespace).rdropWhile isWhitespace := by
  simp [trim, trimEnd, trimStart, List.rdropWhile]

theorem trim_trim (text : String) : trim (trim text) = trim text := by
  apply String.toList_inj.mp
  rw [trim_toList (trim text), trim_toList text]
  generalize front : text.toList.dropWhile isWhitespace = chars
  have started : chars.dropWhile isWhitespace = chars := by
    rw [← front, List.dropWhile_idempotent]
  have kept : (chars.rdropWhile isWhitespace).dropWhile isWhitespace =
      chars.rdropWhile isWhitespace := by
    rw [List.dropWhile_eq_self_iff] at started ⊢
    intro some_
    -- The first character is that of the text before its end was trimmed.
    have cut := List.rdropWhile_prefix isWhitespace (l := chars)
    rw [cut.getElem some_]
    exact started (lt_of_lt_of_le some_ cut.length_le)
  rw [kept, List.rdropWhile_idempotent]

theorem trim_split (text : String) :
    ∃ front back, text.toList = front ++ ((trim text).toList ++ back) ∧
      (∀ c ∈ front, isWhitespace c = true) ∧ ∀ c ∈ back, isWhitespace c = true := by
  refine ⟨text.toList.takeWhile isWhitespace,
    (text.toList.dropWhile isWhitespace).rtakeWhile isWhitespace, ?_, ?_, ?_⟩
  · rw [trim_toList, List.rdropWhile_append_rtakeWhile, List.takeWhile_append_dropWhile]
  · exact fun c member => List.mem_takeWhile_imp member
  · exact fun c member => List.mem_rtakeWhile_imp member

theorem dropWhile_between {p : Char → Bool} {front core : List Char}
    (before : ∀ c ∈ front, p c = true) (first : ∀ c ∈ core.head?, p c = false) :
    (front ++ core).dropWhile p = core := by
  rw [List.dropWhile_append_of_pos before]
  cases core with
  | nil => rfl
  | cons c rest => exact List.dropWhile_cons_of_neg (by simp [first c rfl])

theorem trim_between {front core back : List Char} (before : ∀ c ∈ front, isWhitespace c = true)
    (after : ∀ c ∈ back, isWhitespace c = true) (some_ : core ≠ [])
    (first : ∀ c ∈ core.head?, isWhitespace c = false)
    (last : ∀ c ∈ core.getLast?, isWhitespace c = false) :
    trim (String.ofList (front ++ (core ++ back))) = String.ofList core := by
  apply String.toList_inj.mp
  have started : (front ++ (core ++ back)).dropWhile isWhitespace = core ++ back := by
    refine dropWhile_between before ?_
    rwa [List.head?_append_of_ne_nil _ some_]
  have ended : (back.reverse ++ core.reverse).dropWhile isWhitespace = core.reverse := by
    refine dropWhile_between (fun c member => after c (List.mem_reverse.mp member)) ?_
    rwa [List.head?_reverse]
  rw [trim_toList, String.toList_ofList, String.toList_ofList, started, List.rdropWhile,
    List.reverse_append, ended, List.reverse_reverse]

theorem notMem_trim {c : Char} {text : String} (free : c ∉ text.toList) : c ∉ (trim text).toList := by
  rw [trim_toList]
  intro member
  have front := (List.rdropWhile_prefix isWhitespace _).sublist.mem member
  exact free ((List.dropWhile_sublist _).mem front)

/-- A text with a character that is no white space is not blank. -/
theorem trim_ne_empty {text : String} {c : Char} (member : c ∈ text.toList)
    (visible : isWhitespace c = false) : trim text ≠ "" := by
  intro blank
  have nothing : (trim text).toList = [] := by rw [blank]; rfl
  rw [trim_toList, List.rdropWhile_eq_nil_iff] at nothing
  have all : text.toList.dropWhile isWhitespace = [] := by
    cases left : text.toList.dropWhile isWhitespace with
    | nil => rfl
    | cons d rest =>
      have first := List.head?_dropWhile_not isWhitespace text.toList
      rw [left] at first
      have white := nothing d (left ▸ List.mem_cons_self)
      exact absurd (white.symm.trans first) (by decide)
  rw [List.dropWhile_eq_nil_iff] at all
  rw [all c member] at visible
  cases visible

theorem trim_space (chars : List Char) :
    trim (String.ofList (' ' :: chars)) = trim (String.ofList chars) := by
  have blank : isWhitespace ' ' = true := by decide
  simp only [trim, trimStart, String.toList_ofList, List.dropWhile_cons, blank, if_true]

theorem splitChars_space {separator : Char} (other : separator ≠ ' ') (chars : List Char) :
    (splitChars separator (' ' :: chars)).map (fun part => trim (String.ofList part)) =
      (splitChars separator chars).map fun part => trim (String.ofList part) := by
  rw [splitChars, if_neg other.symm]
  cases parts : splitChars separator chars with
  | nil => exact absurd parts splitChars_ne_nil
  | cons part rest => rw [List.map_cons, List.map_cons, trim_space]

/-- Texts that are free of the separator are read back between separators and blanks, but for the white
space around them. -/
theorem trim_split_intercalate {separator : Char} (other : separator ≠ ' ') {texts : List String}
    (plain : ∀ text ∈ texts, separator ∉ text.toList) (some_ : texts ≠ []) :
    (split separator ((String.ofList [separator, ' ']).intercalate texts)).map trim = texts.map trim := by
  simp only [split, List.map_map]
  induction texts with
  | nil => exact absurd rfl some_
  | cons text rest ih =>
    have first := plain text List.mem_cons_self
    cases rest with
    | nil =>
      rw [String.intercalate_singleton, splitChars_plain first]
      simp
    | cons next rest =>
      have later := ih (fun t member => plain t (List.mem_cons_of_mem _ member)) (List.cons_ne_nil _ _)
      rw [String.intercalate_cons_cons, String.toList_append, String.toList_append, String.toList_ofList,
        List.append_assoc, List.cons_append, splitChars_append, splitChars_plain first, List.map_append]
      have own : [text.toList].map (trim ∘ String.ofList) = [trim text] := by simp
      rw [own]
      exact congrArg ([trim text] ++ ·) ((splitChars_space other _).trans later)

end Text
