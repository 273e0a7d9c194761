import NpsSdk.Lib.Json

/-! A compact JSON text has no control characters, and so is one line. -/
namespace Json

theorem escapeChar_printable {c d : Char} (member : d ∈ escapeChar c) : 0x20 ≤ d.toNat := by
  unfold escapeChar at member
  split at member
  · rename_i letter short
    rcases List.mem_cons.mp member with rfl | rest
    · decide
    · cases List.mem_singleton.mp rest
      unfold shortEscape at short
      split_ifs at short <;> cases short <;> decide
  · split at member
    · rename_i control
      have digits : ∀ n < 16, 0x20 ≤ (Nat.digitChar n).toNat := by decide
      simp only [List.mem_cons, List.not_mem_nil, or_false] at member
      rcases member with rfl | rfl | rfl | rfl | rfl | rfl
      · decide
      · decide
      · decide
      · decide
      · exact digits _ (by omega)
      · exact digits _ (by omega)
    · cases List.mem_singleton.mp member
      omega

theorem quote_printable {text : String} {c : Char} (member : c ∈ quote text) : 0x20 ≤ c.toNat := by
  simp only [quote, List.cons_append, List.mem_cons, List.mem_append, List.mem_flatMap,
    List.not_mem_nil, or_false] at member
  rcases member with rfl | ⟨d, -, inside⟩ | rfl
  · decide
  · exact escapeChar_printable inside
  · decide

theorem numberChar_printable {c : Char} (numeric : numberChar c = true) : 0x20 ≤ c.toNat := by
  simp only [numberChar, Char.isDigit, Bool.or_eq_true, Bool.and_eq_true, decide_eq_true_eq,
    beq_iff_eq] at numeric
  rcases numeric with ((((⟨low, -⟩ | rfl) | rfl) | rfl) | rfl) | rfl
  · exact Nat.le_trans (by decide) (UInt32.le_iff_toNat_le.mp low)
  · decide
  · decide
  · decide
  · decide
  · decide

mutual
theorem Value.compact_printable : ∀ (v : Value), ∀ c ∈ v.compact, 0x20 ≤ c.toNat
  | .null => by simp [Value.compact]
  | .bool true => by simp [Value.compact]
  | .bool false => by simp [Value.compact]
  | .number n => fun c member => numberChar_printable (n.compact_numeric c member)
  | .string text => fun _ member => quote_printable member
  | .array items => by
    have inside := compactItems_printable items
    simp only [Value.compact, List.cons_append, List.mem_cons, List.mem_append, List.not_mem_nil, or_false]
    rintro c (rfl | member | rfl)
    · decide
    · exact inside c member
    · decide
  | .object fields => by
    have inside := compactFields_printable fields
    simp only [Value.compact, List.cons_append, List.mem_cons, List.mem_append, List.not_mem_nil, or_false]
    rintro c (rfl | member | rfl)
    · decide
    · exact inside c member
    · decide

theorem compactItems_printable : ∀ (items : List Value), ∀ c ∈ compactItems items, 0x20 ≤ c.toNat
  | [] => by simp [compactItems]
  | item :: rest => by
    have first := item.compact_printable
    have others := compactMoreItems_printable rest
    simp only [compactItems, List.mem_append]
    rintro c (member | member)
    · exact first c member
    · exact others c member

theorem compactMoreItems_printable :
    ∀ (items : List Value), ∀ c ∈ compactMoreItems items, 0x20 ≤ c.toNat
  | [] => by simp [compactMoreItems]
  | item :: rest => by
    have first := item.compact_printable
    have others := compactMoreItems_printable rest
    simp only [compactMoreItems, List.cons_append, List.mem_cons, List.mem_append]
    rintro c (rfl | member | member)
    · decide
    · exact first c member
    · exact others c member

theorem compactFields_printable : ∀ (fields : Fields), ∀ c ∈ compactFields fields, 0x20 ≤ c.toNat
  | [] => by simp [compactFields]
  | (key, value) :: rest => by
    have first := value.compact_printable
    have others := compactMoreFields_printable rest
    simp only [compactFields, List.mem_cons, List.mem_append]
    rintro c ((member | rfl | member) | member)
    · exact quote_printable member
    · decide
    · exact first c member
    · exact others c member

theorem compactMoreFields_printable :
    ∀ (fields : Fields), ∀ c ∈ compactMoreFields fields, 0x20 ≤ c.toNat
  | [] => by simp [compactMoreFields]
  | (key, value) :: rest => by
    have first := value.compact_printable
    have others := compactMoreFields_printable rest
    simp only [compactMoreFields, List.cons_append, List.mem_cons, List.mem_append]
    rintro c (rfl | (member | rfl | member) | member)
    · decide
    · exact quote_printable member
    · decide
    · exact first c member
    · exact others c member
end

theorem Value.text_printable {value : Value} {c : Char} (member : c ∈ value.text.toList) :
    0x20 ≤ c.toNat := by
  rw [text, String.toList_ofList] at member
  exact value.compact_printable c member

theorem Value.text_ne_empty (value : Value) : value.text.toList ≠ [] := by
  obtain ⟨c, tail, same, -⟩ := value.compact_cons
  rw [text, String.toList_ofList, same]
  exact List.cons_ne_nil c tail

end Json
