import NpsSdk.Lib.JsonNumber

/-! The equality of values is an equivalence. -/
namespace Json

theorem Number.same_refl (n : Number) : n.same n = true := by
  cases n <;> simp [same]

theorem Number.same_comm (n m : Number) : n.same m = m.same n := by
  cases n <;> cases m <;> simp [same, eq_comm]

theorem Number.same_congr {n m : Number} (equal : n.same m = true) (k : Number) :
    n.same k = m.same k := by
  cases n <;> cases m <;> cases k <;> simp_all [same]

mutual
theorem Value.same_refl : ∀ v : Value, v.same v = true
  | .null => rfl
  | .bool a => by simp [Value.same]
  | .number n => n.same_refl
  | .string s => by simp [Value.same]
  | .array xs => itemsSame_refl xs
  | .object fs => fieldsSame_refl fs

theorem itemsSame_refl : ∀ xs : List Value, itemsSame xs xs = true
  | [] => rfl
  | x :: xs => by rw [itemsSame, Value.same_refl x, itemsSame_refl xs, Bool.and_self]

theorem fieldsSame_refl : ∀ fs : Fields, fieldsSame fs fs = true
  | [] => rfl
  | (key, x) :: fs => by
    rw [fieldsSame, Value.same_refl x, fieldsSame_refl fs, decide_eq_true rfl, Bool.and_self]
    rfl
end

mutual
theorem Value.same_comm : ∀ v w : Value, v.same w = w.same v
  | .null, w => by cases w <;> rfl
  | .bool a, w => by cases w <;> simp [Value.same, eq_comm]
  | .number n, w => by
    cases w <;> first | rfl | exact n.same_comm _
  | .string s, w => by cases w <;> simp [Value.same, eq_comm]
  | .array xs, w => by
    cases w <;> first | rfl | exact itemsSame_comm xs _
  | .object fs, w => by
    cases w <;> first | rfl | exact fieldsSame_comm fs _

theorem itemsSame_comm : ∀ xs ys : List Value, itemsSame xs ys = itemsSame ys xs
  | [], [] => rfl
  | [], _ :: _ => rfl
  | _ :: _, [] => rfl
  | x :: xs, y :: ys => by rw [itemsSame, itemsSame, Value.same_comm x y, itemsSame_comm xs ys]

theorem fieldsSame_comm : ∀ fs gs : Fields, fieldsSame fs gs = fieldsSame gs fs
  | [], [] => rfl
  | [], _ :: _ => rfl
  | _ :: _, [] => rfl
  | (key, x) :: fs, (other, y) :: gs => by
    rw [fieldsSame, fieldsSame, Value.same_comm x y, fieldsSame_comm fs gs]
    simp only [eq_comm]
end

mutual
theorem Value.same_congr : ∀ {v w : Value}, v.same w = true → ∀ u, v.same u = w.same u
  | .null, w, equal, u => by cases w <;> first | rfl | cases equal
  | .bool a, w, equal, u => by cases w <;> first | cases equal | (cases u <;> simp_all [Value.same])
  | .number n, w, equal, u => by
    cases w with
    | number m =>
      cases u <;> first | rfl | exact Number.same_congr equal _
    | _ => cases equal
  | .string s, w, equal, u => by cases w <;> first | cases equal | (cases u <;> simp_all [Value.same])
  | .array xs, w, equal, u => by
    cases w with
    | array ys =>
      cases u <;> first | rfl | exact itemsSame_congr equal _
    | _ => cases equal
  | .object fs, w, equal, u => by
    cases w with
    | object gs =>
      cases u <;> first | rfl | exact fieldsSame_congr equal _
    | _ => cases equal

theorem itemsSame_congr : ∀ {xs ys : List Value}, itemsSame xs ys = true →
    ∀ zs, itemsSame xs zs = itemsSame ys zs
  | [], [], _, _ => rfl
  | [], _ :: _, equal, _ => by cases equal
  | _ :: _, [], equal, _ => by cases equal
  | x :: xs, y :: ys, equal, zs => by
    obtain ⟨first, rest⟩ := Bool.and_eq_true_iff.mp equal
    cases zs with
    | nil => rfl
    | cons z zs => rw [itemsSame, itemsSame, Value.same_congr first z, itemsSame_congr rest zs]

theorem fieldsSame_congr : ∀ {fs gs : Fields}, fieldsSame fs gs = true →
    ∀ hs, fieldsSame fs hs = fieldsSame gs hs
  | [], [], _, _ => rfl
  | [], _ :: _, equal, _ => by cases equal
  | _ :: _, [], equal, _ => by cases equal
  | (key, x) :: fs, (other, y) :: gs, equal, hs => by
    obtain ⟨first, rest⟩ := Bool.and_eq_true_iff.mp equal
    obtain ⟨keys, values⟩ := Bool.and_eq_true_iff.mp first
    cases of_decide_eq_true keys
    cases hs with
    | nil => rfl
    | cons h hs =>
      rw [fieldsSame, fieldsSame, Value.same_congr values h.2, fieldsSame_congr rest hs]
end

end Json
