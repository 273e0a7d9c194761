import Mathlib.Algebra.Order.Floor.Semiring
import Mathlib.Data.Int.Log
import Mathlib.Data.Rat.Floor
import Mathlib.Tactic.Common
import Mathlib.Tactic.FieldSimp
import Mathlib.Tactic.Linarith
import Mathlib.Tactic.NormNum
import Mathlib.Tactic.Positivity

/-! Finite values of binary64 floating point, as the rationals they are. -/
namespace Binary64

def nearest (q : ℚ) : ℤ :=
  let below := ⌊q⌋
  if q - below < 1 / 2 then below
  else if 1 / 2 < q - below then below + 1
  else if 2 ∣ below then below
  else below + 1

/-- The exponent of the last of the 53 bits of a value of this size. -/
def exponent (q : ℚ) : ℤ := max (Int.log 2 |q| - 52) (-1074)

def round (q : ℚ) : ℚ := nearest (q / 2 ^ exponent q) * 2 ^ exponent q

/-- The value of a rational of any size; 2 ^ 1024, which no finite value reaches, stands for
infinity. -/
def ofRat (q : ℚ) : ℚ := max (-2 ^ 1024) (min (2 ^ 1024) (round q))

/-- The decimal number of this many digits next to a positive value, as digits and a power
of ten. -/
def decimalOf (q : ℚ) (count : ℕ) : ℕ × ℤ :=
  let power := Int.log 10 q + 1 - count
  ((nearest (q / 10 ^ power)).toNat, power)

/-- The fewest digits that are read back as the value. -/
def shortest (q : ℚ) : ℕ × ℤ :=
  (((List.range' 1 17).map (decimalOf q)).find? fun decimal =>
    round (decimal.1 * 10 ^ decimal.2) = q).getD (decimalOf q 17)

/-- The value in positional notation, with no exponent and as few digits as tell it apart. -/
def display (q : ℚ) : String :=
  if q = 0 then "0"
  else
    let (digits, power) := shortest |q|
    let chars := Nat.toDigits 10 digits
    let text := match power with
      | .ofNat zeros => chars ++ List.replicate zeros '0'
      | .negSucc n =>
        let padded := List.replicate (n + 2 - chars.length) '0' ++ chars
        padded.take (padded.length - (n + 1)) ++ '.' :: padded.drop (padded.length - (n + 1))
    String.ofList (if q < 0 then '-' :: text else text)

theorem nearest_int (n : ℤ) : nearest n = n := by
  simp [nearest]

/-- The nearest integer is one of the two around the value. -/
theorem nearest_cases (q : ℚ) :
    nearest q = ⌊q⌋ ∧ q - ⌊q⌋ ≤ 1 / 2 ∨ nearest q = ⌊q⌋ + 1 ∧ 1 / 2 ≤ q - ⌊q⌋ := by
  simp only [nearest]
  split_ifs with low high even
  · exact .inl ⟨rfl, low.le⟩
  · exact .inr ⟨rfl, high.le⟩
  · exact .inl ⟨rfl, not_lt.mp high⟩
  · exact .inr ⟨rfl, not_lt.mp low⟩

theorem le_nearest {q : ℚ} {n : ℤ} (below : n ≤ q) : n ≤ nearest q := by
  have floor : n ≤ ⌊q⌋ := Int.le_floor.mpr below
  rcases nearest_cases q with ⟨same, -⟩ | ⟨same, -⟩ <;> omega

theorem nearest_le {q : ℚ} {n : ℤ} (above : q ≤ n) : nearest q ≤ n := by
  rcases nearest_cases q with ⟨same, -⟩ | ⟨same, half⟩
  · rw [same]
    exact_mod_cast (Int.floor_le q).trans above
  · have less : (⌊q⌋ : ℚ) < n := by linarith
    have floor : ⌊q⌋ < n := by exact_mod_cast less
    omega

/-- No integer is closer than the nearest one. -/
theorem nearest_closest (q : ℚ) (n : ℤ) : |nearest q - q| ≤ |n - q| := by
  have floor := Int.floor_le q
  have ceil := Int.lt_floor_add_one q
  rcases le_or_gt n ⌊q⌋ with small | large
  · have below : (n : ℚ) ≤ ⌊q⌋ := by exact_mod_cast small
    rw [abs_of_nonpos (show (n : ℚ) - q ≤ 0 by linarith)]
    rcases nearest_cases q with ⟨same, half⟩ | ⟨same, half⟩
    · rw [same, abs_of_nonpos (by linarith)]
      linarith
    · rw [same, Int.cast_add, Int.cast_one, abs_of_nonneg (by linarith)]
      linarith
  · have above : (⌊q⌋ : ℚ) + 1 ≤ n := by exact_mod_cast large
    rw [abs_of_nonneg (show (0 : ℚ) ≤ n - q by linarith)]
    rcases nearest_cases q with ⟨same, half⟩ | ⟨same, half⟩
    · rw [same, abs_of_nonpos (by linarith)]
      linarith
    · rw [same, Int.cast_add, Int.cast_one, abs_of_nonneg (by linarith)]
      linarith

theorem round_of_multiple {q : ℚ} (n : ℤ) (multiple : q = n * 2 ^ exponent q) : round q = q := by
  have scaled : q / 2 ^ exponent q = n := by
    rw [div_eq_iff (zpow_ne_zero _ (by norm_num))]
    exact multiple
  rw [round, scaled, nearest_int]
  exact multiple.symm

theorem exponent_int {n : ℤ} (small : |n| < 2 ^ 53) : exponent n ≤ 0 := by
  have log : Int.log 2 |(n : ℚ)| ≤ 52 := by
    by_cases zero : n = 0
    · subst zero
      simp
    · have positive : 0 < |(n : ℚ)| := abs_pos.mpr (Int.cast_ne_zero.mpr zero)
      refine Int.lt_add_one_iff.mp ((Int.lt_zpow_iff_log_lt (by norm_num) positive).mp ?_)
      exact_mod_cast small
  exact max_le (by omega) (by norm_num)

theorem round_int {n : ℤ} (small : |n| < 2 ^ 53) : round n = n := by
  obtain ⟨k, exponent⟩ := Int.exists_eq_neg_ofNat (exponent_int small)
  refine round_of_multiple (n * 2 ^ k) ?_
  rw [exponent]
  push_cast
  rw [mul_assoc, ← zpow_natCast, ← zpow_add₀ (by norm_num)]
  simp

end Binary64
