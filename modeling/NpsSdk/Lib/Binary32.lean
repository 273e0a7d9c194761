import NpsSdk.Lib.Binary64

/-! Magnitudes of binary32 floating point: rounding to the nearest of them, and the 31 bits
below the sign that hold one. -/
namespace Binary32

def exponent (q : ℚ) : ℤ := if q = 0 then -149 else max (Int.log 2 q - 23) (-149)

def significand (q : ℚ) : ℕ := (Binary64.nearest (q / 2 ^ exponent q)).toNat

/-- The magnitude that a rational is rounded to, ties to even, with no bound on its size. -/
def round (q : ℚ) : ℚ := significand q * 2 ^ exponent q

/-- The exponent field of all ones, which no finite magnitude has. -/
def infinity : ℕ := 255 * 2 ^ 23

def bits (q : ℚ) : ℕ := min ((exponent q + 149).toNat * 2 ^ 23 + significand q) infinity

/-- What the bits stand for, unless it is infinity or not a number. -/
def value (bits : ℕ) : Option ℚ :=
  let exponent : ℕ := bits / 2 ^ 23
  let fraction : ℕ := bits % 2 ^ 23
  if exponent ≥ 255 then none
  else if exponent = 0 then some (fraction * 2 ^ (-149 : ℤ))
  else some ((2 ^ 23 + fraction) * 2 ^ (exponent - 150 : ℤ))

def Magnitude (q : ℚ) : Prop := ∃ (m : ℕ) (e : ℤ), m < 2 ^ 24 ∧ -149 ≤ e ∧ q = m * 2 ^ e

theorem exponent_ge (q : ℚ) : -149 ≤ exponent q := by
  unfold exponent
  split_ifs
  · exact le_rfl
  · exact le_max_right _ _

private theorem pow_pos' (e : ℤ) : (0 : ℚ) < 2 ^ e := zpow_pos (by norm_num) e

theorem ne_zero_of_normal {q : ℚ} (normal : -149 < exponent q) : q ≠ 0 := by
  rintro rfl
  exact lt_irrefl _ normal

theorem scaled_ge {q : ℚ} (nonnegative : 0 ≤ q) (normal : -149 < exponent q) :
    2 ^ 23 ≤ q / 2 ^ exponent q := by
  have nonzero := ne_zero_of_normal normal
  have positive : 0 < q := lt_of_le_of_ne nonnegative nonzero.symm
  have log : exponent q = Int.log 2 q - 23 := by
    unfold exponent at normal ⊢
    rw [if_neg nonzero] at normal ⊢
    omega
  have below := Int.zpow_log_le_self (b := 2) (by norm_num) positive
  rw [le_div_iff₀ (pow_pos' _), log]
  calc (2 : ℚ) ^ 23 * 2 ^ (Int.log 2 q - 23) = 2 ^ Int.log 2 q := by
        rw [← zpow_natCast, ← zpow_add₀ (by norm_num)]
        congr 1
        push_cast
        omega
    _ ≤ q := by exact_mod_cast below

theorem scaled_lt (q : ℚ) : q / 2 ^ exponent q < 2 ^ 24 := by
  by_cases zero : q = 0
  · simp [zero]
  have above := Int.lt_zpow_succ_log_self (b := 2) (by norm_num) q
  rw [div_lt_iff₀ (pow_pos' _)]
  calc q < (2 : ℚ) ^ (Int.log 2 q + 1) := by exact_mod_cast above
    _ ≤ 2 ^ ((24 : ℕ) + exponent q) := by
        refine zpow_le_zpow_right₀ (by norm_num) ?_
        rw [exponent, if_neg zero]
        push_cast
        omega
    _ = 2 ^ 24 * 2 ^ exponent q := by
        rw [zpow_add₀ (by norm_num), zpow_natCast]

theorem significand_ge {q : ℚ} (nonnegative : 0 ≤ q) (normal : -149 < exponent q) :
    2 ^ 23 ≤ significand q := by
  have below : (2 ^ 23 : ℤ) ≤ Binary64.nearest (q / 2 ^ exponent q) :=
    Binary64.le_nearest (by exact_mod_cast scaled_ge nonnegative normal)
  unfold significand
  omega

theorem significand_le (q : ℚ) : significand q ≤ 2 ^ 24 := by
  have above : Binary64.nearest (q / 2 ^ exponent q) ≤ 2 ^ 24 :=
    Binary64.nearest_le (by exact_mod_cast (scaled_lt q).le)
  unfold significand
  omega

theorem significand_cast {q : ℚ} (nonnegative : 0 ≤ q) :
    (significand q : ℤ) = Binary64.nearest (q / 2 ^ exponent q) := by
  have below : 0 ≤ Binary64.nearest (q / 2 ^ exponent q) :=
    Binary64.le_nearest (by exact_mod_cast div_nonneg nonnegative (pow_pos' _).le)
  exact Int.toNat_of_nonneg below

/-- A field and a fraction, capped at infinity, are read back as they are. -/
theorem value_fields {field fraction : ℕ} (small : fraction < 2 ^ 23) :
    value (min (field * 2 ^ 23 + fraction) infinity) =
      if field ≥ 255 then none
      else if field = 0 then some ((fraction : ℚ) * 2 ^ (-149 : ℤ))
      else some ((2 ^ 23 + fraction : ℚ) * 2 ^ (field - 150 : ℤ)) := by
  rcases le_or_gt 255 field with large | finite
  · have capped : min (field * 2 ^ 23 + fraction) infinity = infinity := by
      unfold infinity
      omega
    rw [capped, if_pos large]
    rfl
  · have same : min (field * 2 ^ 23 + fraction) infinity = field * 2 ^ 23 + fraction := by
      unfold infinity
      omega
    have high : (field * 2 ^ 23 + fraction) / 2 ^ 23 = field := by omega
    have low : (field * 2 ^ 23 + fraction) % 2 ^ 23 = fraction := by omega
    simp only [same, value, high, low]

/-- A normal significand of a finite field is below the first magnitude out of range, and one
of the field of all ones is not. -/
theorem normal_lt (field : ℕ) {fraction : ℕ} (small : fraction < 2 ^ 23) :
    ((2 ^ 23 + fraction) * 2 ^ (field - 150 : ℤ) : ℚ) < 2 ^ 128 ↔ field < 255 := by
  have least : (0 : ℚ) ≤ fraction := Nat.cast_nonneg _
  have most : (fraction : ℚ) < 2 ^ 23 := by exact_mod_cast small
  have weight := pow_pos' (field - 150 : ℤ)
  constructor
  · intro below
    by_contra large
    have heavy : (2 : ℚ) ^ (105 : ℤ) ≤ 2 ^ (field - 150 : ℤ) :=
      zpow_le_zpow_right₀ (by norm_num) (by omega)
    have top : (2 : ℚ) ^ 128 = 2 ^ 23 * 2 ^ (105 : ℤ) := by norm_num
    nlinarith
  · intro finite
    have light : (2 : ℚ) ^ (field - 150 : ℤ) ≤ 2 ^ (104 : ℤ) :=
      zpow_le_zpow_right₀ (by norm_num) (by omega)
    have top : (2 : ℚ) ^ 128 = 2 ^ 24 * 2 ^ (104 : ℤ) := by norm_num
    calc ((2 ^ 23 + fraction) * 2 ^ (field - 150 : ℤ) : ℚ)
        < 2 ^ 24 * 2 ^ (field - 150 : ℤ) := by nlinarith
      _ ≤ 2 ^ 24 * 2 ^ (104 : ℤ) := by nlinarith
      _ = 2 ^ 128 := top.symm

/-- The bits are read back as the rounded magnitude, unless it is one binary32 does not reach. -/
theorem value_bits {q : ℚ} (nonnegative : 0 ≤ q) :
    value (bits q) = if round q < 2 ^ 128 then some (round q) else none := by
  obtain ⟨offset, scale⟩ : ∃ offset : ℕ, exponent q = offset - 149 :=
    ⟨(exponent q + 149).toNat, by have := exponent_ge q; omega⟩
  have carried := significand_le q
  have full := significand_ge nonnegative
  have shifted : bits q = min (offset * 2 ^ 23 + significand q) infinity := by
    rw [bits, scale, show ((offset : ℤ) - 149 + 149).toNat = offset by omega]
  rcases lt_or_ge (significand q) (2 ^ 23) with short | normal
  · have least : offset = 0 := by
      by_contra more
      have := full (by omega)
      omega
    have rounded : round q = significand q * 2 ^ (-149 : ℤ) := by
      rw [round, scale, least]
      norm_num
    have finite : round q < 2 ^ 128 := by
      have small : (significand q : ℚ) ≤ 2 ^ 23 := by exact_mod_cast short.le
      calc round q ≤ 2 ^ 23 * 2 ^ (-149 : ℤ) := by
            rw [rounded]
            exact mul_le_mul_of_nonneg_right small (pow_pos' _).le
        _ < 2 ^ 128 := by norm_num
    rw [shifted, least, value_fields short, if_neg (by omega), if_pos rfl, if_pos finite, rounded]
  · -- The significand is normal, or it was carried into the first one of the next exponent.
    obtain ⟨field, fraction, small, total, rounded⟩ : ∃ field fraction : ℕ, fraction < 2 ^ 23 ∧
        offset * 2 ^ 23 + significand q = (field + 1) * 2 ^ 23 + fraction ∧
        round q = (2 ^ 23 + fraction) * 2 ^ (((field + 1 : ℕ) : ℤ) - 150) := by
      rcases Nat.lt_or_ge (significand q) (2 ^ 24) with fits | wide
      · obtain ⟨fraction, sum⟩ := Nat.exists_eq_add_of_le normal
        refine ⟨offset, fraction, by omega, by omega, ?_⟩
        rw [round, scale, sum]
        push_cast
        ring_nf
      · have exact : significand q = 2 ^ 24 := by omega
        refine ⟨offset + 1, 0, by norm_num, by omega, ?_⟩
        rw [round, scale, exact, show (((offset + 1 + 1 : ℕ) : ℤ) - 150) = (offset : ℤ) - 149 + 1 by
          push_cast; ring, zpow_add_one₀ (by norm_num)]
        push_cast
        ring
    have finite := normal_lt (field + 1) small
    rw [shifted, total, value_fields small, rounded, if_neg (Nat.succ_ne_zero field)]
    by_cases large : field + 1 < 255
    · rw [if_pos (finite.mpr large), if_neg (by omega)]
    · rw [if_neg (mt finite.mp large), if_pos (by omega)]

theorem le_round {q : ℚ} (large : 2 ^ 128 ≤ q) : 2 ^ 128 ≤ round q := by
  have positive : 0 < q := lt_of_lt_of_le (by norm_num) large
  have log : 128 ≤ Int.log 2 q := (Int.zpow_le_iff_le_log (by norm_num) positive).mp (by
    exact_mod_cast large)
  have exponent_eq : exponent q = Int.log 2 q - 23 := by
    rw [exponent, if_neg positive.ne']
    omega
  have full : (2 : ℚ) ^ 23 ≤ significand q := by
    exact_mod_cast significand_ge positive.le (by omega)
  have heavy : (2 : ℚ) ^ (105 : ℤ) ≤ 2 ^ exponent q :=
    zpow_le_zpow_right₀ (by norm_num) (by omega)
  calc (2 : ℚ) ^ 128 = 2 ^ 23 * 2 ^ (105 : ℤ) := by norm_num
    _ ≤ (significand q : ℚ) * 2 ^ exponent q :=
      mul_le_mul full heavy (by norm_num) (Nat.cast_nonneg _)

theorem magnitude_round (q : ℚ) : Magnitude (round q) := by
  rcases Nat.lt_or_ge (significand q) (2 ^ 24) with fits | wide
  · exact ⟨significand q, exponent q, fits, exponent_ge q, rfl⟩
  · have exact : significand q = 2 ^ 24 := le_antisymm (significand_le q) wide
    refine ⟨2 ^ 23, exponent q + 1, by norm_num, by have := exponent_ge q; omega, ?_⟩
    rw [round, exact, zpow_add_one₀ (by norm_num)]
    push_cast
    ring

/-- No magnitude is closer than the rounded one. -/
theorem round_closest {q v : ℚ} (nonnegative : 0 ≤ q) (magnitude : Magnitude v) :
    |round q - q| ≤ |v - q| := by
  obtain ⟨m, e, small, least, rfl⟩ := magnitude
  -- Any multiple of the last bit's weight is at least as far away as the nearest one.
  have grid (n : ℤ) : |round q - q| ≤ |n * 2 ^ exponent q - q| := by
    have closest := Binary64.nearest_closest (q / 2 ^ exponent q) n
    rw [← significand_cast nonnegative, Int.cast_natCast] at closest
    have scaled (x : ℚ) : |x * 2 ^ exponent q - q| =
        |x - q / 2 ^ exponent q| * 2 ^ exponent q := by
      rw [← abs_of_pos (pow_pos' (exponent q)), ← abs_mul, sub_mul,
        abs_of_pos (pow_pos' (exponent q)), div_mul_cancel₀ _ (pow_pos' _).ne']
    rw [round, scaled, scaled]
    exact mul_le_mul_of_nonneg_right closest (pow_pos' _).le
  rcases le_or_gt (exponent q) e with coarse | fine
  · obtain ⟨shift, rfl⟩ := Int.le.dest coarse
    have multiple : (m : ℚ) * 2 ^ (exponent q + shift) = ((m * 2 ^ shift : ℤ) : ℚ) *
        2 ^ exponent q := by
      rw [zpow_add₀ (by norm_num), zpow_natCast]
      push_cast
      ring
    rw [multiple]
    exact grid _
  · -- A finer magnitude is below the first one of 24 bits, and so is farther than that one.
    have normal : -149 < exponent q := by omega
    have first : (2 : ℚ) ^ 23 * 2 ^ exponent q ≤ q :=
      (le_div_iff₀ (pow_pos' _)).mp (scaled_ge nonnegative normal)
    have below : (m : ℚ) * 2 ^ e ≤ 2 ^ 23 * 2 ^ exponent q := by
      have less : (m : ℚ) ≤ 2 ^ 24 := by exact_mod_cast small.le
      have weights : (2 : ℚ) ^ (e + 1) ≤ 2 ^ exponent q :=
        zpow_le_zpow_right₀ (by norm_num) (by omega)
      rw [zpow_add_one₀ (by norm_num)] at weights
      have := pow_pos' e
      nlinarith
    have far := grid (2 ^ 23)
    rw [Int.cast_pow, Int.cast_ofNat] at far
    rw [abs_of_nonpos (show (2 : ℚ) ^ 23 * 2 ^ exponent q - q ≤ 0 by linarith)] at far
    rw [abs_of_nonpos (show (m : ℚ) * 2 ^ e - q ≤ 0 by linarith)]
    linarith

end Binary32
