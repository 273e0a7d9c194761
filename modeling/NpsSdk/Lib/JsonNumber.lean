import NpsSdk.Lib.Binary32
import NpsSdk.Lib.Json

/-! JSON numbers as 64-bit integers and as binary64 values, and the equality of values that
goes with them: an integer is never equal to a float. Why a derived reader refuses a value is left
out. -/
namespace Json

/-- What a decimal literal spells. -/
def decimal (text : List Char) : ℚ :=
  let digits (chars : List Char) : ℕ := Nat.ofDigitChars 10 chars 0
  let (negative, text) := match text with
    | '-' :: rest => (true, rest)
    | _ => (false, text)
  let mantissa := text.takeWhile fun c => c != 'e' && c != 'E'
  let whole := mantissa.takeWhile (· != '.')
  let fraction := (mantissa.dropWhile (· != '.')).drop 1
  let exponent : ℤ := match (text.dropWhile fun c => c != 'e' && c != 'E').drop 1 with
    | '-' :: power => -(digits power : ℤ)
    | '+' :: power => digits power
    | power => digits power
  let value : ℚ := (digits (whole ++ fraction) : ℚ) * 10 ^ (exponent - fraction.length)
  if negative then -value else value

namespace Number

/-- A minus sign, which a zero may have too. -/
def negative : Number → Bool
  | int n => n < 0
  | float literal => literal.text.head? == some '-'

def asU64 : Number → Option ℕ
  | int (.ofNat n) => if n < 2 ^ 64 then some n else none
  | _ => none

def asI64 : Number → Option ℤ
  | int n => if -2 ^ 63 ≤ n ∧ n < 2 ^ 63 then some n else none
  | _ => none

theorem asI64_range {number : Number} {n : ℤ} (read : number.asI64 = some n) :
    -2 ^ 63 ≤ n ∧ n < 2 ^ 63 := by
  unfold asI64 at read
  split at read
  · split at read
    · rename_i range
      cases read
      exact range
    · cases read
  · cases read

def asF64 : Number → ℚ
  | int n => Binary64.round n
  | float literal => Binary64.round (decimal literal.text)

def exact : Number → ℚ
  | int n => n
  | float literal => (float literal).asF64

/-- The number narrowed to binary32, as its sign and the 31 bits below it. -/
def single (n : Number) : Option UInt32 :=
  if |n.asF64| < 2 ^ 1024 then
    some (.ofNat ((if n.negative then 2 ^ 31 else 0) + Binary32.bits |n.asF64|))
  else none

def same : Number → Number → Bool
  | int n, int m => n = m
  | float a, float b => (float a).asF64 = (float b).asF64
  | _, _ => false

end Number

mutual
def Value.same : Value → Value → Bool
  | .null, .null => true
  | .bool a, .bool b => a = b
  | .number n, .number m => n.same m
  | .string s, .string t => s = t
  | .array xs, .array ys => itemsSame xs ys
  | .object fs, .object gs => fieldsSame fs gs
  | _, _ => false

def itemsSame : List Value → List Value → Bool
  | [], [] => true
  | x :: xs, y :: ys => x.same y && itemsSame xs ys
  | _, _ => false

def fieldsSame : List (String × Value) → List (String × Value) → Bool
  | [], [] => true
  | (key, x) :: fs, (other, y) :: gs => key = other && x.same y && fieldsSame fs gs
  | _, _ => false
end

def Value.asU64 : Value → Option ℕ
  | number n => n.asU64
  | _ => none

def Value.asF64 : Value → Option ℚ
  | number n => some n.asF64
  | _ => none

theorem Number.single_toNat {n : Number} {bits : UInt32} (narrowed : n.single = some bits) :
    bits.toNat = (if n.negative then 2 ^ 31 else 0) + Binary32.bits |n.asF64| := by
  unfold single at narrowed
  split at narrowed
  · cases narrowed
    have small : Binary32.bits |n.asF64| ≤ 255 * 2 ^ 23 := min_le_right _ _
    rw [UInt32.toNat_ofNat', Nat.mod_eq_of_lt]
    split <;> omega
  · contradiction

theorem decimal_minus {text : List Char} (unsigned : ∀ rest, text ≠ '-' :: rest) :
    decimal ('-' :: text) = -decimal text := by
  unfold decimal
  split
  split <;> simp_all

section Digits
variable {n : ℕ}

theorem digit_plain {c : Char} (member : c ∈ Nat.toDigits 10 n) : c ≠ 'e' ∧ c ≠ 'E' ∧ c ≠ '.' := by
  refine ⟨?_, ?_, ?_⟩ <;> rintro rfl <;> exact absurd (toDigits_isDigit member) (by decide)

theorem digits_unsigned (suffix rest : List Char) : Nat.toDigits 10 n ++ suffix ≠ '-' :: rest := by
  intro same
  cases digits : Nat.toDigits 10 n with
  | nil => exact Nat.toDigits_ne_nil digits
  | cons first tail =>
    rw [digits] at same
    cases same
    exact toDigits_ne_minus digits

theorem digits_parts (n : ℕ) {fraction power : List Char}
    (short : (fraction ++ power).takeWhile (fun c => c != 'e' && c != 'E') = fraction)
    (long : (fraction ++ power).dropWhile (fun c => c != 'e' && c != 'E') = power)
    (dot : fraction.takeWhile (· != '.') = []) :
    (Nat.toDigits 10 n ++ (fraction ++ power)).takeWhile (fun c => c != 'e' && c != 'E') =
        Nat.toDigits 10 n ++ fraction ∧
      (Nat.toDigits 10 n ++ (fraction ++ power)).dropWhile (fun c => c != 'e' && c != 'E') =
        power ∧
      (Nat.toDigits 10 n ++ fraction).takeWhile (· != '.') = Nat.toDigits 10 n ∧
      (Nat.toDigits 10 n ++ fraction).dropWhile (· != '.') = fraction.dropWhile (· != '.') := by
  refine ⟨?_, ?_, ?_, ?_⟩
  · rw [List.takeWhile_append_of_pos fun c member => by simp [digit_plain member], short]
  · rw [List.dropWhile_append_of_pos fun c member => by simp [digit_plain member], long]
  · rw [List.takeWhile_append_of_pos fun c member => by simp [digit_plain member], dot,
      List.append_nil]
  · rw [List.dropWhile_append_of_pos fun c member => by simp [digit_plain member]]

theorem decimal_point : decimal (Nat.toDigits 10 n ++ (['.', '0'] ++ [])) = n := by
  obtain ⟨mantissa, exponent, whole, rest⟩ :=
    @digits_parts n ['.', '0'] [] rfl rfl rfl
  have tenths : Nat.ofDigitChars 10 (Nat.toDigits 10 n ++ ['0']) 0 = 10 * n := by
    rw [Nat.ofDigitChars_append, Nat.ofDigitChars_ten_toDigits]
    rfl
  unfold decimal
  split
  rename_i sign
  split at sign
  · exact absurd ‹_› (digits_unsigned _ _)
  · cases sign
    simp only [mantissa, exponent, whole, rest, Bool.false_eq_true, if_false]
    change ((Nat.ofDigitChars 10 (Nat.toDigits 10 n ++ ['0']) 0 : ℕ) : ℚ) * 10 ^ (0 - 1 : ℤ) = n
    rw [tenths]
    push_cast
    norm_num
    ring

theorem decimal_scaled : decimal (Nat.toDigits 10 n ++ ([] ++ ['e', '-', '1', '4', '9'])) =
    n * 10 ^ (-149 : ℤ) := by
  obtain ⟨mantissa, exponent, whole, rest⟩ :=
    @digits_parts n [] ['e', '-', '1', '4', '9'] rfl rfl rfl
  unfold decimal
  split
  rename_i sign
  split at sign
  · exact absurd ‹_› (digits_unsigned _ _)
  · cases sign
    simp only [mantissa, exponent, whole, rest, Bool.false_eq_true, if_false]
    change ((Nat.ofDigitChars 10 (Nat.toDigits 10 n ++ []) 0 : ℕ) : ℚ) * 10 ^ (-149 - 0 : ℤ) = _
    rw [List.append_nil, Nat.ofDigitChars_ten_toDigits, sub_zero]

end Digits

def exactDigits (q : ℚ) : List Char :=
  if q.den = 1 then Nat.toDigits 10 q.num.toNat ++ (['.', '0'] ++ [])
  else Nat.toDigits 10 (q * 10 ^ 149).num.toNat ++ ([] ++ ['e', '-', '1', '4', '9'])

theorem exactDigits_unsigned (q : ℚ) (rest : List Char) : exactDigits q ≠ '-' :: rest := by
  unfold exactDigits
  split <;> exact digits_unsigned _ _

theorem decimal_exactDigits {q : ℚ} (magnitude : Binary32.Magnitude q) :
    decimal (exactDigits q) = q := by
  obtain ⟨m, e, -, least, rfl⟩ := magnitude
  have nonnegative : 0 ≤ (m : ℚ) * 2 ^ e :=
    mul_nonneg (Nat.cast_nonneg m) (zpow_nonneg (by norm_num) e)
  unfold exactDigits
  split
  · rename_i whole
    rw [decimal_point]
    have num : (((m : ℚ) * 2 ^ e).num : ℚ) = m * 2 ^ e := Rat.coe_int_num_of_den_eq_one whole
    have sign : 0 ≤ ((m : ℚ) * 2 ^ e).num := Rat.num_nonneg.mpr nonnegative
    rw [← Int.cast_natCast, Int.toNat_of_nonneg sign, num]
  · obtain ⟨shift, rfl⟩ : ∃ shift : ℕ, e = shift - 149 := ⟨(e + 149).toNat, by omega⟩
    have halves : (2 : ℚ) ^ ((shift : ℤ) - 149) * 2 ^ 149 = 2 ^ shift := by
      rw [← zpow_natCast, ← zpow_natCast, ← zpow_add₀ (by norm_num)]
      congr 1
      push_cast
      omega
    have scaled : (m : ℚ) * 2 ^ ((shift : ℤ) - 149) * 10 ^ 149 =
        ((m * 2 ^ shift * 5 ^ 149 : ℕ) : ℚ) := by
      have tens : (10 : ℚ) ^ 149 = 2 ^ 149 * 5 ^ 149 := by norm_num
      rw [tens]
      push_cast
      rw [← halves]
      ring
    rw [decimal_scaled, scaled, Rat.num_natCast, Int.toNat_natCast, ← scaled, mul_assoc]
    norm_num

/-- Every binary32 magnitude of either sign is a binary64 value. -/
theorem round_magnitude {q : ℚ} (magnitude : Binary32.Magnitude q) (negative : Bool) :
    Binary64.round (if negative then -q else q) = if negative then -q else q := by
  obtain ⟨m, e, small, least, rfl⟩ := magnitude
  set signed : ℤ := if negative then -m else m with signed_eq
  have value : (if negative then -((m : ℚ) * 2 ^ e) else (m : ℚ) * 2 ^ e) = signed * 2 ^ e := by
    cases negative <;> simp [signed_eq]
  rw [value]
  by_cases zero : signed = 0
  · rw [zero, Int.cast_zero, zero_mul]
    exact_mod_cast Binary64.round_int (n := 0) (by norm_num)
  · have weight : (0 : ℚ) < 2 ^ e := zpow_pos (by norm_num) e
    have size : |(signed : ℚ) * 2 ^ e| < 2 ^ (e + 24) := by
      have magnitude : |(signed : ℚ)| = m := by cases negative <;> simp [signed_eq]
      have less : (m : ℚ) < 2 ^ (24 : ℤ) := by exact_mod_cast small
      rw [abs_mul, magnitude, abs_of_pos weight, zpow_add₀ (by norm_num), mul_comm]
      exact mul_lt_mul_of_pos_left less weight
    have positive : 0 < |(signed : ℚ) * 2 ^ e| :=
      abs_pos.mpr (mul_ne_zero (Int.cast_ne_zero.mpr zero) weight.ne')
    have log : Int.log 2 |(signed : ℚ) * 2 ^ e| < e + 24 :=
      (Int.lt_zpow_iff_log_lt (by norm_num) positive).mp (by exact_mod_cast size)
    obtain ⟨shift, exponent⟩ : ∃ shift : ℕ,
        e = Binary64.exponent ((signed : ℚ) * 2 ^ e) + shift :=
      ⟨(e - Binary64.exponent ((signed : ℚ) * 2 ^ e)).toNat, by
        unfold Binary64.exponent
        omega⟩
    refine Binary64.round_of_multiple (signed * 2 ^ shift) ?_
    conv_lhs => rw [exponent, zpow_add₀ (by norm_num), zpow_natCast]
    push_cast
    ring

def exactLiteral (negative : Bool) (q : ℚ) : FloatLiteral where
  text := if negative then '-' :: exactDigits q else exactDigits q
  numeric := by
    have digits : ∀ c ∈ exactDigits q, numberChar c = true := by
      intro c member
      unfold exactDigits at member
      have point : ∀ c ∈ ['.', '0'] ++ [], numberChar c = true :=
        List.all_eq_true.mp rfl
      have power : ∀ c ∈ [] ++ ['e', '-', '1', '4', '9'], numberChar c = true :=
        List.all_eq_true.mp rfl
      split at member <;> rcases List.mem_append.mp member with member | member
      · exact numberChar_of_isDigit (toDigits_isDigit member)
      · exact point c member
      · exact numberChar_of_isDigit (toDigits_isDigit member)
      · exact power c member
    intro c member
    split at member
    · rcases List.mem_cons.mp member with rfl | member
      · rfl
      · exact digits c member
    · exact digits c member
  marked := by
    have marked : '.' ∈ exactDigits q ∨ 'e' ∈ exactDigits q := by
      unfold exactDigits
      split
      · exact .inl (List.mem_append_right _ (by decide))
      · exact .inr (List.mem_append_right _ (by decide))
    split
    · exact marked.imp (List.mem_cons_of_mem _) (List.mem_cons_of_mem _)
    · exact marked

theorem asF64_exactLiteral {q : ℚ} (magnitude : Binary32.Magnitude q) (negative : Bool) :
    (Number.float (exactLiteral negative q)).asF64 = if negative then -q else q := by
  have spelled : decimal (exactLiteral negative q).text = if negative then -q else q := by
    cases negative with
    | false => exact decimal_exactDigits magnitude
    | true =>
      change decimal ('-' :: exactDigits q) = -q
      rw [decimal_minus (exactDigits_unsigned q), decimal_exactDigits magnitude]
  change Binary64.round (decimal _) = _
  rw [spelled, round_magnitude magnitude]

end Json

namespace Json
namespace Reading

/-- The fields of a structure, by their names or all of them by their positions. -/
def fields (names : List String) : Value → Option (String → Option Value)
  | .object entries => some fun name => get name entries
  | .array items =>
    if items.length = names.length then some fun name => get name (names.zip items) else none
  | _ => none

def optional {α : Type} (read : Value → Option α) : Option Value → Option (Option α)
  | none => some none
  | some .null => some none
  | some value => (read value).map some

def below (bound : Nat) (value : Value) : Option Nat := value.asU64.filter (· < bound)

theorem below_integer {bound n : Nat} (small : n < bound) (wide : bound ≤ 2 ^ 64) :
    below bound (integer n) = some n := by
  have read : (integer n).asU64 = some n := if_pos (Nat.lt_of_lt_of_le small wide)
  rw [below, read, Option.filter_some, if_pos (decide_eq_true small)]

theorem optional_map {α : Type} {read : Value → Option α} {write : α → Value}
    (back : ∀ a, read (write a) = some a) (some_ : ∀ a, write a ≠ .null) (field : Option α) :
    optional read (field.map write) = some field := by
  cases field with
  | none => rfl
  | some a =>
    rw [Option.map_some]
    unfold optional
    split
    · contradiction
    · rename_i null
      exact absurd (Option.some.inj null) (some_ a)
    · rename_i given _ same
      cases Option.some.inj same
      rw [back a]
      rfl

def kept : Option Value → Option Value
  | some .null => none
  | field => field

theorem optional_some (field : Option Value) : optional some field = some (kept field) := by
  cases field with
  | none => rfl
  | some value => cases value <;> rfl

theorem kept_eq_iff {field : Option Value} : kept field = field ↔ field ≠ some .null := by
  cases field with
  | none => simp [kept]
  | some value => cases value <;> simp [kept]

end Reading

end Json
