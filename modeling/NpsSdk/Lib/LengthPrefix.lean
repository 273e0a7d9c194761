import Mathlib.Data.Nat.Digits.Lemmas
import NpsSdk.Lib.Wire

/-! Values written as a tag, a length and a content. A length below 128 is one byte; any other is the
count of its bytes and then these. The distinguished form is the one without leading zeros. -/
namespace LengthPrefix
open Wire (Bytes number)

/-- The bytes spell the number, with at most so many bytes after the count. -/
inductive Spells (most : Nat) : Bytes → Nat → Prop where
  | short (first : UInt8) : first.toNat < 128 → Spells most [first] first.toNat
  | long (first : UInt8) (digits : Bytes) : first.toNat = 128 + digits.length → digits ≠ [] →
      digits.length ≤ most → Spells most (first :: digits) (number digits)

theorem Spells.mono {most more n : Nat} {header : Bytes} (spells : Spells most header n)
    (greater : most ≤ more) : Spells more header n := by
  cases spells with
  | short first small => exact .short first small
  | long first digits count some_ few => exact .long first digits count some_ (few.trans greater)

theorem Spells.lt {most n : Nat} {header : Bytes} (spells : Spells (most + 1) header n) :
    n < 256 ^ (most + 1) := by
  cases spells with
  | short first small =>
    have one : 256 ^ 1 ≤ 256 ^ (most + 1) := Nat.pow_le_pow_right (by decide) (by omega)
    omega
  | long first digits count some_ few =>
    exact Nat.lt_of_lt_of_le (Wire.number_lt digits) (Nat.pow_le_pow_right (by decide) few)

theorem Spells.unique {most n m : Nat} {header other s t : Bytes} (spells : Spells most header n)
    (spells' : Spells most other m) (same : header ++ s = other ++ t) : header = other ∧ n = m ∧ s = t := by
  cases spells with
  | short first small =>
    cases spells' with
    | short first' small' =>
      cases same
      exact ⟨rfl, rfl, rfl⟩
    | long first' digits count =>
      cases same
      omega
  | long first digits count some_ few =>
    cases spells' with
    | short first' small =>
      cases same
      omega
    | long first' digits' count' =>
      obtain ⟨rfl, rest⟩ := List.cons_eq_cons.mp same
      obtain ⟨rfl, rfl⟩ := List.append_inj rest (by omega)
      exact ⟨rfl, rfl, rfl⟩

def numberBytes (n : Nat) : Bytes := ((Nat.digits 256 n).map UInt8.ofNat).reverse

def lengthBytes (n : Nat) : Bytes :=
  if n < 128 then [UInt8.ofNat n]
  else UInt8.ofNat (128 + (numberBytes n).length) :: numberBytes n

def element (tag : UInt8) (content : Bytes) : Bytes :=
  tag :: (lengthBytes content.length ++ content)

example : element 0x04 [1, 2] = [0x04, 0x02, 1, 2] := by decide

theorem element_length (tag : UInt8) (content : Bytes) :
    content.length < (element tag content).length := by
  simp only [element, List.length_cons, List.length_append]
  omega

theorem number_reverse_digits {digits : List Nat} (small : ∀ d ∈ digits, d < 256) :
    number (digits.map UInt8.ofNat).reverse = Nat.ofDigits 256 digits := by
  induction digits with
  | nil => rfl
  | cons d rest ih =>
    have low : (UInt8.ofNat d).toNat = d := by
      rw [UInt8.toNat_ofNat', Nat.mod_eq_of_lt (small d List.mem_cons_self)]
    rw [List.map_cons, List.reverse_cons, Wire.number_append, low,
      ih fun e later => small e (List.mem_cons_of_mem _ later), Nat.ofDigits_cons]
    exact Nat.add_comm _ _

theorem number_numberBytes (n : Nat) : number (numberBytes n) = n := by
  rw [numberBytes, number_reverse_digits fun d member => Nat.digits_lt_base (by decide) member,
    Nat.ofDigits_digits]

theorem numberBytes_length_le {n count : Nat} : (numberBytes n).length ≤ count ↔ n < 256 ^ count := by
  rw [numberBytes, List.length_reverse, List.length_map, Nat.digits_length_le_iff (by decide)]

theorem toNat_count {n : Nat} (sized : n < 256 ^ 127) :
    (UInt8.ofNat (128 + (numberBytes n).length)).toNat = 128 + (numberBytes n).length := by
  have few := numberBytes_length_le.mpr sized
  rw [UInt8.toNat_ofNat', Nat.mod_eq_of_lt (by omega)]

theorem spells_lengthBytes {most n : Nat} (few : most ≤ 127) (fits : n < 256 ^ most) :
    Spells most (lengthBytes n) n := by
  unfold lengthBytes
  split
  · rename_i small
    have first : (UInt8.ofNat n).toNat = n := by
      rw [UInt8.toNat_ofNat', Nat.mod_eq_of_lt (by omega)]
    have short := @Spells.short most (UInt8.ofNat n) (by omega)
    rwa [first] at short
  · rename_i large
    have some_ : numberBytes n ≠ [] := by
      intro none
      have value := number_numberBytes n
      rw [none] at value
      exact large (value ▸ (by decide : number [] < 128))
    have sized : n < 256 ^ 127 := Nat.lt_of_lt_of_le fits (Nat.pow_le_pow_right (by decide) few)
    have long := Spells.long _ _ (toNat_count sized) some_ (numberBytes_length_le.mpr fits)
    rwa [number_numberBytes] at long

end LengthPrefix
