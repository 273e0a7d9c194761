import Mathlib.Algebra.Group.Int.Defs
import Mathlib.Algebra.Group.Nat.Defs
import NpsSdk.Lib.Text

/-! The identifiers that the orchestrator makes for subtasks and for their delegations: a counter
that every call moves on, mixed into the words that are written. -/
namespace Nps.Nop

def rotateLeft (c : UInt64) (count : ℕ) : UInt64 := ⟨c.toBitVec.rotateLeft count⟩

/-- `new_uuid`, at a time in nanoseconds since the epoch and a value of the counter. Before the epoch
the clock reads zero. -/
def uuidAt (now : ℤ) (c : UInt64) : String :=
  let nanos := now.toNat
  let a := UInt64.ofNat nanos ^^^ (c * 0x9E3779B97F4A7C15)
  let b := UInt64.ofNat (nanos >>> 64) ^^^ rotateLeft c 17
  Text.lowerHex 8 (a >>> 32).toUInt32.toNat ++ "-" ++ Text.lowerHex 4 (a >>> 16).toUInt16.toNat ++
    "-4" ++ Text.lowerHex 3 (a &&& 0x0fff).toUInt16.toNat ++ "-" ++
    Text.lowerHex 4 (((b >>> 48).toUInt16 &&& 0x3fff) ||| 0x8000).toNat ++ "-" ++
    Text.lowerHex 12 (b &&& 0xffffffffffff).toNat

def newUuid (now : ℤ) (counter : UInt64) : String × UInt64 := (uuidAt now counter, counter + 1)

theorem toNat_rotateLeft {c : UInt64} (small : c.toNat < 2 ^ 45) :
    (rotateLeft c 17).toNat = c.toNat * 2 ^ 17 := by
  have low : c.toNat >>> 47 = 0 := by
    rw [Nat.shiftRight_eq_div_pow]
    omega
  have turned := BitVec.toNat_rotateLeft (x := c.toBitVec) (r := 17)
  change (rotateLeft c 17).toNat = (c.toNat <<< 17) % 2 ^ 64 ||| c.toNat >>> 47 at turned
  rw [turned, low, Nat.or_zero, Nat.shiftLeft_eq, Nat.mod_eq_of_lt (by omega)]

theorem high_word {now : ℤ} (early : now < 2 ^ 64) (c : UInt64) :
    UInt64.ofNat (now.toNat >>> 64) ^^^ rotateLeft c 17 = rotateLeft c 17 := by
  have zero : now.toNat >>> 64 = 0 := by
    rw [Nat.shiftRight_eq_div_pow]
    omega
  rw [zero]
  exact UInt64.zero_xor

theorem toNat_variant (b : UInt64) :
    (((b >>> 48).toUInt16 &&& 0x3fff) ||| 0x8000).toNat = b.toNat / 2 ^ 48 % 2 ^ 14 + 2 ^ 15 := by
  have masked : ((b >>> 48).toUInt16 &&& 0x3fff).toNat = b.toNat / 2 ^ 48 % 2 ^ 14 := by
    have mask : (0x3fff : UInt16).toNat = 2 ^ 14 - 1 := rfl
    rw [UInt16.toNat_and, mask, Nat.and_two_pow_sub_one_eq_mod, UInt64.toNat_toUInt16,
      UInt64.toNat_shiftRight, Nat.shiftRight_eq_div_pow]
    have shift : (48 : UInt64).toNat % 64 = 48 := rfl
    rw [shift]
    omega
  have mark : (0x8000 : UInt16).toNat = 2 ^ 15 * 1 := rfl
  rw [UInt16.toNat_or, masked, mark, Nat.or_comm, ← Nat.two_pow_add_eq_or_of_lt (by omega)]
  omega

theorem toNat_node (b : UInt64) : (b &&& 0xffffffffffff).toNat = b.toNat % 2 ^ 48 := by
  have mask : (0xffffffffffff : UInt64).toNat = 2 ^ 48 - 1 := rfl
  rw [UInt64.toNat_and, mask, Nat.and_two_pow_sub_one_eq_mod]

theorem append_lowerHex {front front' : String} {width n m : ℕ} (some_ : 0 < width)
    (fits : n < 16 ^ width) (fits' : m < 16 ^ width)
    (same : front ++ Text.lowerHex width n = front' ++ Text.lowerHex width m) :
    front = front' ∧ n = m := by
  have chars := congrArg String.toList same
  rw [String.toList_append, String.toList_append] at chars
  obtain ⟨fronts, backs⟩ := List.append_inj' chars
    ((Text.length_lowerHex some_ fits).trans (Text.length_lowerHex some_ fits').symm)
  exact ⟨String.toList_injective fronts, Text.lowerHex_injective (String.toList_injective backs)⟩

theorem append_dash {front front' : String} (same : front ++ "-" = front' ++ "-") : front = front' := by
  have chars := congrArg String.toList same
  rw [String.toList_append, String.toList_append] at chars
  exact String.toList_injective (List.append_cancel_right chars)

theorem counter_of_uuidAt {now now' : ℤ} {c c' : UInt64} (early : now < 2 ^ 64) (early' : now' < 2 ^ 64)
    (small : c.toNat < 2 ^ 45) (small' : c'.toNat < 2 ^ 45) (same : uuidAt now c = uuidAt now' c') :
    c = c' := by
  unfold uuidAt at same
  simp only [high_word early, high_word early', toNat_variant, toNat_node, toNat_rotateLeft small,
    toNat_rotateLeft small'] at same
  obtain ⟨fronts, nodes⟩ := append_lowerHex (by decide) (by omega) (by omega) same
  obtain ⟨-, variants⟩ := append_lowerHex (by decide) (by omega) (by omega) (append_dash fronts)
  apply UInt64.toNat.inj
  omega

/-- Two calls with different counters make different identifiers, whatever the clock says. -/
theorem uuids_differ {c c' : UInt64} {now now' : ℤ} (small : c.toNat < 2 ^ 45)
    (small' : c'.toNat < 2 ^ 45) (early : now < 2 ^ 64) (early' : now' < 2 ^ 64) (differ : c ≠ c') :
    (newUuid now c).1 ≠ (newUuid now' c').1 :=
  fun same => differ (counter_of_uuidAt early early' small small' same)

/-- The clock has gone back to where it was for the first call. -/
theorem uuids_differ_later :
    (newUuid 1790000000000000000 0).1 ≠ (newUuid 1790000000000000000 1).1 :=
  uuids_differ (by decide) (by decide) (by decide) (by decide) (by decide)

end Nps.Nop
