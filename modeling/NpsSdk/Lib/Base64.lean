import NpsSdk.Lib.Outcome
import NpsSdk.Lib.Text
import NpsSdk.Lib.Wire

/-! Base64 and hexadecimal text of byte strings. Decoding is strict: padding must be as
the mode asks, and the bits a last symbol does not need must be zero. -/
namespace Base64
open Wire (Bytes)
open Outcome

inductive Alphabet where
  | standard | urlSafe
deriving DecidableEq

inductive Padding where
  | canonical | none
deriving DecidableEq

inductive DecodeError where
  | invalidByte (offset : Nat) (byte : UInt8)
  | invalidLength (length : Nat)
  | invalidLastSymbol (offset : Nat) (byte : UInt8)
  | invalidPadding
deriving DecidableEq

def DecodeError.describe : DecodeError → String
  | invalidByte offset byte => s!"Invalid symbol {byte.toNat}, offset {offset}."
  | invalidLength length => s!"Invalid input length: {length}"
  | invalidLastSymbol offset byte => s!"Invalid last symbol {byte.toNat}, offset {offset}."
  | invalidPadding => "Invalid padding"

def pad : UInt8 := 0x3D

def symbol (alphabet : Alphabet) (value : Nat) : UInt8 :=
  if value < 26 then UInt8.ofNat (0x41 + value)
  else if value < 52 then UInt8.ofNat (0x61 + (value - 26))
  else if value < 62 then UInt8.ofNat (0x30 + (value - 52))
  else match alphabet with
    | .standard => if value = 62 then 0x2B else 0x2F
    | .urlSafe => if value = 62 then 0x2D else 0x5F

def valueOf (alphabet : Alphabet) (byte : UInt8) : Option Nat :=
  (List.range 64).find? fun value => symbol alphabet value == byte

def padding (mode : Padding) (count : Nat) : Bytes :=
  match mode with
  | .canonical => List.replicate count pad
  | .none => []

def encodeBytes (alphabet : Alphabet) (mode : Padding) : Bytes → Bytes
  | b0 :: b1 :: b2 :: rest =>
    [symbol alphabet (b0.toNat / 4), symbol alphabet (b0.toNat % 4 * 16 + b1.toNat / 16),
      symbol alphabet (b1.toNat % 16 * 4 + b2.toNat / 64), symbol alphabet (b2.toNat % 64)] ++
      encodeBytes alphabet mode rest
  | [b0, b1] =>
    [symbol alphabet (b0.toNat / 4), symbol alphabet (b0.toNat % 4 * 16 + b1.toNat / 16),
      symbol alphabet (b1.toNat % 16 * 4)] ++ padding mode 1
  | [b0] =>
    [symbol alphabet (b0.toNat / 4), symbol alphabet (b0.toNat % 4 * 16)] ++ padding mode 2
  | [] => []

def encode (alphabet : Alphabet) (mode : Padding) (bytes : Bytes) : String :=
  Text.ascii (encodeBytes alphabet mode bytes)

def sextet (alphabet : Alphabet) (offset : Nat) (byte : UInt8) : Except DecodeError Nat :=
  match valueOf alphabet byte with
  | some value => .ok value
  | none => .error (.invalidByte offset byte)

def group (v0 v1 v2 v3 : Nat) : Bytes :=
  [UInt8.ofNat (v0 * 4 + v1 / 16), UInt8.ofNat (v1 % 16 * 16 + v2 / 4),
    UInt8.ofNat (v2 % 4 * 64 + v3)]

def decodeQuads (alphabet : Alphabet) (offset : Nat) : Bytes → Except DecodeError Bytes
  | c0 :: c1 :: c2 :: c3 :: rest => do
    let v0 ← sextet alphabet offset c0
    let v1 ← sextet alphabet (offset + 1) c1
    let v2 ← sextet alphabet (offset + 2) c2
    let v3 ← sextet alphabet (offset + 3) c3
    let others ← decodeQuads alphabet (offset + 4) rest
    return group v0 v1 v2 v3 ++ others
  | _ => .ok []

/-- The symbols of the last group: their values, then how many padding bytes follow. -/
def scan (alphabet : Alphabet) (offset : Nat) :
    (index padding : Nat) → Bytes → Except DecodeError (List Nat × Nat)
  | _, padding, [] => .ok ([], padding)
  | index, padding, byte :: rest =>
    if byte = pad then
      if index < 2 then .error (.invalidByte (offset + index) byte)
      else scan alphabet offset (index + 1) (padding + 1) rest
    else if padding > 0 then .error (.invalidByte (offset + index - padding) pad)
    else do
      let value ← sextet alphabet (offset + index) byte
      let (values, padding) ← scan alphabet offset (index + 1) padding rest
      return (value :: values, padding)

def unpack : List Nat → Bytes × Nat
  | [v0, v1, v2, v3] => (group v0 v1 v2 v3, 0)
  | [v0, v1, v2] => ((group v0 v1 v2 0).take 2, v2 % 4)
  | [v0, v1] => ((group v0 v1 0 0).take 1, v1 % 16)
  | _ => ([], 0)

/-- The padding a mode wants after the given number of symbols. -/
def Padding.Accepts (mode : Padding) (symbols count : Nat) : Prop :=
  match mode with
  | canonical => (count + symbols) % 4 = 0
  | none => count = 0

instance (mode : Padding) (symbols count : Nat) : Decidable (mode.Accepts symbols count) :=
  match mode with
  | .canonical => inferInstanceAs (Decidable ((count + symbols) % 4 = 0))
  | .none => inferInstanceAs (Decidable (count = 0))

def decodeSuffix (alphabet : Alphabet) (mode : Padding) (offset : Nat) (suffix : Bytes) :
    Except DecodeError Bytes := do
  let (values, padding) ← scan alphabet offset 0 0 suffix
  ensure (suffix = [] ∨ 2 ≤ values.length) (.invalidLength (offset + values.length))
  ensure (mode.Accepts values.length padding) .invalidPadding
  let (bytes, unused) := unpack values
  ensure (unused = 0)
    (.invalidLastSymbol (offset + values.length - 1) (suffix.getD (values.length - 1) 0))
  return bytes

/-- The last group, complete or not, is left to `decodeSuffix`. -/
def wholeGroups (length : Nat) : Nat :=
  if length % 4 = 0 then length - 4 else length - length % 4

/-- A single trailing byte is reported before anything else when it is no symbol at all. -/
def checkLast (alphabet : Alphabet) (input : Bytes) : Except DecodeError Unit :=
  let last := input.getLastD pad
  ensure (input.length % 4 ≠ 1 ∨ last = pad ∨ valueOf alphabet last ≠ none)
    (.invalidByte (input.length - 1) last)

def decodeBytes (alphabet : Alphabet) (mode : Padding) (input : Bytes) :
    Except DecodeError Bytes := do
  checkLast alphabet input
  let whole := wholeGroups input.length
  let front ← decodeQuads alphabet 0 (input.take whole)
  let back ← decodeSuffix alphabet mode whole (input.drop whole)
  return front ++ back

def decode (alphabet : Alphabet) (mode : Padding) (text : String) : Except DecodeError Bytes :=
  decodeBytes alphabet mode (Text.utf8 text)

example : encode .standard .canonical [0xFB, 0xEF] = "++8=" := by decide
example : decode .urlSafe .none "--8" = .ok [0xFB, 0xEF] := by decide
example : decode .standard .canonical "++8" = .error .invalidPadding := by decide

theorem valueOf_symbol {alphabet : Alphabet} {value : Nat} (small : value < 64) :
    valueOf alphabet (symbol alphabet value) = some value := by
  have all : ∀ value < 64, valueOf alphabet (symbol alphabet value) = some value := by
    cases alphabet <;> decide +kernel
  exact all value small

theorem symbol_plain {alphabet : Alphabet} {value : Nat} (small : value < 64) :
    symbol alphabet value ≠ pad ∧ (symbol alphabet value).toNat < 128 := by
  have all : ∀ value < 64,
      symbol alphabet value ≠ pad ∧ (symbol alphabet value).toNat < 128 := by
    cases alphabet <;> decide +kernel
  exact all value small

@[simp] theorem sextet_symbol {alphabet : Alphabet} {value : Nat} (offset : Nat)
    (small : value < 64) : sextet alphabet offset (symbol alphabet value) = .ok value := by
  rw [sextet, valueOf_symbol small]

theorem byte_bounds (b0 b1 b2 : UInt8) :
    b0.toNat / 4 < 64 ∧ b0.toNat % 4 * 16 + b1.toNat / 16 < 64 ∧
      b1.toNat % 16 * 4 + b2.toNat / 64 < 64 ∧ b2.toNat % 64 < 64 := by
  have := b0.toNat_lt
  have := b1.toNat_lt
  have := b2.toNat_lt
  omega

theorem group_symbols (b0 b1 b2 : UInt8) :
    group (b0.toNat / 4) (b0.toNat % 4 * 16 + b1.toNat / 16) (b1.toNat % 16 * 4 + b2.toNat / 64)
      (b2.toNat % 64) = [b0, b1, b2] := by
  have := b0.toNat_lt
  have := b1.toNat_lt
  have := b2.toNat_lt
  simp only [group, List.cons.injEq, and_true, ← UInt8.toNat_inj, UInt8.toNat_ofNat']
  omega

theorem encodeBytes_none_length (alphabet : Alphabet) (bytes : Bytes) :
    (encodeBytes alphabet .none bytes).length = (4 * bytes.length + 2) / 3 := by
  fun_induction encodeBytes alphabet .none bytes with
  | case1 b0 b1 b2 rest ih =>
    simp only [List.cons_append, List.nil_append, List.length_cons, ih]
    omega
  | case2 | case3 | case4 => simp [padding]

theorem scan_length {alphabet : Alphabet} {offset index count : Nat} {suffix : Bytes}
    {values : List Nat} {padding : Nat}
    (scanned : scan alphabet offset index count suffix = .ok (values, padding)) :
    values.length + padding = suffix.length + count := by
  induction suffix generalizing index count values padding with
  | nil =>
    cases scanned
    simp
  | cons byte rest ih =>
    simp only [scan] at scanned
    split_ifs at scanned
    · have := ih scanned
      simp only [List.length_cons]
      omega
    · obtain ⟨value, _, scanned⟩ := bind_ok.mp scanned
      obtain ⟨⟨others, count⟩, tail, scanned⟩ := bind_ok.mp scanned
      cases scanned
      have := ih tail
      simp only [List.length_cons]
      omega

theorem decodeBytes_canonical_length {alphabet : Alphabet} {input bytes : Bytes}
    (decoded : decodeBytes alphabet .canonical input = .ok bytes) : input.length % 4 = 0 := by
  have size : (input.drop (wholeGroups input.length)).length % 4 = input.length % 4 := by
    rw [List.length_drop, wholeGroups]
    split <;> omega
  obtain ⟨_, _, decoded⟩ := bind_ok.mp decoded
  obtain ⟨_, _, decoded⟩ := bind_ok.mp decoded
  obtain ⟨_, suffix, _⟩ := bind_ok.mp decoded
  obtain ⟨⟨values, padding⟩, scanned, suffix⟩ := bind_ok.mp suffix
  obtain ⟨_, _, suffix⟩ := bind_ok.mp suffix
  obtain ⟨_, accepted, _⟩ := bind_ok.mp suffix
  have accepted : (padding + values.length) % 4 = 0 := ensure_ok.mp accepted
  have total := scan_length scanned
  omega

theorem scan_padding {alphabet : Alphabet} {offset index : Nat} (late : 2 ≤ index) (mode : Padding)
    (count skipped : Nat) :
    scan alphabet offset index skipped (padding mode count) =
      .ok ([], skipped + (padding mode count).length) := by
  cases mode with
  | none => rfl
  | canonical =>
    simp only [padding, List.length_replicate]
    induction count generalizing index skipped with
    | zero => rfl
    | succ count ih =>
      have few : ¬ index < 2 := by omega
      simp only [List.replicate_succ, scan, if_true, few, if_false, ih (Nat.le_succ_of_le late)]
      rw [Nat.add_assoc, Nat.add_comm 1]

theorem scan_symbols {alphabet : Alphabet} (offset : Nat) {values : List Nat}
    (small : ∀ value ∈ values, value < 64) {mode : Padding} {count : Nat} (index : Nat)
    (late : padding mode count = [] ∨ 2 ≤ index + values.length) :
    scan alphabet offset index 0 (values.map (symbol alphabet) ++ padding mode count) =
      .ok (values, (padding mode count).length) := by
  induction values generalizing index with
  | nil =>
    rcases late with none | late
    · rw [none]
      rfl
    · rw [List.map_nil, List.nil_append, scan_padding (by simpa using late), Nat.zero_add]
  | cons value values ih =>
    have first := small value List.mem_cons_self
    have rest := ih (fun other member => small other (List.mem_cons_of_mem _ member)) (index + 1)
      (late.imp_right fun late => by
        rw [List.length_cons] at late
        omega)
    simp only [List.map_cons, List.cons_append, scan, (symbol_plain first).1, if_false,
      lt_self_iff_false, sextet_symbol _ first, rest, ok_bind, pure_eq]

/-- A last group decodes to what its symbols spell, if its padding is as the mode asks. -/
theorem decodeSuffix_symbols {alphabet : Alphabet} {offset : Nat} {values : List Nat}
    (small : ∀ value ∈ values, value < 64) {mode : Padding} {count : Nat}
    (size : values = [] ∧ padding mode count = [] ∨ 2 ≤ values.length)
    (accepts : mode.Accepts values.length (padding mode count).length)
    {bytes : Bytes} (spells : unpack values = (bytes, 0)) :
    decodeSuffix alphabet mode offset (values.map (symbol alphabet) ++ padding mode count) =
      .ok bytes := by
  have enough : values.map (symbol alphabet) ++ padding mode count = [] ∨ 2 ≤ values.length :=
    size.imp_left fun ⟨empty, bare⟩ => by rw [empty, bare, List.map_nil, List.append_nil]
  have late : padding mode count = [] ∨ 2 ≤ 0 + values.length :=
    size.imp (·.2) fun many => by omega
  have scanned : scan alphabet offset 0 0 (values.map (symbol alphabet) ++ padding mode count) = _ :=
    scan_symbols offset small 0 late
  simp only [decodeSuffix, scanned, ok_bind, spells, ensure_true enough, ensure_true accepts]
  rfl

theorem encodeBytes_ne_nil {alphabet : Alphabet} {mode : Padding} {bytes : Bytes} (some_ : bytes ≠ []) :
    encodeBytes alphabet mode bytes ≠ [] := by
  fun_cases encodeBytes alphabet mode bytes with
  | case1 | case2 | case3 => simp
  | case4 => exact absurd rfl some_

/-- An encoded text is a run of whole groups and one last group, which decode separately. -/
theorem encodeBytes_parts (alphabet : Alphabet) (mode : Padding) (bytes : Bytes) :
    ∃ front back, encodeBytes alphabet mode bytes = front ++ back ∧ front.length % 4 = 0 ∧
      back.length ≤ 4 ∧ back.length ≠ 1 ∧ (back = [] → front = []) ∧
      ∃ x y, (∀ offset, decodeQuads alphabet offset front = .ok x) ∧
        (∀ offset, decodeSuffix alphabet mode offset back = .ok y) ∧ x ++ y = bytes := by
  fun_induction encodeBytes alphabet mode bytes with
  | case1 b0 b1 b2 rest ih =>
    obtain ⟨front, back, whole, multiple, short, many, last, x, y, quads, suffix, same⟩ := ih
    obtain ⟨v0, v1, v2, v3⟩ := byte_bounds b0 b1 b2
    cases rest with
    | nil =>
      have values : ∀ value ∈ [b0.toNat / 4, b0.toNat % 4 * 16 + b1.toNat / 16,
          b1.toNat % 16 * 4 + b2.toNat / 64, b2.toNat % 64], value < 64 := by
        simp [v0, v1, v2, v3]
      refine ⟨[], _, rfl, rfl, by simp [encodeBytes], by simp [encodeBytes], by simp, [],
        [b0, b1, b2], fun _ => rfl, fun offset => ?_, rfl⟩
      have bare : padding mode 0 = [] := by cases mode <;> rfl
      have accepts : mode.Accepts 4 (padding mode 0).length := by
        rw [bare]
        cases mode <;> exact rfl
      have decoded : decodeSuffix alphabet mode offset (_ ++ padding mode 0) = .ok [b0, b1, b2] :=
        decodeSuffix_symbols values (.inr (by simp)) accepts (by rw [unpack, group_symbols])
      rw [bare] at decoded
      exact decoded
    | cons b rest =>
      have nonempty : back ≠ [] := by
        intro empty
        rw [empty, last empty] at whole
        exact encodeBytes_ne_nil (List.cons_ne_nil b rest) whole
      refine ⟨[_, _, _, _] ++ front, back, by rw [whole, List.append_assoc], ?_, short, many,
        fun empty => absurd empty nonempty, [b0, b1, b2] ++ x, y, fun offset => ?_, suffix, ?_⟩
      · simp only [List.length_append, List.length_cons, List.length_nil]
        omega
      · simp only [List.cons_append, List.nil_append, decodeQuads, sextet_symbol _ v0,
          sextet_symbol _ v1, sextet_symbol _ v2, sextet_symbol _ v3, quads, ok_bind, pure_eq,
          group_symbols]
      · rw [List.append_assoc, same]
        rfl
  | case2 b0 b1 =>
    obtain ⟨v0, v1, v2, -⟩ := byte_bounds b0 b1 0
    have spelled := group_symbols b0 b1 0
    simp only [UInt8.toNat_zero, Nat.zero_div, Nat.add_zero, Nat.zero_mod] at v2 spelled
    have values : ∀ value ∈ [b0.toNat / 4, b0.toNat % 4 * 16 + b1.toNat / 16, b1.toNat % 16 * 4],
        value < 64 := by
      simp [v0, v1, v2]
    have accepts : mode.Accepts 3 (padding mode 1).length := by cases mode <;> exact rfl
    refine ⟨[], _, rfl, rfl, by cases mode <;> simp [padding], by simp, by simp, [], [b0, b1],
      fun _ => rfl, fun offset => ?_, rfl⟩
    exact decodeSuffix_symbols values (.inr (by simp)) accepts (by
      rw [unpack, spelled]
      simp only [List.take, Prod.mk.injEq, true_and]
      omega)
  | case3 b0 =>
    obtain ⟨v0, v1, -, -⟩ := byte_bounds b0 0 0
    have spelled := group_symbols b0 0 0
    simp only [UInt8.toNat_zero, Nat.zero_div, Nat.add_zero, Nat.zero_mod, Nat.zero_mul] at v1 spelled
    have values : ∀ value ∈ [b0.toNat / 4, b0.toNat % 4 * 16], value < 64 := by
      simp [v0, v1]
    have accepts : mode.Accepts 2 (padding mode 2).length := by cases mode <;> exact rfl
    refine ⟨[], _, rfl, rfl, by cases mode <;> simp [padding], by simp, by simp, [], [b0],
      fun _ => rfl, fun offset => ?_, rfl⟩
    exact decodeSuffix_symbols values (.inr (by simp)) accepts (by
      rw [unpack, spelled]
      simp only [List.take, Prod.mk.injEq, true_and]
      omega)
  | case4 =>
    refine ⟨[], [], rfl, rfl, by simp, by simp, by simp, [], [], fun _ => rfl, fun offset => ?_, rfl⟩
    cases mode <;> exact rfl

theorem decodeBytes_encodeBytes (alphabet : Alphabet) (mode : Padding) (bytes : Bytes) :
    decodeBytes alphabet mode (encodeBytes alphabet mode bytes) = .ok bytes := by
  obtain ⟨front, back, whole, multiple, short, many, last, x, y, quads, suffix, same⟩ :=
    encodeBytes_parts alphabet mode bytes
  have split : wholeGroups (front ++ back).length = front.length := by
    rw [wholeGroups, List.length_append]
    by_cases empty : back = []
    · simp [empty, last empty]
    · have := List.length_pos_iff.mpr empty
      split <;> omega
  have checked : checkLast alphabet (front ++ back) = .ok () := by
    refine ensure_true (.inl ?_)
    rw [List.length_append]
    omega
  simp only [decodeBytes, whole, checked, split, List.take_left, List.drop_left, quads, suffix,
    ok_bind, pure_eq, same]

theorem padding_ascii (mode : Padding) (count : Nat) : ∀ byte ∈ padding mode count, byte.toNat < 128 := by
  intro byte member
  cases mode with
  | none => cases member
  | canonical =>
    rw [List.eq_of_mem_replicate member]
    decide

theorem encodeBytes_ascii (alphabet : Alphabet) (mode : Padding) (bytes : Bytes) :
    ∀ byte ∈ encodeBytes alphabet mode bytes, byte.toNat < 128 := by
  fun_induction encodeBytes alphabet mode bytes with
  | case1 b0 b1 b2 rest ih =>
    obtain ⟨v0, v1, v2, v3⟩ := byte_bounds b0 b1 b2
    simpa [symbol_plain v0, symbol_plain v1, symbol_plain v2, symbol_plain v3] using ih
  | case2 b0 b1 =>
    obtain ⟨v0, v1, v2, -⟩ := byte_bounds b0 b1 0
    simp only [UInt8.toNat_zero, Nat.zero_div, Nat.add_zero] at v2
    simpa [symbol_plain v0, symbol_plain v1, symbol_plain v2] using padding_ascii mode 1
  | case3 b0 =>
    obtain ⟨v0, v1, -, -⟩ := byte_bounds b0 0 0
    simp only [UInt8.toNat_zero, Nat.zero_div, Nat.add_zero] at v1
    simpa [symbol_plain v0, symbol_plain v1] using padding_ascii mode 2
  | case4 => simp

/-- Without padding there are only symbols. -/
theorem encodeBytes_symbols (alphabet : Alphabet) (bytes : Bytes) :
    ∀ byte ∈ encodeBytes alphabet .none bytes, ∃ value < 64, byte = symbol alphabet value := by
  have plain {v : List Nat} (small : ∀ value ∈ v, value < 64) :
      ∀ byte ∈ v.map (symbol alphabet), ∃ value < 64, byte = symbol alphabet value := by
    intro byte member
    obtain ⟨value, among, rfl⟩ := List.mem_map.mp member
    exact ⟨value, small value among, rfl⟩
  fun_induction encodeBytes alphabet .none bytes with
  | case1 b0 b1 b2 rest ih =>
    obtain ⟨v0, v1, v2, v3⟩ := byte_bounds b0 b1 b2
    rw [List.forall_mem_append]
    refine ⟨plain (v := [_, _, _, _]) ?_, ih⟩
    simp [v0, v1, v2, v3]
  | case2 b0 b1 =>
    obtain ⟨v0, v1, v2, -⟩ := byte_bounds b0 b1 0
    simp only [UInt8.toNat_zero, Nat.zero_div, Nat.add_zero] at v2
    refine plain (v := [_, _, _]) ?_
    simp [v0, v1, v2]
  | case3 b0 =>
    obtain ⟨v0, v1, -, -⟩ := byte_bounds b0 0 0
    simp only [UInt8.toNat_zero, Nat.zero_div, Nat.add_zero] at v1
    refine plain (v := [_, _]) ?_
    simp [v0, v1]
  | case4 => simp

@[simp] theorem utf8_encode (alphabet : Alphabet) (mode : Padding) (bytes : Bytes) :
    Text.utf8 (encode alphabet mode bytes) = encodeBytes alphabet mode bytes :=
  Text.utf8_ascii (encodeBytes_ascii alphabet mode bytes)

theorem decode_encode (alphabet : Alphabet) {mode : Padding} (bytes : Bytes) :
    decode alphabet mode (encode alphabet mode bytes) = .ok bytes := by
  rw [decode, utf8_encode, decodeBytes_encodeBytes]

theorem decode_canonical_encode_none {alphabet other : Alphabet} {bytes : Bytes}
    (incomplete : bytes.length % 3 ≠ 0) :
    ∃ e, decode alphabet .canonical (encode other .none bytes) = .error e := by
  rw [decode, utf8_encode]
  cases decoded : decodeBytes alphabet .canonical (encodeBytes other .none bytes) with
  | error e => exact ⟨e, rfl⟩
  | ok read =>
    have whole := decodeBytes_canonical_length decoded
    rw [encodeBytes_none_length] at whole
    omega

end Base64

namespace Hex
open Wire (Bytes)
open Outcome

inductive DecodeError where
  | oddLength
  | invalidCharacter (byte : UInt8) (index : Nat)
deriving DecidableEq

def quoteByte (byte : UInt8) : String :=
  let code := byte.toNat
  let body :=
    if code = 0x00 then "\\0" else if code = 0x09 then "\\t" else if code = 0x0A then "\\n"
    else if code = 0x0D then "\\r" else if code = 0x27 then "\\'" else if code = 0x5C then "\\\\"
    else if code < 0x20 ∨ (0x7F ≤ code ∧ code ≤ 0xA0) ∨ code = 0xAD then
      "\\u\x7b" ++ String.ofList (Nat.toDigits 16 code) ++ "\x7d"
    else String.ofList [Char.ofNat code]
  "'" ++ body ++ "'"

def DecodeError.describe : DecodeError → String
  | oddLength => "Odd number of digits"
  | invalidCharacter byte index =>
    "Invalid character " ++ quoteByte byte ++ " at position " ++ toString index

def digit (value : Nat) : UInt8 :=
  if value < 10 then UInt8.ofNat (0x30 + value) else UInt8.ofNat (0x61 + (value - 10))

def encodeBytes (bytes : Bytes) : Bytes :=
  bytes.flatMap fun byte => [digit (byte.toNat / 16), digit (byte.toNat % 16)]

def encode (bytes : Bytes) : String := Text.ascii (encodeBytes bytes)

def valueOf (byte : UInt8) : Option Nat :=
  let code := byte.toNat
  if 0x30 ≤ code ∧ code ≤ 0x39 then some (code - 0x30)
  else if 0x61 ≤ code ∧ code ≤ 0x66 then some (code - 0x61 + 10)
  else if 0x41 ≤ code ∧ code ≤ 0x46 then some (code - 0x41 + 10)
  else none

def nibble (index : Nat) (byte : UInt8) : Except DecodeError Nat :=
  match valueOf byte with
  | some value => .ok value
  | none => .error (.invalidCharacter byte index)

def decodePairs (index : Nat) : Bytes → Except DecodeError Bytes
  | high :: low :: rest => do
    let h ← nibble index high
    let l ← nibble (index + 1) low
    let others ← decodePairs (index + 2) rest
    return UInt8.ofNat (h * 16 + l) :: others
  | _ => .ok []

def decodeBytes (input : Bytes) : Except DecodeError Bytes := do
  ensure (input.length % 2 = 0) .oddLength
  decodePairs 0 input

def decode (text : String) : Except DecodeError Bytes := decodeBytes (Text.utf8 text)

example : encode [0x0A, 0xFF] = "0aff" := by decide
example : decode "0AfF" = .ok [0x0A, 0xFF] := by decide

theorem valueOf_digit : ∀ value < 16, valueOf (digit value) = some value := by decide

theorem digit_ascii : ∀ value < 16, (digit value).toNat < 128 := by decide

theorem decodePairs_encodeBytes (index : Nat) (bytes : Bytes) :
    decodePairs index (encodeBytes bytes) = .ok bytes := by
  induction bytes generalizing index with
  | nil => rfl
  | cons byte rest ih =>
    have high : byte.toNat / 16 < 16 := Nat.div_lt_of_lt_mul byte.toNat_lt
    have low : byte.toNat % 16 < 16 := Nat.mod_lt _ (by decide)
    have whole : UInt8.ofNat (byte.toNat / 16 * 16 + byte.toNat % 16) = byte := by
      rw [Nat.div_add_mod', UInt8.ofNat_toNat]
    change decodePairs index (digit _ :: digit _ :: encodeBytes rest) = _
    rw [decodePairs, nibble, nibble, valueOf_digit _ high, valueOf_digit _ low, ok_bind, ok_bind, ih,
      ok_bind, whole]
    rfl

theorem encodeBytes_length (bytes : Bytes) : (encodeBytes bytes).length = 2 * bytes.length := by
  induction bytes with
  | nil => rfl
  | cons byte rest ih =>
    change (encodeBytes rest).length + 2 = _
    rw [ih, List.length_cons]
    omega

theorem decode_encode (bytes : Bytes) : decode (encode bytes) = .ok bytes := by
  have ascii : ∀ byte ∈ encodeBytes bytes, byte.toNat < 128 := by
    intro byte member
    obtain ⟨source, -, digits⟩ := List.mem_flatMap.mp member
    have high : source.toNat / 16 < 16 := Nat.div_lt_of_lt_mul source.toNat_lt
    have low : source.toNat % 16 < 16 := Nat.mod_lt _ (by decide)
    rcases List.mem_cons.mp digits with rfl | second
    · exact digit_ascii _ high
    · rw [List.mem_singleton.mp second]
      exact digit_ascii _ low
  have even : (encodeBytes bytes).length % 2 = 0 := by
    rw [encodeBytes_length, Nat.mul_mod_right]
  rw [decode, encode, Text.utf8_ascii ascii, decodeBytes, ensure_true even, ok_bind]
  exact decodePairs_encodeBytes 0 bytes

theorem encode_injective {a b : Bytes} (same : encode a = encode b) : a = b := by
  have read := decode_encode a
  rw [same, decode_encode, Except.ok.injEq] at read
  exact read.symm

end Hex
