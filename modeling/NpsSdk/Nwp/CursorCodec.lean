import NpsSdk.Nwp.SqlPaging

/-! The codec of cursors as it is written, digit by digit, and which texts it takes back as they
were. -/
namespace Nps.Nwp

namespace CursorCodec

def b64 : List ℕ :=
  "ABCDEFGHIJKLMNOPQRSTUVWXYZabcdefghijklmnopqrstuvwxyz0123456789+/".toList.map Char.toNat

def replaceChar (old new : Char) (text : String) : String :=
  String.ofList (text.toList.map fun c => if c = old then new else c)

def chunks3 : List UInt8 → List (List UInt8)
  | b0 :: b1 :: b2 :: rest => [b0, b1, b2] :: chunks3 rest
  | [] => []
  | tail => [tail]

def digit (n : UInt32) : Char := Char.ofNat (b64.getD (n &&& 63).toNat 0)

def encodeChunk (chunk : List UInt8) : List Char :=
  let b0 := (chunk.getD 0 0).toUInt32
  let b1 := (chunk.getD 1 0).toUInt32
  let b2 := (chunk.getD 2 0).toUInt32
  let n := (b0 <<< 16) ||| (b1 <<< 8) ||| b2
  [digit (n >>> 18), digit (n >>> 12)] ++ (if chunk.length > 1 then [digit (n >>> 6)] else []) ++
    (if chunk.length > 2 then [digit n] else [])

def base64urlEncode (input : List UInt8) : String :=
  let out := String.ofList ((chunks3 input).flatMap encodeChunk)
  replaceChar '/' '_' (replaceChar '+' '-' out)

def decodeFrom (buf bits : UInt32) : List UInt8 → Option (List UInt8)
  | [] => some []
  | c :: rest =>
    if c = 0x3D then some []
    else do
      let val ← b64.idxOf? c.toNat
      let buf := (buf <<< 6) ||| .ofNat val
      let bits := bits + 6
      if bits ≥ 8 then
        let bits := bits - 8
        let out ← decodeFrom buf bits rest
        return (buf >>> bits).toUInt8 :: out
      else decodeFrom buf bits rest

def base64urlDecode (input : String) : Option (List UInt8) :=
  decodeFrom 0 0 (Text.utf8 (replaceChar '_' '/' (replaceChar '-' '+' input)))

def encodeCursor (nextOffset : ℤ) : Option String :=
  if nextOffset ≤ 0 then none
  else some (base64urlEncode (Text.utf8 (cursorJson nextOffset)))

/-- An empty cursor is none at all. -/
def decodeCursor [Nip.Serde] (cursor : Option String) : ℤ :=
  match cursor with
  | none => 0
  | some cursor =>
    if cursor = "" then 0
    else (do
      let bytes ← base64urlDecode cursor
      let json ← Text.ofUtf8? bytes
      let value ← (Nip.Serde.fromStr json).toOption
      match ← Json.get "o" (← value.asObject) with
      | .number n => n.asI64
      | _ => none).getD 0

def code (value : ℕ) : ℕ :=
  if value < 26 then value + 65
  else if value < 52 then value + 71
  else if value < 62 then value - 4
  else if value = 62 then 43
  else 47

theorem b64_eq : b64 = (List.range 64).map code := by
  have chars : "ABCDEFGHIJKLMNOPQRSTUVWXYZabcdefghijklmnopqrstuvwxyz0123456789+/".toList = _ :=
    String.toList_ofList
  refine (congrArg (List.map Char.toNat) chars).trans ?_
  decide +kernel

theorem code_injective {value other : ℕ} (small : value < 64) (small' : other < 64)
    (same : code value = code other) : value = other := by
  unfold code at same
  split_ifs at same <;> omega

theorem getElem?_b64 {value : ℕ} (small : value < 64) : b64[value]? = some (code value) := by
  rw [b64_eq, List.getElem?_map, List.getElem?_range small, Option.map_some]

theorem idxOf_code {value : ℕ} (small : value < 64) : b64.idxOf? (code value) = some value := by
  have size : b64.length = 64 := by rw [b64_eq, List.length_map, List.length_range]
  have at_ {i : ℕ} (inside : i < b64.length) : b64[i] = code i :=
    Option.some.inj ((List.getElem?_eq_getElem inside).symm.trans (getElem?_b64 (size ▸ inside)))
  refine List.idxOf?_eq_some_iff.mpr ⟨by omega, at_ _, fun i before => ?_⟩
  rw [at_]
  intro same
  have := code_injective (by omega) small same
  omega

theorem idxOf_b64 (n : ℕ) : b64.idxOf? n =
    if 65 ≤ n ∧ n ≤ 90 then some (n - 65)
    else if 97 ≤ n ∧ n ≤ 122 then some (n - 71)
    else if 48 ≤ n ∧ n ≤ 57 then some (n + 4)
    else if n = 43 then some 62
    else if n = 47 then some 63
    else none := by
  have found {value : ℕ} (small : value < 64) (same : code value = n) : b64.idxOf? n = some value := by
    rw [← same, idxOf_code small]
  split_ifs with upper lower digit plus slash
  · exact found (by omega) (by unfold code; split_ifs <;> omega)
  · exact found (by omega) (by unfold code; split_ifs <;> omega)
  · exact found (by omega) (by unfold code; split_ifs <;> omega)
  · exact found (by omega) plus.symm
  · exact found (by omega) slash.symm
  · rw [List.idxOf?_eq_none_iff, b64_eq, List.mem_map]
    rintro ⟨value, inside, same⟩
    rw [List.mem_range] at inside
    unfold code at same
    split_ifs at same <;> omega

def urlSafe (c : Char) : Char :=
  let c := if c = '+' then '-' else c
  if c = '/' then '_' else c

theorem urlSafe_code : ∀ value < 64,
    urlSafe (Char.ofNat (code value)) = Char.ofNat (Base64.symbol .urlSafe value).toNat := by
  decide +kernel

/-- In the text of a cursor, a digit is that of the URL-safe alphabet. -/
theorem urlSafe_digit (n : UInt32) {value : ℕ} (bits : n.toNat % 64 = value) :
    urlSafe (digit n) = Char.ofNat (Base64.symbol .urlSafe value).toNat := by
  have mask : (63 : UInt32).toNat = 2 ^ 6 - 1 := rfl
  have last : (n &&& 63).toNat = value := by
    rw [UInt32.toNat_and, mask, Nat.and_two_pow_sub_one_eq_mod]
    exact bits
  have small : value < 64 := by omega
  rw [digit, last, List.getD_eq_getElem?_getD, getElem?_b64 small, Option.getD_some]
  exact urlSafe_code value small

/-- The byte that the decoder looks up for a byte of the text. -/
def plainByte (byte : UInt8) : UInt8 :=
  let byte := if byte = 0x2D then 0x2B else byte
  if byte = 0x5F then 0x2F else byte

theorem plainByte_spec (byte : UInt8) :
    (plainByte byte = 0x3D ↔ byte = 0x3D) ∧ b64.idxOf? (plainByte byte).toNat = sextet byte := by
  by_cases minus : byte = 0x2D
  · subst minus
    exact ⟨by decide, idxOf_b64 43⟩
  by_cases underscore : byte = 0x5F
  · subst underscore
    exact ⟨by decide, idxOf_b64 47⟩
  · have same : plainByte byte = byte := by simp [plainByte, minus, underscore]
    have minus' : byte.toNat ≠ 45 := fun code => minus (UInt8.toNat.inj code)
    have underscore' : byte.toNat ≠ 95 := fun code => underscore (UInt8.toNat.inj code)
    rw [same, idxOf_b64]
    exact ⟨Iff.rfl, by simp [sextet, minus', underscore']⟩

theorem sextet_lt {byte : UInt8} {value : ℕ} (read : sextet byte = some value) : value < 64 := by
  unfold sextet at read
  dsimp only at read
  split_ifs at read
  all_goals
    cases read
    omega

theorem toNat_pushed (buf : UInt32) {value : ℕ} (small : value < 64) :
    ((buf <<< 6) ||| .ofNat value).toNat = (buf.toNat * 64 + value) % 2 ^ 32 := by
  have six : (6 : UInt32).toNat % 32 = 6 := rfl
  have shifted : (buf <<< 6).toNat = 2 ^ 6 * (buf.toNat % 2 ^ 26) := by
    rw [UInt32.toNat_shiftLeft, six, Nat.shiftLeft_eq]
    omega
  rw [UInt32.toNat_or, shifted, UInt32.toNat_ofNat', Nat.mod_eq_of_lt (by omega : value < 2 ^ 32),
    ← Nat.two_pow_add_eq_or_of_lt small]
  omega

/-- The loop computes with words what the loop over numbers does. -/
theorem decodeFrom_eq (buf : UInt32) {bits : UInt32} (few : bits.toNat < 8) (bytes : List UInt8) :
    decodeFrom buf bits (bytes.map plainByte) = base64urlDecodeFrom buf.toNat bits.toNat bytes := by
  induction bytes generalizing buf bits with
  | nil => rfl
  | cons byte rest ih =>
    obtain ⟨pad, digit⟩ := plainByte_spec byte
    rw [List.map_cons, decodeFrom, base64urlDecodeFrom, digit]
    by_cases padded : byte = 0x3D
    · rw [if_pos (pad.mpr padded), if_pos padded]
    · rw [if_neg (mt pad.mp padded), if_neg padded]
      cases read : sextet byte with
      | none => rfl
      | some value =>
        have pushed := toNat_pushed buf (sextet_lt read)
        have six : (6 : UInt32).toNat = 6 := rfl
        have eight : (8 : UInt32).toNat = 8 := rfl
        have more : (bits + 6).toNat = bits.toNat + 6 := by
          rw [UInt32.toNat_add, six]
          omega
        simp only [Option.bind_eq_bind, Option.bind_some]
        by_cases full : bits.toNat + 6 ≥ 8
        · have full' : bits + 6 ≥ 8 := by
            rw [ge_iff_le, UInt32.le_iff_toNat_le, more, eight]
            exact full
          have less : (bits + 6 - 8).toNat = bits.toNat + 6 - 8 := by
            rw [UInt32.toNat_sub_of_le _ _ full', more, eight]
          have byte' : (((buf <<< 6) ||| .ofNat value) >>> (bits + 6 - 8)).toUInt8 =
              UInt8.ofNat ((buf.toNat * 64 + value) % 2 ^ 32 / 2 ^ (bits.toNat + 6 - 8)) := by
            apply UInt8.toNat.inj
            rw [UInt32.toNat_toUInt8, UInt32.toNat_shiftRight, pushed, less, Nat.shiftRight_eq_div_pow,
              UInt8.toNat_ofNat', Nat.mod_eq_of_lt (by omega : bits.toNat + 6 - 8 < 32)]
          rw [if_pos full', if_pos full, ih _ (by omega), pushed, less, byte']
        · have open_ : ¬ bits + 6 ≥ 8 := by
            rw [ge_iff_le, UInt32.le_iff_toNat_le, more, eight]
            exact full
          rw [if_neg open_, if_neg full, ih _ (by omega), pushed, more]

theorem utf8_replaceChar {old new : UInt8} (small : old.toNat < 128) (small' : new.toNat < 128)
    (text : String) :
    Text.utf8 (replaceChar (Char.ofNat old.toNat) (Char.ofNat new.toNat) text) =
      (Text.utf8 text).map fun byte => if byte = old then new else byte := by
  have one (c : Char) :
      String.utf8EncodeChar (if c = Char.ofNat old.toNat then Char.ofNat new.toNat else c) =
        (String.utf8EncodeChar c).map fun byte => if byte = old then new else byte := by
    by_cases same : c = Char.ofNat old.toNat
    · rw [if_pos same, same, Text.utf8EncodeChar_ascii small, Text.utf8EncodeChar_ascii small',
        List.map_singleton, if_pos rfl]
    · rw [if_neg same]
      refine (List.map_id _).symm.trans (List.map_congr_left fun byte member => (if_neg ?_).symm)
      rintro rfl
      have number := Text.utf8EncodeChar_plain member small
      exact same (by rw [← number, Char.ofNat_toNat])
  rw [replaceChar, Text.utf8, Text.utf8, String.toList_ofList, List.flatMap_map, List.map_flatMap]
  exact List.flatMap_congr fun c _ => one c

theorem base64urlDecode_eq (input : String) : base64urlDecode input = Nwp.base64urlDecode input := by
  have inner := @utf8_replaceChar 0x2D 0x2B (by decide) (by decide) input
  have outer := @utf8_replaceChar 0x5F 0x2F (by decide) (by decide) (replaceChar '-' '+' input)
  change Text.utf8 (replaceChar '-' '+' input) = _ at inner
  change Text.utf8 (replaceChar '_' '/' (replaceChar '-' '+' input)) = _ at outer
  rw [base64urlDecode, outer, inner, List.map_map]
  exact decodeFrom_eq 0 (by decide) (Text.utf8 input)

theorem toNat_joined (b0 b1 b2 : UInt8) :
    ((b0.toUInt32 <<< 16) ||| (b1.toUInt32 <<< 8) ||| b2.toUInt32).toNat =
      b0.toNat * 2 ^ 16 + b1.toNat * 2 ^ 8 + b2.toNat := by
  have := b0.toNat_lt
  have := b1.toNat_lt
  have := b2.toNat_lt
  have high : (b0.toUInt32 <<< 16).toNat = 2 ^ 16 * b0.toNat := by
    have sixteen : (16 : UInt32).toNat % 32 = 16 := rfl
    rw [UInt32.toNat_shiftLeft, sixteen, Nat.shiftLeft_eq, UInt8.toNat_toUInt32]
    omega
  have middle : (b1.toUInt32 <<< 8).toNat = 2 ^ 8 * b1.toNat := by
    have eight : (8 : UInt32).toNat % 32 = 8 := rfl
    rw [UInt32.toNat_shiftLeft, eight, Nat.shiftLeft_eq, UInt8.toNat_toUInt32]
    omega
  have front : 2 ^ 16 * b0.toNat + 2 ^ 8 * b1.toNat = 2 ^ 8 * (2 ^ 8 * b0.toNat + b1.toNat) := by omega
  rw [UInt32.toNat_or, UInt32.toNat_or, high, middle, UInt8.toNat_toUInt32,
    ← Nat.two_pow_add_eq_or_of_lt (by omega : 2 ^ 8 * b1.toNat < 2 ^ 16), front,
    ← Nat.two_pow_add_eq_or_of_lt (by omega : b2.toNat < 2 ^ 8)]
  omega

/-- The digits of a chunk are the symbols of its bits. -/
theorem encodeChunk_eq (b0 b1 b2 : UInt8) (n : UInt32)
    (joined : n = (b0.toUInt32 <<< 16) ||| (b1.toUInt32 <<< 8) ||| b2.toUInt32) :
    urlSafe (digit (n >>> 18)) = Char.ofNat (Base64.symbol .urlSafe (b0.toNat / 4)).toNat ∧
    urlSafe (digit (n >>> 12)) =
      Char.ofNat (Base64.symbol .urlSafe (b0.toNat % 4 * 16 + b1.toNat / 16)).toNat ∧
    urlSafe (digit (n >>> 6)) =
      Char.ofNat (Base64.symbol .urlSafe (b1.toNat % 16 * 4 + b2.toNat / 64)).toNat ∧
    urlSafe (digit n) = Char.ofNat (Base64.symbol .urlSafe (b2.toNat % 64)).toNat := by
  have := b0.toNat_lt
  have := b1.toNat_lt
  have := b2.toNat_lt
  have number := toNat_joined b0 b1 b2
  rw [← joined] at number
  have shift (count : UInt32) (small : count.toNat < 32) :
      (n >>> count).toNat = n.toNat / 2 ^ count.toNat := by
    rw [UInt32.toNat_shiftRight, Nat.shiftRight_eq_div_pow, Nat.mod_eq_of_lt small]
  refine ⟨urlSafe_digit _ ?_, urlSafe_digit _ ?_, urlSafe_digit _ ?_, urlSafe_digit _ ?_⟩
  · rw [shift 18 (by decide), number]
    change (b0.toNat * 2 ^ 16 + b1.toNat * 2 ^ 8 + b2.toNat) / 2 ^ 18 % 64 = _
    omega
  · rw [shift 12 (by decide), number]
    change (b0.toNat * 2 ^ 16 + b1.toNat * 2 ^ 8 + b2.toNat) / 2 ^ 12 % 64 = _
    omega
  · rw [shift 6 (by decide), number]
    change (b0.toNat * 2 ^ 16 + b1.toNat * 2 ^ 8 + b2.toNat) / 2 ^ 6 % 64 = _
    omega
  · rw [number]
    omega

theorem chunks_symbols (bytes : List UInt8) :
    ((chunks3 bytes).flatMap encodeChunk).map urlSafe =
      (Base64.encodeBytes .urlSafe .none bytes).map fun byte => Char.ofNat byte.toNat := by
  fun_induction Base64.encodeBytes .urlSafe .none bytes with
  | case1 b0 b1 b2 rest ih =>
    obtain ⟨d0, d1, d2, d3⟩ := encodeChunk_eq b0 b1 b2 _ rfl
    simp [chunks3, encodeChunk, ih, d0, d1, d2, d3]
  | case2 b0 b1 =>
    obtain ⟨d0, d1, d2, -⟩ := encodeChunk_eq b0 b1 0 _ rfl
    simpa [chunks3, encodeChunk, Base64.padding] using And.intro d0 (And.intro d1 d2)
  | case3 b0 =>
    obtain ⟨d0, d1, -, -⟩ := encodeChunk_eq b0 0 0 _ rfl
    simpa [chunks3, encodeChunk, Base64.padding] using And.intro d0 d1
  | case4 => rfl

theorem base64urlEncode_eq (input : List UInt8) :
    base64urlEncode input = Nwp.base64urlEncode input := by
  rw [base64urlEncode, replaceChar, replaceChar, String.toList_ofList, String.toList_ofList,
    List.map_map]
  exact congrArg String.ofList (chunks_symbols input)

theorem base64urlDecode_encode (bytes : List UInt8) :
    base64urlDecode (base64urlEncode bytes) = some bytes := by
  rw [base64urlDecode_eq, base64urlEncode_eq, Nwp.base64urlDecode_encode]

/-- Groups of four symbols, and at the end maybe one of two or three, of which the last holds no
more bits than the bytes need. -/
inductive Canonical : List UInt8 → Prop
  | nil : Canonical []
  | two {v0 v1 : ℕ} : v0 < 64 → v1 < 64 → v1 % 16 = 0 →
      Canonical [Base64.symbol .urlSafe v0, Base64.symbol .urlSafe v1]
  | three {v0 v1 v2 : ℕ} : v0 < 64 → v1 < 64 → v2 < 64 → v2 % 4 = 0 →
      Canonical [Base64.symbol .urlSafe v0, Base64.symbol .urlSafe v1, Base64.symbol .urlSafe v2]
  | four {v0 v1 v2 v3 : ℕ} {rest : List UInt8} : v0 < 64 → v1 < 64 → v2 < 64 → v3 < 64 →
      Canonical rest →
      Canonical (Base64.symbol .urlSafe v0 :: Base64.symbol .urlSafe v1 ::
        Base64.symbol .urlSafe v2 :: Base64.symbol .urlSafe v3 :: rest)

theorem canonical_encodeBytes (bytes : List UInt8) :
    Canonical (Base64.encodeBytes .urlSafe .none bytes) := by
  fun_induction Base64.encodeBytes .urlSafe .none bytes with
  | case1 b0 b1 b2 rest ih =>
    obtain ⟨v0, v1, v2, v3⟩ := Base64.byte_bounds b0 b1 b2
    exact .four v0 v1 v2 v3 ih
  | case2 b0 b1 =>
    obtain ⟨v0, v1, v2, -⟩ := Base64.byte_bounds b0 b1 0
    rw [UInt8.toNat_zero, Nat.zero_div, Nat.add_zero] at v2
    exact .three v0 v1 v2 (by omega)
  | case3 b0 =>
    obtain ⟨v0, v1, -, -⟩ := Base64.byte_bounds b0 0 0
    rw [UInt8.toNat_zero, Nat.zero_div, Nat.add_zero] at v1
    exact .two v0 v1 (by omega)
  | case4 => exact .nil

/-- The bytes of a group, from the bits of its symbols. -/
theorem Canonical.encoded {text : List UInt8} (canonical : Canonical text) :
    ∃ bytes, Base64.encodeBytes .urlSafe .none bytes = text := by
  have byte {n : ℕ} (small : n < 256) : (UInt8.ofNat n).toNat = n := by
    rw [UInt8.toNat_ofNat', Nat.mod_eq_of_lt small]
  induction canonical with
  | nil => exact ⟨[], rfl⟩
  | @two v0 v1 small0 small1 spare =>
    refine ⟨[.ofNat (v0 * 4 + v1 / 16)], ?_⟩
    have first : (v0 * 4 + v1 / 16) / 4 = v0 := by omega
    have second : (v0 * 4 + v1 / 16) % 4 * 16 = v1 := by omega
    rw [Base64.encodeBytes, byte (by omega), first, second]
    rfl
  | @three v0 v1 v2 small0 small1 small2 spare =>
    refine ⟨[.ofNat (v0 * 4 + v1 / 16), .ofNat (v1 % 16 * 16 + v2 / 4)], ?_⟩
    have first : (v0 * 4 + v1 / 16) / 4 = v0 := by omega
    have second : (v0 * 4 + v1 / 16) % 4 * 16 + (v1 % 16 * 16 + v2 / 4) / 16 = v1 := by omega
    have third : (v1 % 16 * 16 + v2 / 4) % 16 * 4 = v2 := by omega
    rw [Base64.encodeBytes, byte (by omega), byte (by omega), first, second, third]
    rfl
  | @four v0 v1 v2 v3 rest small0 small1 small2 small3 canonical ih =>
    obtain ⟨others, same⟩ := ih
    refine ⟨.ofNat (v0 * 4 + v1 / 16) :: .ofNat (v1 % 16 * 16 + v2 / 4) ::
      .ofNat (v2 % 4 * 64 + v3) :: others, ?_⟩
    have first : (v0 * 4 + v1 / 16) / 4 = v0 := by omega
    have second : (v0 * 4 + v1 / 16) % 4 * 16 + (v1 % 16 * 16 + v2 / 4) / 16 = v1 := by omega
    have third : (v1 % 16 * 16 + v2 / 4) % 16 * 4 + (v2 % 4 * 64 + v3) / 64 = v2 := by omega
    have fourth : (v2 % 4 * 64 + v3) % 64 = v3 := by omega
    rw [Base64.encodeBytes, byte (by omega), byte (by omega), byte (by omega), first, second, third,
      fourth, same]
    rfl

theorem canonical_iff {text : String} :
    Canonical (Text.utf8 text) ↔ ∃ bytes, base64urlEncode bytes = text := by
  constructor
  · intro canonical
    obtain ⟨bytes, same⟩ := canonical.encoded
    refine ⟨bytes, Text.utf8_injective ?_⟩
    rw [base64urlEncode_eq, Nwp.base64urlEncode, Base64.utf8_encode, same]
  · rintro ⟨bytes, rfl⟩
    rw [base64urlEncode_eq, Nwp.base64urlEncode, Base64.utf8_encode]
    exact canonical_encodeBytes bytes

theorem encodeCursor_eq (nextOffset : ℤ) : encodeCursor nextOffset = Nwp.encodeCursor nextOffset := by
  rw [encodeCursor, Nwp.encodeCursor, base64urlEncode_eq]

theorem base64urlEncode_ne_empty {bytes : List UInt8} (some_ : bytes ≠ []) :
    base64urlEncode bytes ≠ "" := by
  intro empty
  have read := base64urlDecode_encode bytes
  rw [empty, show base64urlDecode "" = some [] from rfl] at read
  exact some_ (Option.some.inj read).symm

section
variable [Nip.Serde]

theorem decodeCursor_some {cursor : String} (filled : cursor ≠ "") :
    decodeCursor (some cursor) = Nwp.decodeCursor (some cursor) := by
  rw [decodeCursor, if_neg filled, base64urlDecode_eq]
  rfl

theorem decodeCursor_encodeCursor (reads : ReadsOffsets) {offset : ℤ} (least : 0 ≤ offset)
    (small : offset < 2 ^ 63) : decodeCursor (encodeCursor offset) = offset := by
  by_cases positive : 0 < offset
  · obtain ⟨n, rfl⟩ := Int.eq_ofNat_of_zero_le least
    have written : encodeCursor n = some (base64urlEncode (Text.utf8 (cursorJson n))) :=
      if_neg (Int.not_le.mpr positive)
    have filled : base64urlEncode (Text.utf8 (cursorJson n)) ≠ "" := by
      refine base64urlEncode_ne_empty ?_
      rw [cursorJson, Text.utf8_append, Text.utf8_append]
      exact List.append_ne_nil_of_right_ne_nil _ (by decide)
    rw [written, decodeCursor_some filled, ← written, encodeCursor_eq]
    exact Nwp.decodeCursor_encodeCursor reads (by omega) (by omega)
  · have first : offset = 0 := by omega
    rw [first]
    rfl

/-- Offsets and bytes are read back; a text that is accepted is written back just if it is in the
form of the encoder. -/
theorem codec_exact (reads : ReadsOffsets) :
    (∀ offset : ℤ, 0 ≤ offset → offset < 2 ^ 63 → decodeCursor (encodeCursor offset) = offset) ∧
    (∀ bytes, base64urlDecode (base64urlEncode bytes) = some bytes) ∧
    ∀ text bytes, base64urlDecode text = some bytes →
      (base64urlEncode bytes = text ↔ Canonical (Text.utf8 text)) := by
  refine ⟨fun offset => decodeCursor_encodeCursor reads, base64urlDecode_encode, ?_⟩
  intro text bytes decoded
  rw [canonical_iff]
  constructor
  · exact fun same => ⟨bytes, same⟩
  · rintro ⟨written, rfl⟩
    rw [base64urlDecode_encode] at decoded
    rw [Option.some.inj decoded]

end

/-- A cursor and two bytes, where the reader knows offsets. -/
theorem codec_exact_offsets : letI := ThreeRows.offsetReader
    decodeCursor (encodeCursor 40) = 40 ∧ Canonical (Text.utf8 (base64urlEncode [42, 1])) := by
  let _ := ThreeRows.offsetReader
  obtain ⟨offsets, bytes, texts⟩ := codec_exact ThreeRows.offsetReader_reads
  exact ⟨offsets 40 (by decide) (by decide), (texts _ _ (bytes [42, 1])).mp rfl⟩

/-- Padding is taken, and not written again. -/
theorem padding_dropped :
    ¬ ∀ text bytes, base64urlDecode text = some bytes → base64urlEncode bytes = text := by
  have decoded : base64urlDecode "QQ==" = some [0x41] := by
    rw [base64urlDecode_eq]
    decide
  intro exact_
  have written := exact_ "QQ==" [0x41] decoded
  rw [base64urlEncode_eq] at written
  exact absurd written (by decide)

end CursorCodec
end Nps.Nwp
