import Mathlib.Data.List.Basic
import Mathlib.Data.String.Basic
import Mathlib.Tactic.Common

/-! Strings as lists of Unicode characters, with the prefix, suffix and number
formatting operations programs use on them. -/
namespace Text

/-- The UTF-8 bytes of a text; its length in bytes is the length of this list. -/
def utf8 (text : String) : List UInt8 :=
  text.toList.flatMap String.utf8EncodeChar

/-- The code point the first bytes would spell, and how many of them it takes. -/
def codePoint : List UInt8 → Nat × Nat
  | b0 :: rest =>
    let low (index : Nat) : Nat := (rest.getD index 0).toNat % 64
    let lead := b0.toNat
    if lead < 0x80 then (lead, 1)
    else if lead < 0xE0 then (lead % 32 * 64 + low 0, 2)
    else if lead < 0xF0 then (lead % 16 * 4096 + low 0 * 64 + low 1, 3)
    else (lead % 8 * 262144 + low 0 * 4096 + low 1 * 64 + low 2, 4)
  | [] => (0, 0)

/-- A character is accepted only in the one spelling that encodes it. -/
def decodeChar (bytes : List UInt8) : Option Char :=
  let (code, count) := codePoint bytes
  if code.isValidChar ∧ String.utf8EncodeChar (Char.ofNat code) = bytes.take count then
    some (Char.ofNat code)
  else none

def decodeChars : Nat → List UInt8 → Option (List Char)
  | _, [] => some []
  | 0, _ => none
  | fuel + 1, bytes => do
    let c ← decodeChar bytes
    let rest ← decodeChars fuel (bytes.drop (String.utf8EncodeChar c).length)
    return c :: rest

/-- The text these bytes encode, when they are valid UTF-8. -/
def ofUtf8? (bytes : List UInt8) : Option String :=
  (decodeChars bytes.length bytes).map String.ofList

def slice? (first last : Nat) (text : String) : Option String :=
  let bytes := utf8 text
  if first ≤ last ∧ last ≤ bytes.length ∧ (ofUtf8? (bytes.take first)).isSome then
    ofUtf8? ((bytes.take last).drop first)
  else none

/-- A decimal integer with an optional sign and at least one digit. -/
def parseInt? (text : String) : Option Int :=
  let digits? (digits : List Char) : Option Nat :=
    if digits ≠ [] ∧ digits.all Char.isDigit then some (Nat.ofDigitChars 10 digits 0) else none
  match text.toList with
  | '-' :: digits => (digits? digits).map fun n => -(n : Int)
  | '+' :: digits => (digits? digits).map fun n => (n : Int)
  | digits => (digits? digits).map fun n => (n : Int)

def ascii (bytes : List UInt8) : String :=
  String.ofList (bytes.map fun byte => Char.ofNat byte.toNat)

def stripPrefix? (start text : String) : Option String :=
  if start.toList.isPrefixOf text.toList then some (String.ofList (text.toList.drop start.toList.length))
  else none

def startsWith (start text : String) : Bool :=
  start.toList.isPrefixOf text.toList

def stripSuffix? (ending text : String) : Option String :=
  if ending.toList.isSuffixOf text.toList then
    some (String.ofList (text.toList.take (text.toList.length - ending.toList.length)))
  else none

def trimEnd (drop : Char → Bool) (text : String) : String :=
  String.ofList (text.toList.reverse.dropWhile drop).reverse

def trimStart (drop : Char → Bool) (text : String) : String :=
  String.ofList (text.toList.dropWhile drop)

def breakOn (separator : List Char) : List Char → Option (List Char × List Char)
  | [] => if separator = [] then some ([], []) else none
  | c :: rest =>
    if separator.isPrefixOf (c :: rest) then some ([], (c :: rest).drop separator.length)
    else (breakOn separator rest).map fun (before, after) => (c :: before, after)

def splitOnce? (separator text : String) : Option (String × String) :=
  (breakOn separator.toList text.toList).map fun (before, after) =>
    (String.ofList before, String.ofList after)

/-- The characters with the Unicode property `White_Space`. -/
def isWhitespace (c : Char) : Bool :=
  let n := c.toNat
  decide (9 ≤ n ∧ n ≤ 13 ∨ n = 0x20 ∨ n = 0x85 ∨ n = 0xA0 ∨ n = 0x1680 ∨
    0x2000 ≤ n ∧ n ≤ 0x200A ∨ n = 0x2028 ∨ n = 0x2029 ∨ n = 0x202F ∨ n = 0x205F ∨ n = 0x3000)

def trim (text : String) : String :=
  trimEnd isWhitespace (trimStart isWhitespace text)

def contains (part text : String) : Bool :=
  text.toList.tails.any fun rest => part.toList.isPrefixOf rest

def lowerAscii (text : String) : String := String.ofList (text.toList.map Char.toLower)

def splitChars (separator : Char) : List Char → List (List Char)
  | [] => [[]]
  | c :: rest =>
    if c = separator then [] :: splitChars separator rest
    else match splitChars separator rest with
      | [] => [[c]]
      | part :: parts => (c :: part) :: parts

def split (separator : Char) (text : String) : List String :=
  (splitChars separator text.toList).map String.ofList

def padLeft (width : Nat) (fill : Char) (digits : List Char) : List Char :=
  List.replicate (width - digits.length) fill ++ digits

def upperHexDigits (n : Nat) : List Char :=
  (Nat.toDigits 16 n).map Char.toUpper

def upperHex (width n : Nat) : String :=
  String.ofList (padLeft width '0' (upperHexDigits n))

def lowerHex (width n : Nat) : String := String.ofList (padLeft width '0' (Nat.toDigits 16 n))

example : ofUtf8? (utf8 "é€a") = some "é€a" := by decide
example : ofUtf8? [0xC0, 0x80] = none := by decide
example : split ':' "urn:nps::ca" = ["urn", "nps", "", "ca"] := by decide
example : upperHex 6 10 = "00000A" := by decide

theorem utf8_append (a b : String) : utf8 (a ++ b) = utf8 a ++ utf8 b := by
  simp [utf8]

theorem utf8_injective {a b : String} (same : utf8 a = utf8 b) : a = b := by
  rw [← String.toByteArray_inj, ← String.utf8Encode_toList, ← String.utf8Encode_toList]
  exact congrArg List.toByteArray same

theorem utf8EncodeChar_ascii {byte : UInt8} (small : byte.toNat < 128) :
    String.utf8EncodeChar (Char.ofNat byte.toNat) = [byte] := by
  have valid : byte.toNat.isValidChar := .inl (by omega)
  have value : (Char.ofNat byte.toNat).val.toNat = byte.toNat := by
    rw [Char.ofNat, dif_pos valid]
    rfl
  have size : (Char.ofNat byte.toNat).utf8Size = 1 := by
    rw [Char.utf8Size, if_pos]
    rw [UInt32.le_iff_toNat_le, value]
    change byte.toNat ≤ 127
    omega
  rw [String.utf8EncodeChar_eq_singleton size, List.cons.injEq]
  refine ⟨UInt8.toNat_inj.mp ?_, rfl⟩
  rw [UInt32.toNat_toUInt8, value]
  omega

theorem utf8EncodeChar_plain {c : Char} {byte : UInt8} (member : byte ∈ String.utf8EncodeChar c)
    (small : byte.toNat < 128) : c.toNat = byte.toNat := by
  change c.val.toNat = byte.toNat
  unfold String.utf8EncodeChar at member
  dsimp only at member
  split_ifs at member with one two three
  · rw [List.mem_singleton.mp member, UInt8.toNat_ofNat']
    omega
  all_goals
    simp only [List.mem_cons, List.not_mem_nil, or_false] at member
    rcases member with rfl | rfl | rfl | rfl
    all_goals
      rw [UInt8.toNat_ofNat'] at small
      omega

theorem utf8_ascii {bytes : List UInt8} (small : ∀ byte ∈ bytes, byte.toNat < 128) :
    utf8 (ascii bytes) = bytes := by
  induction bytes with
  | nil => rfl
  | cons byte bytes ih =>
    have rest := ih fun other member => small other (List.mem_cons_of_mem _ member)
    simp only [utf8, ascii, String.toList_ofList, List.map_cons, List.flatMap_cons] at rest ⊢
    rw [utf8EncodeChar_ascii (small byte List.mem_cons_self), rest]
    rfl

theorem codePoint_encode (c : Char) (rest : List UInt8) :
    codePoint (String.utf8EncodeChar c ++ rest) =
      (c.toNat, (String.utf8EncodeChar c).length) := by
  have bound : c.val.toNat < 1114112 := by
    rcases c.valid with low | ⟨-, high⟩
    · omega
    · exact high
  change codePoint (_ ++ rest) = (c.val.toNat, _)
  unfold String.utf8EncodeChar
  dsimp only
  split_ifs with one two three <;>
    simp only [codePoint, List.cons_append, List.nil_append, List.getD_cons_zero,
      List.getD_cons_succ, UInt8.toNat_ofNat', List.length_cons, List.length_nil]
  · rw [if_pos (by omega), Nat.mod_eq_of_lt (by omega)]
  · rw [if_neg (by omega), if_pos (by omega)]
    congr 1
    omega
  · rw [if_neg (by omega), if_neg (by omega), if_pos (by omega)]
    congr 1
    omega
  · rw [if_neg (by omega), if_neg (by omega), if_neg (by omega)]
    congr 1
    omega

theorem decodeChar_encode (c : Char) (rest : List UInt8) :
    decodeChar (String.utf8EncodeChar c ++ rest) = some c := by
  have valid : c.toNat.isValidChar := c.valid
  have same : Char.ofNat c.toNat = c := Char.ofNat_toNat c
  simp only [decodeChar, codePoint_encode, same, List.take_left, valid, and_self, if_true]

theorem decodeChar_prefix {bytes : List UInt8} {c : Char} (decoded : decodeChar bytes = some c) :
    String.utf8EncodeChar c <+: bytes := by
  unfold decodeChar at decoded
  dsimp only at decoded
  split_ifs at decoded with spelled
  rw [← Option.some.inj decoded, spelled.2]
  exact List.take_prefix _ _

theorem decodeChars_encode (chars : List Char) {fuel : Nat}
    (enough : (chars.flatMap String.utf8EncodeChar).length ≤ fuel) :
    decodeChars fuel (chars.flatMap String.utf8EncodeChar) = some chars := by
  induction chars generalizing fuel with
  | nil => cases fuel <;> rfl
  | cons c rest ih =>
    have size := c.utf8Size_pos
    rw [← String.length_utf8EncodeChar] at size
    rw [List.flatMap_cons, List.length_append] at enough
    cases fuel with
    | zero => omega
    | succ fuel =>
      have others : decodeChars fuel (rest.flatMap String.utf8EncodeChar) = some rest :=
        ih (by omega)
      rw [List.flatMap_cons]
      cases encoded : String.utf8EncodeChar c ++ rest.flatMap String.utf8EncodeChar with
      | nil => simp [List.append_eq_nil_iff.mp encoded] at size
      | cons b bytes =>
        rw [decodeChars, ← encoded, decodeChar_encode, Option.bind_eq_bind, Option.bind_some,
          List.drop_left, others]
        · rfl
        · exact List.cons_ne_nil b bytes

theorem encode_decodeChars {fuel : Nat} {bytes : List UInt8} {chars : List Char}
    (decoded : decodeChars fuel bytes = some chars) :
    chars.flatMap String.utf8EncodeChar = bytes := by
  induction fuel generalizing bytes chars with
  | zero =>
    cases bytes with
    | nil =>
      cases decoded
      rfl
    | cons b bytes => cases decoded
  | succ fuel ih =>
    cases bytes with
    | nil =>
      cases decoded
      rfl
    | cons b bytes =>
      obtain ⟨c, first, decoded⟩ := Option.bind_eq_some_iff.mp decoded
      obtain ⟨rest, others, same⟩ := Option.bind_eq_some_iff.mp decoded
      cases same
      obtain ⟨tail, spelled⟩ := decodeChar_prefix first
      rw [← spelled, List.drop_left] at others
      rw [List.flatMap_cons, ih others, spelled]

theorem ofUtf8?_eq_some {bytes : List UInt8} {text : String} :
    ofUtf8? bytes = some text ↔ utf8 text = bytes := by
  constructor
  · intro decoded
    obtain ⟨chars, same, rfl⟩ := Option.map_eq_some_iff.mp decoded
    rw [utf8, String.toList_ofList, encode_decodeChars same]
  · rintro rfl
    rw [ofUtf8?, utf8, decodeChars_encode _ (Nat.le_refl _), Option.map_some, String.ofList_toList]

theorem utf8_prefix {front chars : List Char} {bytes : List UInt8}
    (spelled : front.flatMap String.utf8EncodeChar ++ bytes = chars.flatMap String.utf8EncodeChar) :
    ∃ rest, chars = front ++ rest ∧ bytes = rest.flatMap String.utf8EncodeChar := by
  induction front generalizing chars with
  | nil => exact ⟨chars, rfl, spelled⟩
  | cons c front ih =>
    rw [List.flatMap_cons, List.append_assoc] at spelled
    cases chars with
    | nil =>
      have size := c.utf8Size_pos
      rw [← String.length_utf8EncodeChar] at size
      simp [(List.append_eq_nil_iff.mp spelled).1] at size
    | cons d chars =>
      have first := congrArg decodeChar spelled
      rw [List.flatMap_cons, decodeChar_encode, decodeChar_encode] at first
      cases Option.some.inj first
      obtain ⟨rest, rfl, same⟩ := ih (List.append_cancel_left spelled)
      exact ⟨rest, rfl, same⟩

theorem parseInt?_digits {text : String} (some_ : text ≠ "") (digits : text.toList.all Char.isDigit) :
    parseInt? text = some (Nat.ofDigitChars 10 text.toList 0 : Int) := by
  have chars : text.toList ≠ [] := fun same => some_ (String.toList_inj.mp same)
  unfold parseInt?
  dsimp only
  split
  · rename_i rest same
    rw [same] at digits
    simp at digits
  · rename_i rest same
    rw [same] at digits
    simp at digits
  · rw [if_pos ⟨chars, digits⟩]
    rfl

theorem parseInt?_char {text : String} {n : Int} (parsed : parseInt? text = some n) :
    ∀ c ∈ text.toList, c.isDigit = true ∨ c = '-' ∨ c = '+' := by
  unfold parseInt? at parsed
  dsimp only at parsed
  split at parsed
  · rename_i digits same
    split_ifs at parsed with all
    · rw [same]
      exact List.forall_mem_cons.mpr
        ⟨.inr (.inl rfl), fun c member => .inl (List.all_eq_true.mp all.2 c member)⟩
    · cases parsed
  · rename_i digits same
    split_ifs at parsed with all
    · rw [same]
      exact List.forall_mem_cons.mpr
        ⟨.inr (.inr rfl), fun c member => .inl (List.all_eq_true.mp all.2 c member)⟩
    · cases parsed
  · split_ifs at parsed with all
    · exact fun c member => .inl (List.all_eq_true.mp all.2 c member)
    · cases parsed

theorem isPrefixOf_append (start rest : String) :
    start.toList.isPrefixOf (start ++ rest).toList = true := by
  rw [List.isPrefixOf_iff_prefix, String.toList_append]
  exact List.prefix_append _ _

theorem stripPrefix?_append (start rest : String) :
    stripPrefix? start (start ++ rest) = some rest := by
  rw [stripPrefix?, if_pos (isPrefixOf_append start rest), String.toList_append, List.drop_left,
    String.ofList_toList]

theorem stripPrefix?_eq_some {start text rest : String} :
    stripPrefix? start text = some rest ↔ text = start ++ rest := by
  constructor
  · intro stripped
    unfold stripPrefix? at stripped
    split_ifs at stripped with found
    obtain ⟨tail, same⟩ := List.isPrefixOf_iff_prefix.mp found
    rw [← Option.some.inj stripped, ← same, List.drop_left, ← String.toList_inj, ← same]
    simp
  · rintro rfl
    exact stripPrefix?_append start rest

theorem stripPrefix?_exclusive {start other text rest : String}
    (stripped : stripPrefix? start text = some rest)
    (apart : (start.toList.isPrefixOf other.toList || other.toList.isPrefixOf start.toList) = false) :
    stripPrefix? other text = none := by
  unfold stripPrefix?
  rw [if_neg]
  intro found
  cases stripPrefix?_eq_some.mp stripped
  have first : start.toList <+: (start ++ rest).toList :=
    List.isPrefixOf_iff_prefix.mp (isPrefixOf_append start rest)
  have second := List.isPrefixOf_iff_prefix.mp found
  rcases List.prefix_or_prefix_of_prefix first second with within | within
  · rw [List.isPrefixOf_iff_prefix.mpr within] at apart
    cases apart
  · rw [List.isPrefixOf_iff_prefix.mpr within, Bool.or_true] at apart
    cases apart

theorem stripSuffix?_eq_some {ending text rest : String} :
    stripSuffix? ending text = some rest ↔ text = rest ++ ending := by
  constructor
  · intro stripped
    unfold stripSuffix? at stripped
    split_ifs at stripped with found
    obtain ⟨head, same⟩ := List.isSuffixOf_iff_suffix.mp found
    rw [← Option.some.inj stripped, ← String.toList_inj, ← same]
    simp
  · rintro rfl
    unfold stripSuffix?
    rw [if_pos (List.isSuffixOf_iff_suffix.mpr ⟨rest.toList, by simp⟩)]
    simp

theorem stripSuffix?_exclusive {ending other text rest : String}
    (stripped : stripSuffix? ending text = some rest)
    (apart : (ending.toList.isSuffixOf other.toList || other.toList.isSuffixOf ending.toList) = false) :
    stripSuffix? other text = none := by
  unfold stripSuffix?
  rw [if_neg]
  intro found
  cases stripSuffix?_eq_some.mp stripped
  have first : ending.toList <:+ (rest ++ ending).toList := ⟨rest.toList, by simp⟩
  have second := List.isSuffixOf_iff_suffix.mp found
  rcases List.suffix_or_suffix_of_suffix first second with within | within
  · rw [List.isSuffixOf_iff_suffix.mpr within] at apart
    cases apart
  · rw [List.isSuffixOf_iff_suffix.mpr within, Bool.or_true] at apart
    cases apart

def digitValue (c : Char) : Nat := ['0', '1', '2', '3', '4', '5', '6', '7', '8', '9', 'a', 'b', 'c', 'd',
  'e', 'f'].idxOf c

def hexValue (n : Nat) (digits : List Char) : Nat :=
  digits.foldl (fun n c => 16 * n + digitValue c) n

theorem digitValue_digitChar {d : Nat} (small : d < 16) : digitValue d.digitChar = d := by
  have all : ∀ d < 16, digitValue d.digitChar = d := by decide
  exact all d small

theorem hexValue_append (n : Nat) (front back : List Char) :
    hexValue n (front ++ back) = hexValue (hexValue n front) back :=
  List.foldl_append

theorem hexValue_zeros (count : Nat) : hexValue 0 (List.replicate count '0') = 0 := by
  induction count with
  | zero => rfl
  | succ count ih => exact ih

theorem hexValue_toDigits (n : Nat) : hexValue 0 (Nat.toDigits 16 n) = n := by
  induction n using Nat.base_induction 16 (by decide) with
  | single d small =>
    rw [Nat.toDigits_of_lt_base small]
    exact (Nat.zero_add _).trans (digitValue_digitChar small)
  | digit n d small positive ih =>
    rw [← Nat.toDigits_append_toDigits (by decide) positive small, hexValue_append, ih,
      Nat.toDigits_of_lt_base small]
    exact congrArg (16 * n + ·) (digitValue_digitChar small)

theorem hexValue_lowerHex (width n : Nat) : hexValue 0 (lowerHex width n).toList = n := by
  rw [lowerHex, String.toList_ofList, padLeft, hexValue_append, hexValue_zeros, hexValue_toDigits]

theorem lowerHex_injective {width n m : Nat} (same : lowerHex width n = lowerHex width m) : n = m := by
  rw [← hexValue_lowerHex width n, same, hexValue_lowerHex]

theorem length_lowerHex {width n : Nat} (some_ : 0 < width) (fits : n < 16 ^ width) :
    (lowerHex width n).toList.length = width := by
  have short := (Nat.length_toDigits_le_iff (by decide) some_).mpr fits
  rw [lowerHex, String.toList_ofList, padLeft, List.length_append, List.length_replicate]
  omega

end Text
