import NpsSdk.Lib.LengthPrefix
import NpsSdk.Nip.X509.DerCursor

/-! What the DER readers make of values in any definite form, and of certificates in the distinguished
one. -/
namespace Nps.Nip.X509.Der
open Wire (Bytes number)
open LengthPrefix
open DerCursor (der_read_cons der_findExtensions_eq der_findExtension_eq der_parseUtf8Strings_eq)

theorem bits_of_byte : ∀ n < 256, (UInt8.ofNat n &&& 0x80 = 0 ↔ n < 128) ∧
    (UInt8.ofNat n &&& 0x7F).toNat = n % 128 := by
  decide +kernel

theorem high_bit (first : UInt8) : first &&& 0x80 = 0 ↔ first.toNat < 128 := by
  have bits := (bits_of_byte first.toNat first.toNat_lt).1
  rwa [UInt8.ofNat_toNat] at bits

theorem low_bits (first : UInt8) : (first &&& 0x7F).toNat = first.toNat % 128 := by
  have bits := (bits_of_byte first.toNat first.toNat_lt).2
  rwa [UInt8.ofNat_toNat] at bits

theorem readLen_spells {lead tail : Bytes} {len : Nat} (spells : Spells 4 lead len) :
    readLen (lead ++ tail) = some (len, lead.length) := by
  cases spells with
  | short first small => rw [List.singleton_append, readLen, if_pos ((high_bit first).mpr small)]; rfl
  | long first digits count some_ few =>
    have positive := List.length_pos_of_ne_nil some_
    have n : (first &&& 0x7F).toNat = digits.length := by
      rw [low_bits]
      omega
    rw [List.cons_append, readLen, if_neg fun low => by have := (high_bit first).mp low; omega]
    dsimp only
    rw [n, if_neg (by rw [List.length_append]; omega), List.take_left, List.length_cons, Nat.add_comm]

theorem spells_of_readLen {rest : Bytes} {len header : Nat} (read : readLen rest = some (len, header)) :
    ∃ lead tail, Spells 4 lead len ∧ lead.length = header ∧ rest = lead ++ tail := by
  unfold readLen at read
  split at read
  · cases read
  · rename_i first rest
    split at read
    · rename_i low
      cases read
      exact ⟨[first], rest, .short first ((high_bit first).mp low), rfl, rfl⟩
    · rename_i high
      dsimp only at read
      split at read
      · cases read
      · rename_i within
        cases read
        obtain ⟨some_, few, enough⟩ : _ ∧ _ ∧ _ := by simpa only [not_or] using within
        have bits := low_bits first
        have byte := first.toNat_lt
        have high' : ¬ first.toNat < 128 := fun small => high ((high_bit first).mpr small)
        have taken : (rest.take (first &&& 0x7F).toNat).length = (first &&& 0x7F).toNat :=
          List.length_take_of_le (by omega)
        refine ⟨first :: rest.take (first &&& 0x7F).toNat, rest.drop (first &&& 0x7F).toNat,
          .long first _ (by omega) ?_ (by omega), ?_, ?_⟩
        · intro none
          rw [none] at taken
          exact some_ taken.symm
        · rw [List.length_cons, taken, Nat.add_comm]
        · rw [List.cons_append, List.take_append_drop]

/-- What is read is a value in any definite form, with a length of four bytes at most. -/
theorem read_iff {input content rest : Bytes} {tag : UInt8} :
    read input = some (⟨tag, content⟩, rest) ↔
      ∃ lead, Spells 4 lead content.length ∧ input = tag :: (lead ++ (content ++ rest)) := by
  constructor
  · intro done
    cases input with
    | nil => cases done
    | cons first bytes =>
      rw [der_read_cons] at done
      obtain ⟨⟨len, header⟩, length, done⟩ := Option.bind_eq_some_iff.mp done
      obtain ⟨lead, tail, spells, rfl, rfl⟩ := spells_of_readLen length
      dsimp only at done
      split at done
      · rename_i fits
        cases done
        rw [List.length_append] at fits
        have size : (tail.take len).length = len := List.length_take_of_le (by omega)
        rw [List.drop_left, ← List.drop_drop, List.drop_left, List.take_append_drop, size]
        exact ⟨lead, spells, rfl⟩
      · cases done
  · rintro ⟨lead, spells, rfl⟩
    have fits : lead.length + content.length ≤ (lead ++ (content ++ rest)).length := by
      simp only [List.length_append]
      omega
    rw [der_read_cons, readLen_spells spells, Option.bind_some]
    dsimp only
    rw [if_pos fits, ← List.drop_drop, List.drop_left, List.take_left, List.drop_left]

theorem read_element {content : Bytes} (short : content.length < 2 ^ 32) (tag : UInt8) (rest : Bytes) :
    read (element tag content ++ rest) = some (⟨tag, content⟩, rest) := by
  refine read_iff.mpr ⟨_, @spells_lengthBytes 4 _ (by decide) short, ?_⟩
  rw [element, List.cons_append, List.append_assoc]

theorem read_long {content : Bytes} (long : 2 ^ 32 ≤ content.length) (sized : content.length < 2 ^ 64)
    (tag : UInt8) (rest : Bytes) : read (element tag content ++ rest) = none := by
  cases done : read (element tag content ++ rest) with
  | none => rfl
  | some result =>
    obtain ⟨⟨first, content'⟩, rest'⟩ := result
    obtain ⟨lead, spells, same⟩ := read_iff.mp done
    have spells' : Spells 8 (lengthBytes content.length) content.length :=
      spells_lengthBytes (by decide) sized
    rw [element, List.cons_append, List.append_assoc] at same
    obtain ⟨-, lengths, -⟩ := spells'.unique (spells.mono (by decide)) (List.cons.inj same).2
    have bound := spells.lt
    omega

theorem expect_iff {input content rest : Bytes} {tag : UInt8} :
    expect tag input = some (content, rest) ↔ read input = some (⟨tag, content⟩, rest) := by
  unfold expect
  cases read input with
  | none => simp
  | some result =>
    obtain ⟨⟨first, content'⟩, rest'⟩ := result
    by_cases same : first = tag
    · simp [same]
    · simp [same]

theorem expect_element {content : Bytes} (short : content.length < 2 ^ 32) (tag : UInt8) (rest : Bytes) :
    expect tag (element tag content ++ rest) = some (content, rest) :=
  expect_iff.mpr (read_element short tag rest)

def encodeAll (values : List Tlv) : Bytes := values.flatMap fun value => element value.tag value.content

/-- A certificate in the distinguished form: the fields of its body, with the extensions last, and the
signature. Of an extension no more is asked than that it is a sequence of values. -/
structure CertificateForm where
  fields : List Tlv
  plain : ∀ field ∈ fields, field.tag ≠ 0xA3
  extensions : Option (List (List Tlv))
  signature : List Tlv

namespace CertificateForm
variable (cert : CertificateForm)

def entries : List (List Tlv) := cert.extensions.getD []

def entryBytes (entries : List (List Tlv)) : Bytes :=
  entries.flatMap fun entry => element 0x30 (encodeAll entry)

def block : Bytes :=
  match cert.extensions with
  | none => []
  | some entries => element 0xA3 (element 0x30 (entryBytes entries))

def content : Bytes :=
  element 0x30 (encodeAll cert.fields ++ cert.block) ++ encodeAll cert.signature

def der : Bytes := element 0x30 cert.content

def extension? (identifier : Bytes) : Option (List Tlv) :=
  cert.entries.find? fun entry => entry.head? = some ⟨0x06, identifier⟩

def octets (entry : List Tlv) : Option Bytes :=
  match entry.drop 1 with
  | [] => none
  | first :: rest =>
    (if first.tag = 0x01 then rest.head? else some first).bind fun value =>
      if value.tag = 0x04 then some value.content else none

end CertificateForm

section
open CertificateForm

theorem encodeAll_cons (value : Tlv) (rest : List Tlv) :
    encodeAll (value :: rest) = element value.tag value.content ++ encodeAll rest := List.flatMap_cons

theorem entryBytes_cons (entry : List Tlv) (rest : List (List Tlv)) :
    entryBytes (entry :: rest) = element 0x30 (encodeAll entry) ++ entryBytes rest := List.flatMap_cons

theorem read_encodeAll {values : List Tlv} (short : (encodeAll values).length < 2 ^ 32) :
    read (encodeAll values) = values.head?.map fun value => (value, encodeAll values.tail) := by
  cases values with
  | nil => rfl
  | cons value rest =>
    have inside := element_length value.tag value.content
    rw [encodeAll_cons] at short ⊢
    rw [List.length_append] at short
    exact read_element (by omega) _ _

theorem extensionValue_encodeAll {entry : List Tlv} (short : (encodeAll entry).length < 2 ^ 32) :
    extensionValue (encodeAll entry.tail) = octets entry := by
  rw [octets, List.drop_one]
  cases entry with
  | nil => rfl
  | cons identifier rest =>
    rw [encodeAll_cons, List.length_append] at short
    rw [List.tail_cons, extensionValue, read_encodeAll (by omega)]
    cases rest with
    | nil => rfl
    | cons first rest =>
      rw [encodeAll_cons, List.length_append] at short
      simp only [List.head?_cons, Option.map_some, Option.bind_eq_bind, Option.bind_some, List.tail_cons,
        @read_encodeAll rest (by omega)]
      by_cases flag : first.tag = 0x01
      · rw [if_pos flag, if_pos flag, Option.map_map]
        cases rest <;> rfl
      · rw [if_neg flag, if_neg flag]
        rfl

theorem findExtension_entryBytes (wanted : Bytes) {entries : List (List Tlv)}
    (short : (entryBytes entries).length < 2 ^ 32) :
    findExtension wanted (entryBytes entries) =
      (entries.find? fun entry => entry.head? = some ⟨0x06, wanted⟩).bind octets := by
  induction entries with
  | nil =>
    rw [der_findExtension_eq]
    rfl
  | cons entry rest ih =>
    have inside := element_length 0x30 (encodeAll entry)
    rw [entryBytes_cons, List.length_append] at short
    rw [entryBytes_cons, der_findExtension_eq, read_element (by omega), Option.bind_some]
    dsimp only
    rw [if_pos rfl, Option.bind_some, read_encodeAll (by omega), List.find?_cons, ih (by omega)]
    cases entry with
    | nil => rfl
    | cons first values =>
      obtain ⟨tag, identifier⟩ := first
      have values_ := @extensionValue_encodeAll (⟨tag, identifier⟩ :: values) (by omega)
      rw [List.tail_cons] at values_
      by_cases same : tag = 0x06 ∧ identifier = wanted
      · obtain ⟨rfl, rfl⟩ := same
        simp [values_]
      · simp [same]

theorem findExtensions_fields {fields : List Tlv} (plain : ∀ field ∈ fields, field.tag ≠ 0xA3)
    {rest : Bytes} (short : (encodeAll fields ++ rest).length < 2 ^ 32) :
    findExtensions (encodeAll fields ++ rest) = findExtensions rest := by
  induction fields with
  | nil => rfl
  | cons field others ih =>
    have inside := element_length field.tag field.content
    rw [encodeAll_cons, List.append_assoc, List.length_append] at short
    rw [encodeAll_cons, List.append_assoc, der_findExtensions_eq, read_element (by omega), Option.bind_some]
    dsimp only
    rw [if_neg (plain field List.mem_cons_self)]
    exact ih (fun other later => plain other (List.mem_cons_of_mem _ later)) (by omega)

/-- The readers find an extension by its identifier, in every certificate of less than 4 GiB. -/
theorem findExtensionValue_der {cert : CertificateForm} (short : cert.content.length < 2 ^ 32) (oid : Oid) :
    findExtensionValue cert.der oid = (cert.extension? (encodeOidContent oid)).bind octets := by
  have body := element_length 0x30 (encodeAll cert.fields ++ cert.block)
  have whole := expect_element short 0x30 []
  rw [List.append_nil] at whole
  have within : (encodeAll cert.fields ++ cert.block).length < 2 ^ 32 := by
    rw [CertificateForm.content, List.length_append] at short
    omega
  rw [findExtensionValue, CertificateForm.der, whole]
  simp only [Option.bind_eq_bind, Option.bind_some]
  rw [CertificateForm.content, expect_element within, Option.bind_some]
  dsimp only
  rw [findExtensions_fields cert.plain within, CertificateForm.extension?, CertificateForm.entries]
  rw [CertificateForm.block] at within ⊢
  cases listed : cert.extensions with
  | none =>
    rw [der_findExtensions_eq]
    rfl
  | some entries =>
    rw [listed, List.length_append] at within
    dsimp only at within ⊢
    have outer := element_length 0xA3 (element 0x30 (entryBytes entries))
    have inner := element_length 0x30 (entryBytes entries)
    have first := @read_element (element 0x30 (entryBytes entries)) (by omega) 0xA3 []
    have second := @expect_element (entryBytes entries) (by omega) 0x30 []
    rw [List.append_nil] at first second
    rw [der_findExtensions_eq, first, Option.bind_some]
    dsimp only
    rw [if_pos rfl, Option.bind_some, second, Option.bind_some]
    exact findExtension_entryBytes _ (by omega)

theorem findExtensionValue_long {cert : CertificateForm} (long : 2 ^ 32 ≤ cert.content.length)
    (sized : cert.content.length < 2 ^ 64) (oid : Oid) : findExtensionValue cert.der oid = none := by
  have unread := read_long long sized 0x30 []
  rw [List.append_nil] at unread
  rw [findExtensionValue, CertificateForm.der, expect, unread]
  rfl

end

/-- Texts one after another, each in any definite form. -/
inductive LooseTexts : Bytes → List String → Prop where
  | nil : LooseTexts [] []
  | cons {lead rest : Bytes} {text : String} {others : List String} :
    Spells 4 lead (Text.utf8 text).length → LooseTexts rest others →
    LooseTexts (0x0C :: (lead ++ (Text.utf8 text ++ rest))) (text :: others)

/-- A sequence of texts in any definite form, whatever comes after it. -/
def LooseSequence (value : Bytes) (texts : List String) : Prop :=
  ∃ lead content rest, Spells 4 lead content.length ∧ LooseTexts content texts ∧
    value = 0x30 :: (lead ++ (content ++ rest))

theorem parseUtf8Strings_iff {input : Bytes} {texts : List String} :
    parseUtf8Strings input = some texts ↔ LooseTexts input texts := by
  constructor
  · intro parsed
    induction texts generalizing input with
    | nil =>
      rw [der_parseUtf8Strings_eq] at parsed
      split_ifs at parsed with empty
      · exact empty ▸ .nil
      · obtain ⟨_, -, parsed⟩ := Option.bind_eq_some_iff.mp parsed
        obtain ⟨_, -, parsed⟩ := Option.bind_eq_some_iff.mp parsed
        obtain ⟨_, -, parsed⟩ := Option.bind_eq_some_iff.mp parsed
        cases parsed
    | cons text others ih =>
      rw [der_parseUtf8Strings_eq] at parsed
      split_ifs at parsed with empty
      · cases parsed
      obtain ⟨⟨⟨tag, content⟩, rest⟩, read, strings⟩ := Option.bind_eq_some_iff.mp parsed
      obtain ⟨lead, spells, rfl⟩ := read_iff.mp read
      obtain ⟨first, decoded, strings⟩ := Option.bind_eq_some_iff.mp strings
      obtain ⟨later, parsed', same⟩ := Option.bind_eq_some_iff.mp strings
      cases same
      dsimp only at decoded
      split_ifs at decoded with tagged
      cases tagged
      obtain rfl := Text.ofUtf8?_eq_some.mp decoded
      exact .cons spells (ih parsed')
  · intro loose
    induction loose with
    | nil => rw [der_parseUtf8Strings_eq, if_pos rfl]
    | cons spells _ ih =>
      rw [der_parseUtf8Strings_eq, if_neg (List.cons_ne_nil _ _), read_iff.mpr ⟨_, spells, rfl⟩,
        Option.bind_some]
      dsimp only
      rw [if_pos rfl, Text.ofUtf8?_eq_some.mpr rfl, Option.bind_some, ih, Option.bind_some]

theorem parseUtf8Sequence_iff {value : Bytes} {texts : List String} :
    parseUtf8Sequence value = some texts ↔ LooseSequence value texts := by
  constructor
  · intro parsed
    obtain ⟨⟨content, rest⟩, read, strings⟩ := Option.bind_eq_some_iff.mp parsed
    obtain ⟨lead, spells, rfl⟩ := read_iff.mp (expect_iff.mp read)
    exact ⟨lead, content, rest, spells, parseUtf8Strings_iff.mp strings, rfl⟩
  · rintro ⟨lead, content, rest, spells, texts_, rfl⟩
    rw [parseUtf8Sequence, expect_iff.mpr (read_iff.mpr ⟨lead, spells, rfl⟩)]
    exact parseUtf8Strings_iff.mpr texts_

end Nps.Nip.X509.Der
