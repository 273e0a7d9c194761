import NpsSdk.Nip.X509.CertificateDer

/-! An extension that attests something is absent, or lists texts, or is malformed and attests nothing:
where the reader tells these apart. -/
namespace Nps.Nip.X509
open Wire (Bytes)
open Der LengthPrefix

/-- An identifier in the distinguished form, in which the first two numbers are one. -/
def oidBytes : Oid → Bytes
  | first :: second :: rest => base128 (first * 40 + second) ++ rest.flatMap base128
  | _ => []

def utf8Sequence (texts : List String) : Bytes :=
  element 0x30 (texts.flatMap fun text => element 0x0C (Text.utf8 text))

/-- A well-formed extension that lists the texts. It is critical or not, but does not say that it is not. -/
def Lists (oid : Oid) (texts : List String) (entry : List Tlv) : Prop :=
  entry = [⟨0x06, oidBytes oid⟩, ⟨0x04, utf8Sequence texts⟩] ∨
    entry = [⟨0x06, oidBytes oid⟩, ⟨0x01, [0xFF]⟩, ⟨0x04, utf8Sequence texts⟩]

inductive Tristate (cert : CertificateForm) (oid : Oid) : Option (List String) → Prop where
  | absent : cert.extension? (oidBytes oid) = none → Tristate cert oid none
  | listed {entry : List Tlv} {texts : List String} :
    cert.extension? (oidBytes oid) = some entry → Lists oid texts entry → Tristate cert oid (some texts)
  | malformed {entry : List Tlv} : cert.extension? (oidBytes oid) = some entry →
    (∀ texts, ¬ Lists oid texts entry) → Tristate cert oid (some [])

/-- The certificate has less than 4 GiB, and the first extension with the bytes that are sought has this
octet string next. -/
def Found (cert : CertificateForm) (oid : Oid) (value : Bytes) : Prop :=
  cert.content.length < 2 ^ 32 ∧
    (cert.extension? (encodeOidContent oid)).bind CertificateForm.octets = some value

/-- Nothing is found and there is nothing. Or what is found lists texts, in any definite form and whatever
comes after them, just when the extension lists these. -/
def Faithful (cert : CertificateForm) (oid : Oid) : Prop :=
  (cert.extension? (oidBytes oid) = none ∧ ∀ value, ¬ Found cert oid value) ∨
    ∃ entry value, cert.extension? (oidBytes oid) = some entry ∧ Found cert oid value ∧
      ∀ texts, texts ≠ [] → (LooseSequence value texts ↔ Lists oid texts entry)

section
variable {cert : CertificateForm} {oid : Oid}

theorem read_found {value : Bytes} (found : Found cert oid value) :
    readUtf8SequenceExtension cert.der oid = some ((parseUtf8Sequence value).getD []) := by
  rw [readUtf8SequenceExtension, findExtensionValue_der found.1, found.2, Option.map_some]

theorem read_unfound (sized : cert.content.length < 2 ^ 64) (unfound : ∀ value, ¬ Found cert oid value) :
    readUtf8SequenceExtension cert.der oid = none := by
  rw [readUtf8SequenceExtension, Option.map_eq_none_iff]
  by_cases short : cert.content.length < 2 ^ 32
  · rw [findExtensionValue_der short]
    cases found : (cert.extension? (encodeOidContent oid)).bind CertificateForm.octets with
    | none => rfl
    | some value => exact absurd ⟨short, found⟩ (unfound value)
  · exact findExtensionValue_long (Nat.not_lt.mp short) sized oid

theorem encodeOidContent_eq {first second : Nat} {rest : Oid} (small : first * 40 + second < 128) :
    encodeOidContent (first :: second :: rest) = oidBytes (first :: second :: rest) := by
  have one : base128 (first * 40 + second) = [UInt8.ofNat (first * 40 + second)] := by
    rcases Nat.eq_zero_or_pos (first * 40 + second) with zero | positive
    · rw [zero]
      rfl
    · rw [base128, Nat.digits_of_lt 128 _ positive.ne' small]
      rfl
  rw [encodeOidContent, oidBytes, one]
  rfl

theorem mem_encodeAll_length {value : Tlv} {values : List Tlv} (member : value ∈ values) :
    value.content.length < (encodeAll values).length := by
  induction values with
  | nil => cases member
  | cons first rest ih =>
    have inside := element_length first.tag first.content
    rw [encodeAll_cons, List.length_append]
    rcases List.mem_cons.mp member with rfl | later
    · omega
    · have := ih later
      omega

theorem mem_entryBytes_length {entry : List Tlv} {entries : List (List Tlv)} (member : entry ∈ entries) :
    (encodeAll entry).length < (CertificateForm.entryBytes entries).length := by
  induction entries with
  | nil => cases member
  | cons first rest ih =>
    have inside := element_length 0x30 (encodeAll first)
    rw [entryBytes_cons, List.length_append]
    rcases List.mem_cons.mp member with rfl | later
    · omega
    · have := ih later
      omega

theorem entries_length (cert : CertificateForm) :
    (CertificateForm.entryBytes cert.entries).length ≤ cert.content.length := by
  have body := element_length 0x30 (encodeAll cert.fields ++ cert.block)
  have inside : (CertificateForm.entryBytes cert.entries).length ≤ cert.block.length := by
    rw [CertificateForm.block, CertificateForm.entries]
    cases cert.extensions with
    | none => exact Nat.zero_le _
    | some entries =>
      have outer := element_length 0xA3 (element 0x30 (CertificateForm.entryBytes entries))
      have inner := element_length 0x30 (CertificateForm.entryBytes entries)
      dsimp only [Option.getD_some]
      omega
  rw [List.length_append] at body
  rw [CertificateForm.content, List.length_append]
  omega

theorem value_length {identifier : Bytes} {entry : List Tlv}
    (first : cert.extension? identifier = some entry) {value : Tlv} (member : value ∈ entry) :
    value.content.length < cert.content.length := by
  have inside := mem_entryBytes_length (List.mem_of_find?_eq_some first)
  have := mem_encodeAll_length member
  have := entries_length cert
  omega

theorem looseTexts_encoded {texts : List String}
    (short : (texts.flatMap fun text => element 0x0C (Text.utf8 text)).length < 2 ^ 32) :
    LooseTexts (texts.flatMap fun text => element 0x0C (Text.utf8 text)) texts := by
  induction texts with
  | nil => exact .nil
  | cons text others ih =>
    have inside := element_length 0x0C (Text.utf8 text)
    rw [List.flatMap_cons, List.length_append] at short
    rw [List.flatMap_cons, element, List.cons_append, List.append_assoc]
    exact .cons (@spells_lengthBytes 4 _ (by decide) (by omega)) (ih (by omega))

theorem parseUtf8Sequence_encoded {texts : List String} (short : (utf8Sequence texts).length < 2 ^ 32) :
    parseUtf8Sequence (utf8Sequence texts) = some texts := by
  have inside := element_length 0x30 (texts.flatMap fun text => element 0x0C (Text.utf8 text))
  rw [utf8Sequence] at short
  refine parseUtf8Sequence_iff.mpr ⟨_, _, [], @spells_lengthBytes 4 _ (by decide) (by omega),
    looseTexts_encoded (by omega), ?_⟩
  rw [List.append_nil, utf8Sequence, element]

theorem Lists.unique {entry : List Tlv} {texts others : List String} (short : cert.content.length < 2 ^ 32)
    (first : cert.extension? (oidBytes oid) = some entry) (lists : Lists oid texts entry)
    (lists' : Lists oid others entry) : texts = others := by
  have same : utf8Sequence texts = utf8Sequence others := by
    rcases lists with rfl | rfl
    · rcases lists' with same | same
      · simpa using same
      · simp at same
    · rcases lists' with same | same
      · simp at same
      · simpa using same
  have member : (⟨0x04, utf8Sequence texts⟩ : Tlv) ∈ entry := by
    rcases lists with rfl | rfl <;> simp
  have size := value_length first member
  dsimp only at size
  have parsed := parseUtf8Sequence_encoded (Nat.lt_trans size short)
  rw [same, parseUtf8Sequence_encoded (same ▸ Nat.lt_trans size short)] at parsed
  exact (Option.some.inj parsed).symm

theorem Lists.octets_eq {entry : List Tlv} {texts : List String} (lists : Lists oid texts entry) :
    CertificateForm.octets entry = some (utf8Sequence texts) := by
  rcases lists with rfl | rfl <;> rfl

theorem Lists.faithful {entry : List Tlv} {texts : List String} (short : cert.content.length < 2 ^ 32)
    (sought : encodeOidContent oid = oidBytes oid) (first : cert.extension? (oidBytes oid) = some entry)
    (lists : Lists oid texts entry) : Faithful cert oid := by
  have found : Found cert oid (utf8Sequence texts) := by
    refine ⟨short, ?_⟩
    rw [sought, first, Option.bind_some, lists.octets_eq]
  have member : (⟨0x04, utf8Sequence texts⟩ : Tlv) ∈ entry := by
    rcases lists with rfl | rfl <;> simp
  have size : (utf8Sequence texts).length < cert.content.length := value_length first member
  have parsed := parseUtf8Sequence_encoded (Nat.lt_trans size short)
  refine .inr ⟨entry, _, first, found, fun others _ => ?_⟩
  rw [← parseUtf8Sequence_iff, parsed, Option.some.injEq]
  exact ⟨fun same => same ▸ lists, fun lists' => lists.unique short first lists'⟩

/-- An extension without an octet string passes for an absent one. -/
theorem read_octetless {entry : List Tlv} (short : cert.content.length < 2 ^ 32)
    (sought : encodeOidContent oid = oidBytes oid) (first : cert.extension? (oidBytes oid) = some entry)
    (none_ : CertificateForm.octets entry = none) : readUtf8SequenceExtension cert.der oid = none := by
  refine read_unfound (Nat.lt_trans short (by decide)) fun value found => ?_
  have same := found.2
  rw [sought, first, Option.bind_some, none_] at same
  cases same

/-- A list is read whatever comes after it. -/
theorem read_trailing {entry : List Tlv} {texts : List String} {rest : Bytes}
    (short : cert.content.length < 2 ^ 32) (sought : encodeOidContent oid = oidBytes oid)
    (first : cert.extension? (oidBytes oid) = some entry)
    (value : CertificateForm.octets entry = some (utf8Sequence texts ++ rest))
    (sized : (utf8Sequence texts).length < 2 ^ 32) : readUtf8SequenceExtension cert.der oid = some texts := by
  have found : Found cert oid (utf8Sequence texts ++ rest) := by
    refine ⟨short, ?_⟩
    rw [sought, first, Option.bind_some, value]
  obtain ⟨lead, content, after, spells, loose, same⟩ :=
    parseUtf8Sequence_iff.mp (parseUtf8Sequence_encoded sized)
  have parsed : parseUtf8Sequence (utf8Sequence texts ++ rest) = some texts := by
    refine parseUtf8Sequence_iff.mpr ⟨lead, content, after ++ rest, spells, loose, ?_⟩
    rw [same]
    simp only [List.cons_append, List.append_assoc]
  rw [read_found found, parsed, Option.getD_some]

/-- The reader tells the three states apart in exactly the faithful cases. -/
theorem tristate_iff (sized : cert.content.length < 2 ^ 64) :
    Tristate cert oid (readUtf8SequenceExtension cert.der oid) ↔ Faithful cert oid := by
  constructor
  · intro state
    by_cases found : ∃ value, Found cert oid value
    · obtain ⟨value, found⟩ := found
      rw [read_found found] at state
      refine .inr ?_
      generalize read : (parseUtf8Sequence value).getD [] = texts at state
      have loose (others : List String) (some_ : others ≠ []) : LooseSequence value others ↔ others = texts := by
        rw [← parseUtf8Sequence_iff]
        cases parsed : parseUtf8Sequence value with
        | none =>
          rw [parsed] at read
          exact ⟨nofun, fun same => absurd (same.trans read.symm) some_⟩
        | some list =>
          rw [parsed] at read
          rw [Option.some.injEq, ← read]
          exact eq_comm
      cases state with
      | listed first lists =>
        refine ⟨_, value, first, found, fun others some_ => (loose others some_).trans ?_⟩
        exact ⟨fun same => same ▸ lists, fun lists' => lists'.unique found.1 first lists⟩
      | malformed first none =>
        refine ⟨_, value, first, found, fun others some_ => (loose others some_).trans ?_⟩
        exact ⟨fun same => absurd same some_, fun lists => absurd lists (none others)⟩
    · have unfound := not_exists.mp found
      rw [read_unfound sized unfound] at state
      cases state with
      | absent none => exact .inl ⟨none, unfound⟩
  · rintro (⟨none, unfound⟩ | ⟨entry, value, first, found, same⟩)
    · rw [read_unfound sized unfound]
      exact .absent none
    · rw [read_found found]
      by_cases empty : (parseUtf8Sequence value).getD [] = []
      · have quiet (texts : List String) (some_ : texts ≠ []) : ¬ Lists oid texts entry := by
          intro lists
          have parsed := parseUtf8Sequence_iff.mpr ((same texts some_).mpr lists)
          rw [parsed] at empty
          exact some_ empty
        rw [empty]
        by_cases lists : Lists oid [] entry
        · exact .listed first lists
        · refine .malformed first fun texts => ?_
          by_cases some_ : texts = []
          · exact some_ ▸ lists
          · exact quiet texts some_
      · cases parsed : parseUtf8Sequence value with
        | none =>
          rw [parsed] at empty
          exact absurd rfl empty
        | some texts =>
          rw [parsed] at empty
          exact .listed first ((same texts empty).mp (parseUtf8Sequence_iff.mp parsed))

end

def attesting (value : Bytes) : CertificateForm where
  fields := [⟨0x02, [0x01]⟩]
  plain := by decide
  extensions := some [[⟨0x06, oidBytes idNpsCapabilitiesOid⟩, ⟨0x04, value⟩]]
  signature := [⟨0x03, [0x00]⟩]

theorem tristate_read :
    Tristate (attesting (utf8Sequence ["read"])) idNpsCapabilitiesOid
      (readUtf8SequenceExtension (attesting (utf8Sequence ["read"])).der idNpsCapabilitiesOid) := by
  have first : (attesting (utf8Sequence ["read"])).extension? (oidBytes idNpsCapabilitiesOid) =
      some [⟨0x06, oidBytes idNpsCapabilitiesOid⟩, ⟨0x04, utf8Sequence ["read"]⟩] := by
    decide +kernel
  have short : (attesting (utf8Sequence ["read"])).content.length < 2 ^ 32 := by decide +kernel
  exact (tristate_iff (Nat.lt_trans short (by decide))).mpr
    (Lists.faithful short (encodeOidContent_eq (by decide)) first (.inl rfl))

/-- A byte after the sequence is malformed, but the texts before it still count. -/
theorem tristate_trailing : ¬ ∀ (cert : CertificateForm) (oid : Oid), cert.content.length < 2 ^ 64 →
    Tristate cert oid (readUtf8SequenceExtension cert.der oid) := by
  intro tristate
  let value := utf8Sequence ["read"] ++ [0x00]
  have first : (attesting value).extension? (oidBytes idNpsCapabilitiesOid) =
      some [⟨0x06, oidBytes idNpsCapabilitiesOid⟩, ⟨0x04, value⟩] := by
    decide +kernel
  have short : (attesting value).content.length < 2 ^ 32 := by decide +kernel
  have state := tristate (attesting value) idNpsCapabilitiesOid (Nat.lt_trans short (by decide))
  have sought : encodeOidContent idNpsCapabilitiesOid = oidBytes idNpsCapabilitiesOid :=
    encodeOidContent_eq (by decide)
  rw [read_trailing short sought first rfl (by decide +kernel)] at state
  cases state with
  | listed first' lists =>
    cases first.symm.trans first'
    rcases lists with same | same
    · have same' : value = utf8Sequence ["read"] := by simpa using same
      exact absurd same' (by decide +kernel)
    · simp at same

end Nps.Nip.X509
