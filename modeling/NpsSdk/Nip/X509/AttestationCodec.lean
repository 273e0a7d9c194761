import NpsSdk.Nip.Verifier
import NpsSdk.Nip.X509.ExtensionStates

/-! What an issued certificate attests is read back from it: for which lists of texts. -/
namespace Nps.Nip.X509
open Wire (Bytes number)
open Der LengthPrefix

/-- What a text takes with its tag and its length in the least number of bytes. -/
def encodedSize (text : String) : Nat :=
  let n := (Text.utf8 text).length
  n + if n < 0x80 then 2 else if n < 0x100 then 3 else 4

def encodedText (text : String) : Bytes :=
  0x0C :: encodeLen (Text.utf8 text).length ++ Text.utf8 text

theorem buildUtf8SequenceExtensionValue_eq (values : List String) :
    buildUtf8SequenceExtensionValue values =
      0x30 :: encodeLen (values.flatMap encodedText).length ++ values.flatMap encodedText := rfl

theorem spells_encodeLen (n : Nat) : Spells 4 (encodeLen n) (n % 0x10000) := by
  unfold encodeLen
  split_ifs with one two
  · have first : (UInt8.ofNat n).toNat = n := by
      rw [UInt8.toNat_ofNat', Nat.mod_eq_of_lt (by omega)]
    have short := @Spells.short 4 (UInt8.ofNat n) (by omega)
    rw [first] at short
    rwa [Nat.mod_eq_of_lt (by omega)]
  · have value : number [UInt8.ofNat n] = n % 0x10000 := by
      simp only [number, List.foldl_cons, List.foldl_nil, UInt8.toNat_ofNat']
      omega
    exact value ▸ .long 0x81 _ rfl (List.cons_ne_nil _ _) (Nat.le_add_left 1 3)
  · have value : number [UInt8.ofNat (n / 256), UInt8.ofNat n] = n % 0x10000 := by
      simp only [number, List.foldl_cons, List.foldl_nil, UInt8.toNat_ofNat']
      omega
    exact value ▸ .long 0x82 _ rfl (List.cons_ne_nil _ _) (Nat.le_add_left 2 2)

theorem encodeLen_length (n : Nat) :
    (encodeLen n).length = if n < 0x80 then 1 else if n < 0x100 then 2 else 3 := by
  unfold encodeLen
  split_ifs <;> rfl

theorem encodeLen_least {lead : Bytes} {n : Nat} (spells : Spells 4 lead n) :
    (encodeLen n).length ≤ lead.length := by
  rw [encodeLen_length]
  cases spells with
  | short first small => rw [if_pos small]; exact Nat.le_refl _
  | long first digits count some_ few =>
    have bound := Wire.number_lt digits
    have positive := List.length_pos_of_ne_nil some_
    rw [List.length_cons]
    split_ifs with one two
    · omega
    · omega
    · have two' : digits.length ≠ 1 := by
        intro single
        rw [single] at bound
        omega
      omega

theorem encodedText_length (text : String) : (encodedText text).length = encodedSize text := by
  simp only [encodedText, encodedSize, List.length_append, List.length_cons, encodeLen_length]
  split_ifs <;> omega

theorem encodedTexts_length (values : List String) :
    (values.flatMap encodedText).length = (values.map encodedSize).sum := by
  simp only [List.length_flatMap, encodedText_length]

theorem looseTexts_encodedText {values : List String} (short : (values.map encodedSize).sum < 0x10000) :
    LooseTexts (values.flatMap encodedText) values := by
  induction values with
  | nil => exact .nil
  | cons text others ih =>
    rw [List.map_cons, List.sum_cons] at short
    have spells := spells_encodeLen (Text.utf8 text).length
    rw [Nat.mod_eq_of_lt (by rw [encodedSize] at short; omega)] at spells
    rw [List.flatMap_cons, encodedText, List.cons_append, List.cons_append, List.append_assoc]
    exact .cons spells (ih (by omega))

theorem size_le_of_looseTexts {content : Bytes} {texts : List String} (loose : LooseTexts content texts) :
    (texts.map encodedSize).sum ≤ content.length := by
  induction loose with
  | nil => exact Nat.le_refl _
  | @cons lead rest text others spells _ ih =>
    have least := encodeLen_least spells
    rw [encodeLen_length] at least
    simp only [List.map_cons, List.sum_cons, encodedSize, List.length_cons, List.length_append]
    split_ifs at least ⊢ <;> omega

/-- A list is read back just when its texts take less than 65536 bytes. -/
theorem roundTrip_iff {values : List String} :
    parseUtf8Sequence (buildUtf8SequenceExtensionValue values) = some values ↔
      (values.map encodedSize).sum < 0x10000 := by
  have outer := spells_encodeLen (values.flatMap encodedText).length
  rw [parseUtf8Sequence_iff, buildUtf8SequenceExtensionValue_eq, List.cons_append]
  constructor
  · rintro ⟨lead, content, rest, spells, loose, same⟩
    obtain ⟨-, size, -⟩ := outer.unique spells (List.cons.inj same).2
    have least := size_le_of_looseTexts loose
    omega
  · intro short
    rw [Nat.mod_eq_of_lt (encodedTexts_length values ▸ short)] at outer
    refine ⟨_, _, [], outer, looseTexts_encodedText short, ?_⟩
    rw [List.append_nil]

def entryOf (ext : CustomExtension) : List Tlv :=
  ⟨0x06, oidBytes ext.oid⟩ :: ((if ext.critical then [⟨0x01, [0xFF]⟩] else []) ++ [⟨0x04, ext.content⟩])

/-- The certificate has the extensions of its parameters, after those of the library's own. -/
def Carries (cert : CertificateForm) (params : CertificateParams) : Prop :=
  ∃ own, cert.entries = own ++ params.customExtensions.map entryOf ∧
    ∀ entry ∈ own, ∀ ext ∈ params.customExtensions, entry.head? ≠ some ⟨0x06, oidBytes ext.oid⟩

/-- The claims do not exceed what the certificate is read to attest. -/
def Covered (cert : CertificateForm) (oid : Oid) (claims : List String) : Prop :=
  ∀ attested, readUtf8SequenceExtension cert.der oid = some attested → excess claims attested = []

theorem excess_self (values : List String) : excess values values = [] := by
  simp [excess]

section
variable {cert : CertificateForm} {params : CertificateParams} {ext : CustomExtension}

theorem Carries.extension?_eq (carries : Carries cert params) (member : ext ∈ params.customExtensions)
    (single : ∀ other ∈ params.customExtensions, oidBytes other.oid = oidBytes ext.oid → other = ext) :
    cert.extension? (oidBytes ext.oid) = some (entryOf ext) := by
  obtain ⟨own, entries, others⟩ := carries
  have before : own.find? (fun entry => entry.head? = some ⟨0x06, oidBytes ext.oid⟩) = none := by
    refine List.find?_eq_none.mpr fun entry listed => ?_
    simpa using others entry listed ext member
  rw [CertificateForm.extension?, entries, List.find?_append, before, Option.none_or, List.find?_map]
  have found : (params.customExtensions.find? fun other => oidBytes other.oid = oidBytes ext.oid) =
      some ext := by
    cases first : params.customExtensions.find? fun other => oidBytes other.oid = oidBytes ext.oid with
    | none => exact absurd (decide_eq_true rfl) (List.find?_eq_none.mp first ext member)
    | some other =>
      rw [single other (List.mem_of_find?_eq_some first) (by simpa using List.find?_some first)]
  have same : ((fun entry : List Tlv => decide (entry.head? = some ⟨0x06, oidBytes ext.oid⟩)) ∘ entryOf) =
      fun other => decide (oidBytes other.oid = oidBytes ext.oid) := by
    funext other
    simp [entryOf]
  rw [same, found, Option.map_some]

theorem covered_of_roundTrip {oid : Oid} {values : List String}
    (read : parseUtf8Sequence (buildUtf8SequenceExtensionValue values) = some values)
    (sized : cert.content.length < 2 ^ 64) (sought : encodeOidContent oid = oidBytes oid)
    (first : cert.extension? (oidBytes oid) =
      some (entryOf { oid, content := buildUtf8SequenceExtensionValue values })) :
    Covered cert oid values := by
  intro attested done
  by_cases short : cert.content.length < 2 ^ 32
  · have found : Found cert oid (buildUtf8SequenceExtensionValue values) := by
      refine ⟨short, ?_⟩
      rw [sought, first]
      rfl
    rw [read_found found, read] at done
    cases done
    exact excess_self values
  · rw [read_unfound sized fun value found => short found.1] at done
    cases done

end

theorem attested_distinct : oidBytes extensionExtendedKeyUsageOid ≠ oidBytes idNpsNodeRolesOid ∧
    oidBytes nidAssuranceLevelOid ≠ oidBytes idNpsNodeRolesOid ∧
    oidBytes extensionExtendedKeyUsageOid ≠ oidBytes idNpsCapabilitiesOid ∧
    oidBytes nidAssuranceLevelOid ≠ oidBytes idNpsCapabilitiesOid ∧
    oidBytes idNpsNodeRolesOid ≠ oidBytes idNpsCapabilitiesOid := by
  decide +kernel

section
variable [Ed25519] {opts : IssueLeafOptions} {cert : CertificateForm} {values : List String}


theorem mem_leafParams {ext : CustomExtension} : ext ∈ (leafParams opts).customExtensions →
    ext.oid = extensionExtendedKeyUsageOid ∨ ext.oid = nidAssuranceLevelOid ∨
      (∃ values, opts.attestedNodeRoles = some values ∧
        ext = { oid := idNpsNodeRolesOid, content := buildUtf8SequenceExtensionValue values }) ∨
      ∃ values, opts.attestedCapabilities = some values ∧
        ext = { oid := idNpsCapabilitiesOid, content := buildUtf8SequenceExtensionValue values } := by
  intro member
  rcases List.mem_append.mp member with member | capabilities
  · rcases List.mem_append.mp member with fixed | roles
    · rcases List.mem_cons.mp fixed with rfl | fixed
      · exact .inl rfl
      · exact .inr (.inl (List.mem_singleton.mp fixed ▸ rfl))
    · cases given : opts.attestedNodeRoles with
      | none =>
        rw [given] at roles
        cases roles
      | some values =>
        rw [given] at roles
        exact .inr (.inr (.inl ⟨values, rfl, List.mem_singleton.mp roles⟩))
  · cases given : opts.attestedCapabilities with
    | none =>
      rw [given] at capabilities
      cases capabilities
    | some values =>
      rw [given] at capabilities
      exact .inr (.inr (.inr ⟨values, rfl, List.mem_singleton.mp capabilities⟩))

theorem roles_extension? (carries : Carries cert (leafParams opts))
    (roles : opts.attestedNodeRoles = some values) :
    cert.extension? (oidBytes idNpsNodeRolesOid) =
      some (entryOf { oid := idNpsNodeRolesOid, content := buildUtf8SequenceExtensionValue values }) := by
  obtain ⟨usage, level, -, -, capabilities⟩ := attested_distinct
  have attests : { oid := idNpsNodeRolesOid, content := buildUtf8SequenceExtensionValue values } ∈
      (leafParams opts).customExtensions := by
    simp [leafParams, roles, attestation]
  refine carries.extension?_eq attests fun other member same => ?_
  rcases mem_leafParams member with oid | oid | ⟨values', given, rfl⟩ | ⟨values', given, rfl⟩
  · exact absurd (oid ▸ same) usage
  · exact absurd (oid ▸ same) level
  · cases roles.symm.trans given
    rfl
  · exact absurd same.symm capabilities

theorem capabilities_extension? (carries : Carries cert (leafParams opts))
    (capabilities : opts.attestedCapabilities = some values) :
    cert.extension? (oidBytes idNpsCapabilitiesOid) =
      some (entryOf { oid := idNpsCapabilitiesOid, content := buildUtf8SequenceExtensionValue values }) := by
  obtain ⟨-, -, usage, level, roles⟩ := attested_distinct
  have attests : { oid := idNpsCapabilitiesOid, content := buildUtf8SequenceExtensionValue values } ∈
      (leafParams opts).customExtensions := by
    simp [leafParams, capabilities, attestation]
  refine carries.extension?_eq attests fun other member same => ?_
  rcases mem_leafParams member with oid | oid | ⟨values', given, rfl⟩ | ⟨values', given, rfl⟩
  · exact absurd (oid ▸ same) usage
  · exact absurd (oid ▸ same) level
  · exact absurd same roles
  · cases capabilities.symm.trans given
    rfl

end

/-- Every certificate issued for the texts covers the frames that claim them. -/
def Attested (values : List String) : Prop :=
  ∀ [Ed25519] (opts : IssueLeafOptions) (cert : CertificateForm),
    Carries cert (leafParams opts) → cert.content.length < 2 ^ 64 →
    (opts.attestedNodeRoles = some values → Covered cert idNpsNodeRolesOid values) ∧
      (opts.attestedCapabilities = some values → Covered cert idNpsCapabilitiesOid values)

theorem attested_of_short {values : List String} (short : (values.map encodedSize).sum < 0x10000) :
    Attested values := by
  intro _ opts cert carries sized
  have read := roundTrip_iff.mpr short
  exact ⟨fun roles => covered_of_roundTrip read sized (encodeOidContent_eq (by decide))
      (roles_extension? carries roles),
    fun capabilities => covered_of_roundTrip read sized (encodeOidContent_eq (by decide))
      (capabilities_extension? carries capabilities)⟩

/-- A list is read back and covers its own claims just when it takes less than 65536 bytes. -/
theorem attestation_faithful_iff (values : List String) :
    parseUtf8Sequence (buildUtf8SequenceExtensionValue values) = some values ∧ Attested values ↔
      (values.map encodedSize).sum < 0x10000 :=
  ⟨fun both => roundTrip_iff.mp both.1, fun short => ⟨roundTrip_iff.mpr short, attested_of_short short⟩⟩

theorem utf8_replicate (n : Nat) : (Text.utf8 (String.ofList (List.replicate n 'a'))).length = n := by
  have one : (String.utf8EncodeChar 'a').length = 1 := by decide
  rw [Text.utf8, String.toList_ofList, List.length_flatMap, List.map_replicate, List.sum_replicate_nat,
    one, Nat.mul_one]

theorem attestation_unfaithful : ¬ ∀ values : List String,
    parseUtf8Sequence (buildUtf8SequenceExtensionValue values) = some values ∧ Attested values := by
  intro faithful
  have short := roundTrip_iff.mp (faithful [String.ofList (List.replicate 0x10000 'a')]).1
  rw [List.map_singleton, List.sum_singleton, encodedSize, utf8_replicate] at short
  omega

end Nps.Nip.X509
