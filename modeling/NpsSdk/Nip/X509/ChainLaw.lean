import Mathlib.Data.List.Chain
import NpsSdk.Nip.Verifier

/-! Which certificates may extend an identity chain. The verifier follows signatures from
the leaf to a trusted root; whether an issuer is a CA, whether a certificate is current and
whose key the leaf carries are not among its checks. -/
namespace Nps.Nip.X509
open Outcome
open Wire (Bytes)

theorem decodeChain_encode (ders : List Bytes) (index : Nat) :
    decodeChain index (ders.map (Base64.encode .urlSafe .none)) = .ok ders := by
  induction ders generalizing index with
  | nil => rfl
  | cons der ders ih =>
    rw [List.map_cons, decodeChain, base64UrlDecode, Base64.decode_encode]
    simp only [Except.mapError, ok_bind, ih, pure_eq]

def ChainOf [CertificateParser] (texts : List String) (chain : List X509Certificate) : Prop :=
  ∃ ders, decodeChain 0 texts = .ok ders ∧ parseChain 0 ders = .ok chain

section
variable [CertificateParser]

def Parsed (certificate : X509Certificate) : Prop :=
  ∃ der, CertificateParser.fromDer der = .ok certificate

theorem parseChain_parsed {index : Nat} {ders : List Bytes} {chain : List X509Certificate}
    (parsed : parseChain index ders = .ok chain) : ∀ c ∈ chain, Parsed c := by
  induction ders generalizing index chain with
  | nil =>
    cases parsed
    simp
  | cons der ders ih =>
    obtain ⟨first, head, parsed⟩ := bind_ok.mp parsed
    obtain ⟨others, tail, parsed⟩ := bind_ok.mp parsed
    cases parsed
    have found : CertificateParser.fromDer der = .ok first := by
      cases read : CertificateParser.fromDer der with
      | error e => simp [read, Except.mapError] at head
      | ok certificate => simpa [read, Except.mapError] using head
    intro c member
    rcases List.mem_cons.mp member with rfl | member
    · exact ⟨der, found⟩
    · exact ih tail c member

theorem parseChain_cons {index : Nat} {der : Bytes} {ders : List Bytes} {first : X509Certificate}
    {chain : List X509Certificate} (read : CertificateParser.fromDer der = .ok first)
    (parsed : parseChain (index + 1) ders = .ok chain) :
    parseChain index (der :: ders) = .ok (first :: chain) := by
  simp only [parseChain, read, Except.mapError, ok_bind, parsed, pure_eq]

theorem exists_parseChain {chain : List X509Certificate} (parsed : ∀ c ∈ chain, Parsed c) :
    ∃ ders, ∀ index, parseChain index ders = .ok chain := by
  induction chain with
  | nil => exact ⟨[], fun _ => rfl⟩
  | cons first rest ih =>
    obtain ⟨der, read⟩ := parsed first List.mem_cons_self
    obtain ⟨ders, others⟩ := ih fun c member => parsed c (List.mem_cons_of_mem _ member)
    exact ⟨der :: ders, fun index => parseChain_cons read (others (index + 1))⟩

theorem exists_chainOf {chain : List X509Certificate} (parsed : ∀ c ∈ chain, Parsed c) :
    ∃ texts, ChainOf texts chain := by
  obtain ⟨ders, all⟩ := exists_parseChain parsed
  exact ⟨_, ders, decodeChain_encode ders 0, all 0⟩

end

section
variable [Ed25519]

def SignedBy (child issuer : X509Certificate) : Prop := verifySignedBy child issuer = .ok ()

theorem checkLinks_iff {index : Nat} {chain : List X509Certificate} :
    checkLinks index chain = .ok () ↔ chain.IsChain SignedBy := by
  induction chain generalizing index with
  | nil => simp [checkLinks]
  | cons child rest ih =>
    cases rest with
    | nil => simp [checkLinks]
    | cons issuer rest =>
      rw [checkLinks, List.isChain_cons_cons, SignedBy]
      cases verifySignedBy child issuer with
      | error e => simp
      | ok u => simpa using ih

variable [CertificateParser]

theorem checkChainSignature_iff {chain : List X509Certificate} {roots : List Bytes} :
    checkChainSignature chain roots = .ok () ↔
      roots ≠ [] ∧ chain.IsChain SignedBy ∧
        ∀ last ∈ chain.getLast?, anchors last roots = true := by
  by_cases none : roots = []
  · subst none
    constructor
    · rintro ⟨⟩
    · rintro ⟨nonempty, -⟩
      exact absurd rfl nonempty
  simp only [checkChainSignature, none, if_false, ne_eq, not_false_eq_true, true_and]
  rw [← (checkLinks_iff : checkLinks 0 chain = .ok () ↔ _)]
  cases checkLinks 0 chain with
  | error e =>
    constructor
    · rintro ⟨⟩
    · rintro ⟨⟨⟩, -⟩
  | ok u =>
    cases chain.getLast? with
    | none => simp
    | some last =>
      cases anchored : anchors last roots with
      | true => simp [anchored]
      | false =>
        simp only [ok_bind, anchored, Bool.false_eq_true, if_false, Option.mem_def,
          Option.some.injEq, forall_eq', and_false, iff_false]
        rintro ⟨⟩

/-- What acceptance takes. -/
theorem verify_valid_iff {opts : VerifyOptions} :
    (verify opts).valid = true ↔
      ∃ leaf rest, ChainOf opts.certChainB64uDer (leaf :: rest) ∧
        checkLeafEku leaf = .ok () ∧ checkSubjectNid leaf opts.assertedNid = .ok () ∧
        checkAssuranceLevel leaf opts.assertedAssuranceLevel = .ok () ∧
        checkChainSignature (leaf :: rest) opts.trustedRootCertsDer = .ok () := by
  have result : (verify opts).valid = true ↔ ∃ leafDer, checkChain opts = .ok leafDer := by
    unfold verify
    cases checkChain opts <;> simp [ok, fail]
  rw [result]
  constructor
  · rintro ⟨leafDer, passed⟩
    obtain ⟨ders, decoded, passed⟩ := bind_ok.mp passed
    obtain ⟨chain, parsed, passed⟩ := bind_ok.mp passed
    cases chain with
    | nil => cases passed
    | cons leaf rest =>
      cases ders with
      | nil => cases passed
      | cons der ders =>
        obtain ⟨⟨⟩, eku, passed⟩ := bind_ok.mp passed
        obtain ⟨⟨⟩, subject, passed⟩ := bind_ok.mp passed
        obtain ⟨⟨⟩, level, passed⟩ := bind_ok.mp passed
        obtain ⟨⟨⟩, signed, -⟩ := bind_ok.mp passed
        exact ⟨leaf, rest, ⟨_, decoded, parsed⟩, eku, subject, level, signed⟩
  · rintro ⟨leaf, rest, ⟨ders, decoded, parsed⟩, eku, subject, level, signed⟩
    cases ders with
    | nil => cases parsed
    | cons der ders =>
      refine ⟨der, ?_⟩
      simp only [checkChain, decoded, parsed, ok_bind, eku, subject, level, signed, pure_eq]

inductive Reaches (roots : List Bytes) : X509Certificate → Prop where
  | anchor {last : X509Certificate} : anchors last roots = true → Reaches roots last
  | link {child issuer : X509Certificate} :
      SignedBy child issuer → Parsed issuer → Reaches roots issuer → Reaches roots child

def IdentityOf (nid : String) (leaf : X509Certificate) : Prop :=
  Parsed leaf ∧ checkLeafEku leaf = .ok () ∧ checkSubjectNid leaf nid = .ok ()

theorem reaches_of_chain {roots : List Bytes} {leaf : X509Certificate} {rest : List X509Certificate}
    (linked : (leaf :: rest).IsChain SignedBy) (parsed : ∀ c ∈ leaf :: rest, Parsed c)
    (anchored : ∀ last ∈ (leaf :: rest).getLast?, anchors last roots = true) :
    Reaches roots leaf := by
  induction rest generalizing leaf with
  | nil => exact .anchor (anchored leaf rfl)
  | cons issuer rest ih =>
    obtain ⟨signed, linked⟩ := List.isChain_cons_cons.mp linked
    have others : ∀ c ∈ issuer :: rest, Parsed c :=
      fun c member => parsed c (List.mem_cons_of_mem _ member)
    refine .link signed (others issuer List.mem_cons_self) (ih linked others ?_)
    intro last member
    refine anchored last ?_
    rwa [List.getLast?_cons_cons]

/-- And every certificate that leads to a root heads such a chain. -/
theorem Reaches.chain {roots : List Bytes} {leaf : X509Certificate} (reaches : Reaches roots leaf) :
    ∃ rest, (leaf :: rest).IsChain SignedBy ∧ (∀ c ∈ rest, Parsed c) ∧
      ∀ last ∈ (leaf :: rest).getLast?, anchors last roots = true := by
  induction reaches with
  | anchor anchored =>
    refine ⟨[], .singleton _, by simp, ?_⟩
    rintro last ⟨⟩
    exact anchored
  | @link child issuer signed parsed reaches ih =>
    obtain ⟨rest, linked, others, anchored⟩ := ih
    refine ⟨issuer :: rest, .cons_cons signed linked, ?_, ?_⟩
    · intro c member
      rcases List.mem_cons.mp member with rfl | member
      · exact parsed
      · exact others c member
    · rwa [List.getLast?_cons_cons]

/-- Issuers within the chain are CAs or trusted roots, every certificate is current, and the
leaf carries the frame's key. -/
structure Upheld (roots : List Bytes) (chain : List X509Certificate) (now : Instant)
    (framePubKey : String) : Prop where
  issuers : ∀ (i j : Nat) child issuer, i ≠ j → chain[i]? = some child → chain[j]? = some issuer →
    SignedBy child issuer → issuer.raw ∈ roots ∨ issuer.isCa = true
  current : ∀ c ∈ chain, c.notBefore ≤ now ∧ now ≤ c.notAfter
  leafKey : ∀ leaf ∈ chain.head?,
    (parsePubKeyString framePubKey).toOption.map Subtype.val = some leaf.subjectPublicKey

theorem Reaches.roots_ne_nil {roots : List Bytes} {leaf : X509Certificate}
    (reaches : Reaches roots leaf) : roots ≠ [] := by
  induction reaches with
  | anchor anchored =>
    rintro rfl
    cases anchored
  | link signed parsed reaches ih => exact ih

/-- An identity certificate that leads to a root is accepted for its NID. -/
theorem accepted_of_reaches {roots : List Bytes} {nid : String} {leaf : X509Certificate}
    (identity : IdentityOf nid leaf) (reaches : Reaches roots leaf) :
    ∃ texts rest, ChainOf texts (leaf :: rest) ∧
      (verify {
        certChainB64uDer := texts, assertedNid := nid, assertedAssuranceLevel := none
        trustedRootCertsDer := roots }).valid = true := by
  obtain ⟨parsed, eku, subject⟩ := identity
  obtain ⟨rest, linked, others, anchored⟩ := reaches.chain
  obtain ⟨texts, presented⟩ : ∃ texts, ChainOf texts (leaf :: rest) :=
    exists_chainOf (List.forall_mem_cons.mpr ⟨parsed, others⟩)
  refine ⟨texts, rest, presented, verify_valid_iff.mpr ?_⟩
  exact ⟨leaf, rest, presented, eku, subject, rfl,
    checkChainSignature_iff.mpr ⟨reaches.roots_ne_nil, linked, anchored⟩⟩

/-- The law holds of every accepted chain exactly when no identity certificate leads to a
trusted root, and then the verifier accepts no chain. -/
theorem upheld_iff (roots : List Bytes) :
    (∀ opts chain now framePubKey, opts.trustedRootCertsDer = roots →
        ChainOf opts.certChainB64uDer chain → (verify opts).valid = true →
        Upheld roots chain now framePubKey) ↔
      ∀ nid leaf, IdentityOf nid leaf → ¬ Reaches roots leaf := by
  constructor
  · intro law nid leaf identity reaches
    obtain ⟨texts, rest, presented, accepted⟩ := accepted_of_reaches identity reaches
    have upheld := law _ _ (leaf.notAfter + 1) "" rfl presented accepted
    have current := (upheld.current leaf List.mem_cons_self).2
    exact absurd current (not_le.mpr (lt_add_one leaf.notAfter))
  · rintro none opts chain now framePubKey rfl - accepted
    obtain ⟨leaf, rest, ⟨ders, -, parsed⟩, eku, subject, -, signed⟩ := verify_valid_iff.mp accepted
    obtain ⟨-, linked, anchored⟩ := checkChainSignature_iff.mp signed
    have known := parseChain_parsed parsed
    have identity : IdentityOf opts.assertedNid leaf := ⟨known leaf List.mem_cons_self, eku, subject⟩
    exact absurd (reaches_of_chain linked known anchored) (none _ leaf identity)

/-- Whoever signs with the key of an accepted leaf has a chain accepted for any other NID. -/
theorem holder_extends {roots : List Bytes} {nid other : String} {leaf forged : X509Certificate}
    (own : IdentityOf nid leaf) (reaches : Reaches roots leaf) (identity : IdentityOf other forged)
    (signed : SignedBy forged leaf) :
    ∃ texts rest, ChainOf texts (forged :: rest) ∧
      (verify {
        certChainB64uDer := texts, assertedNid := other, assertedAssuranceLevel := none
        trustedRootCertsDer := roots }).valid = true :=
  accepted_of_reaches identity (.link signed own.1 reaches)

end

namespace Extended

def keyCaBytes : Wire.Bytes := [
  0xD7, 0x5A, 0x98, 0x01, 0x82, 0xB1, 0x0A, 0xB7, 0xD5, 0x4B, 0xFE, 0xD3, 0xC9, 0x64, 0x07, 0x3A,
  0x0E, 0xE1, 0x72, 0xF3, 0xDA, 0xA6, 0x23, 0x25, 0xAF, 0x02, 0x1A, 0x68, 0xF7, 0x07, 0x51, 0x1A]

theorem keyCaBytes_length : keyCaBytes.length = 32 := rfl

def keyCa : Key32 := ⟨keyCaBytes, keyCaBytes_length⟩

def keyA : Key32 := ⟨[
  0x3D, 0x40, 0x17, 0xC3, 0xE8, 0x43, 0x89, 0x5A, 0x92, 0xB7, 0x0A, 0xA7, 0x4D, 0x1B, 0x7E, 0xBC,
  0x9C, 0x98, 0x2C, 0xCF, 0x2E, 0xC4, 0x96, 0x8C, 0xC0, 0xCD, 0x55, 0xF1, 0x2A, 0xF4, 0x66, 0x0C], rfl⟩

def keyB : Key32 := ⟨[
  0xFC, 0x51, 0xCD, 0x8E, 0x62, 0x18, 0xA1, 0xA3, 0x8D, 0xA4, 0x7E, 0xD0, 0x02, 0x30, 0xF0, 0x58,
  0x08, 0x16, 0xED, 0x13, 0xBA, 0x33, 0x03, 0xAC, 0x5D, 0xEB, 0x91, 0x15, 0x48, 0x90, 0x80, 0x25], rfl⟩

def signatureRoot : Signature64 := ⟨[
  0xD3, 0xF3, 0xEA, 0x8B, 0xB3, 0xEA, 0xCF, 0x03, 0x6D, 0x28, 0x98, 0xD5, 0xE5, 0x25, 0x3C, 0x16,
  0xA7, 0xA7, 0x78, 0xF2, 0x32, 0xC9, 0x02, 0x95, 0x32, 0x39, 0x53, 0x85, 0xF1, 0x3E, 0x6F, 0x56,
  0xF2, 0x23, 0xE6, 0x0D, 0x0E, 0x6D, 0x23, 0xE0, 0xC7, 0x46, 0xB6, 0xCB, 0x50, 0x3B, 0x5A, 0xAE,
  0x85, 0x02, 0x3B, 0x00, 0x26, 0xC5, 0x35, 0x3C, 0xD7, 0xB7, 0x90, 0xD6, 0xB8, 0x91, 0x15, 0x09], rfl⟩

def signatureA : Signature64 := ⟨[
  0x78, 0xCB, 0xAD, 0x27, 0xC2, 0x74, 0xC0, 0x63, 0xB1, 0xC5, 0x92, 0xB3, 0xD2, 0xAB, 0x44, 0x49,
  0xF9, 0x10, 0xAD, 0x79, 0xBA, 0xAD, 0x68, 0x4B, 0x81, 0xEA, 0xBF, 0xBA, 0xE8, 0x54, 0xA7, 0xF2,
  0x99, 0x6C, 0x80, 0x57, 0xC9, 0x7E, 0xFD, 0xDA, 0xF5, 0x91, 0x0D, 0xCA, 0xFD, 0xA4, 0xE0, 0x54,
  0x9E, 0x8A, 0x78, 0x10, 0xA8, 0xE8, 0xFE, 0xF0, 0x20, 0xDB, 0x5E, 0xAA, 0x30, 0x3C, 0x17, 0x04], rfl⟩

def signatureB : Signature64 := ⟨[
  0x44, 0x16, 0x47, 0x83, 0x17, 0xA2, 0xB1, 0x71, 0x1A, 0x8B, 0x22, 0x14, 0x68, 0xDC, 0x31, 0xDE,
  0x16, 0xA1, 0xE6, 0xD6, 0xF1, 0x43, 0x27, 0xF0, 0xE1, 0x84, 0xA9, 0x5B, 0x0E, 0x24, 0x3C, 0xB4,
  0x27, 0xF4, 0x30, 0x97, 0xA1, 0x0B, 0x74, 0xB9, 0x61, 0x97, 0xDB, 0x6F, 0x7A, 0x1A, 0xBA, 0xEF,
  0x10, 0x01, 0xD3, 0x14, 0x5E, 0x5C, 0xC4, 0xFD, 0x60, 0x17, 0x92, 0xF6, 0xF2, 0x8A, 0xCF, 0x06], rfl⟩

def element (tag : UInt8) (content : Bytes) : Bytes := tag :: encodeLen content.length ++ content

def oid (oid : Oid) : Bytes := element 0x06 (encodeOidContent oid)

def algorithm : Bytes := element 0x30 (oid [1, 3, 101, 112])

def name (commonName : String) : Bytes :=
  element 0x30 (element 0x31 (element 0x30
    (oid [2, 5, 4, 3] ++ element 0x0C (Text.utf8 commonName))))

def body (serial : UInt8) (issuer subject notAfter : String) (key : Key32) (extensions : Bytes) :
    Bytes :=
  element 0x30 (element 0xA0 [0x02, 0x01, 0x02] ++ element 0x02 [serial] ++ algorithm ++
    name issuer ++
    element 0x30 (element 0x17 (Text.utf8 "700101000000Z") ++ element 0x17 (Text.utf8 notAfter)) ++
    name subject ++ element 0x30 (algorithm ++ element 0x03 (0x00 :: key.1)) ++
    element 0xA3 (element 0x30 extensions))

def ekuValue : Bytes := buildEkuExtensionValue ekuAgentIdentityOid

/-- A subject alternative name and the critical extended key usage of an agent. -/
def identityExtensions (nid : String) : Bytes :=
  element 0x30 (oid [2, 5, 29, 17] ++
    element 0x04 (element 0x30 (element 0x86 (Text.utf8 nid)))) ++
  element 0x30 (oid extensionExtendedKeyUsageOid ++ element 0x01 [0xFF] ++ element 0x04 ekuValue)

def caExtensions : Bytes :=
  element 0x30 (oid [2, 5, 29, 19] ++ element 0x01 [0xFF] ++
    element 0x04 (element 0x30 (element 0x01 [0xFF])))

def certificateDer (tbs : Bytes) (signature : Signature64) : Bytes :=
  element 0x30 (tbs ++ algorithm ++ element 0x03 (0x00 :: signature.1))

def nidRoot : String := "urn:nps:ca:t:r"
def nidA : String := "urn:nps:agent:t:a"
def nidB : String := "urn:nps:agent:t:b"

def tbsRoot : Bytes := body 1 nidRoot nidRoot "800101000000Z" keyCa caExtensions
def tbsA : Bytes := body 2 nidRoot nidA "700131000000Z" keyA (identityExtensions nidA)
def tbsB : Bytes := body 3 nidA nidB "700131000000Z" keyB (identityExtensions nidB)

def root : X509Certificate where
  raw := certificateDer tbsRoot signatureRoot
  tbsCertificate := tbsRoot
  signatureValue := signatureRoot.1
  subjectPublicKey := keyCa.1
  commonNames := [some nidRoot]
  extensions := [{ oid := some [2, 5, 29, 19], critical := true, value := [0x30, 0x03, 0x01, 0x01, 0xFF] }]
  sanUris := none
  notBefore := 0
  notAfter := Duration.days 3652
  isCa := true

def identity (nid : String) (tbs : Bytes) (key : Key32) (signature : Signature64) :
    X509Certificate where
  raw := certificateDer tbs signature
  tbsCertificate := tbs
  signatureValue := signature.1
  subjectPublicKey := key.1
  commonNames := [some nid]
  extensions := [
    { oid := some [2, 5, 29, 17], critical := false
      value := element 0x30 (element 0x86 (Text.utf8 nid)) },
    { oid := some extensionExtendedKeyUsageOid, critical := true, value := ekuValue
      ekuOther := some [some ekuAgentIdentityOid] }]
  sanUris := some [nid]
  notBefore := 0
  notAfter := Duration.days 30
  isCa := false

def certificateA : X509Certificate := identity nidA tbsA keyA signatureA

def certificateB : X509Certificate := identity nidB tbsB keyB signatureB

theorem blank_length : (List.replicate 64 (0 : UInt8)).length = 64 := List.length_replicate

scoped instance scheme : Ed25519 where
  SigningKey := Key32
  VerifyingKey := Key32
  verifyingKey := id
  asBytes := id
  fromBytes := .ok
  sign key message :=
    (([(keyCa, tbsRoot, signatureRoot), (keyCa, tbsA, signatureA),
      (keyA, tbsB, signatureB)].find? fun entry => entry.1 == key && entry.2.1 == message).map
        (·.2.2)).getD ⟨List.replicate 64 0, blank_length⟩
  verify key message signature := decide ((key, message, signature) ∈
    [(keyCa, tbsRoot, signatureRoot), (keyCa, tbsA, signatureA), (keyA, tbsB, signatureB)])
  sizeMessage := "signature error"
  mismatchMessage := "signature error"

scoped instance parser : CertificateParser where
  fromDer der := match [root, certificateA, certificateB].find? (·.raw == der) with
    | some certificate => .ok certificate
    | none => .error "Parsing Error"

theorem signed_by_agent : SignedBy certificateB certificateA := by
  change verifySignedBy certificateB certificateA = .ok ()
  decide +kernel

theorem anchored : anchors certificateA [root.raw] = true := by
  decide +kernel

/-- The agent's ordinary leaf key vouches for another NID, at any time and for any frame. -/
theorem agent_extends : ∃ texts, ChainOf texts [certificateB, certificateA] ∧
    (verify {
      certChainB64uDer := texts, assertedNid := nidB, assertedAssuranceLevel := none
      trustedRootCertsDer := [root.raw] }).valid = true ∧
    ∀ now framePubKey, ¬ Upheld [root.raw] [certificateB, certificateA] now framePubKey := by
  have presented : ∀ c ∈ [certificateB, certificateA], Parsed c := by
    intro c member
    refine ⟨c.raw, ?_⟩
    rcases List.mem_pair.mp member with rfl | rfl <;> decide +kernel
  obtain ⟨texts, chain⟩ := exists_chainOf presented
  have linked : [certificateB, certificateA].IsChain SignedBy := .cons_cons signed_by_agent (.singleton _)
  have signed : checkChainSignature [certificateB, certificateA] [root.raw] = .ok () := by
    refine checkChainSignature_iff.mpr ⟨List.cons_ne_nil _ _, linked, ?_⟩
    rintro last ⟨⟩
    exact anchored
  refine ⟨texts, chain, verify_valid_iff.mpr ⟨_, _, chain, ?_, ?_, rfl, signed⟩, ?_⟩
  · decide +kernel
  · change checkSubjectNid certificateB nidB = .ok ()
    decide +kernel
  · intro now framePubKey upheld
    have issuer := upheld.issuers 0 1 certificateB certificateA (by decide) rfl rfl signed_by_agent
    exact absurd issuer (by decide +kernel)

end Extended
end Nps.Nip.X509
