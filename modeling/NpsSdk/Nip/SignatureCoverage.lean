import NpsSdk.Nip.Verifier

/-! How much of an accepted frame the CA's signature covers. The signed dictionary holds
the NID, the public key, the metadata and the assurance level; the verifier decides on
seven further fields. -/
namespace Nps.Nip
open Json
open Wire (Bytes)

theorem NipRevocationPolicy.observe_error {policy : NipRevocationPolicy}
    {source : NipRevocationSource} {outcome : NipRevocationOutcome} {r : NipIdentVerifyResult}
    (refused : policy.observe source outcome = .error r) : r.valid = false := by
  simp only [observe] at refused
  split_ifs at refused
  cases outcome <;> cases refused <;> rfl

theorem callbackCheck_error {verifier : NipIdentVerifier} {policy : NipRevocationPolicy}
    {frame : IdentFrame} {r : NipIdentVerifyResult}
    (refused : callbackCheck verifier policy frame = .error r) : r.valid = false := by
  unfold callbackCheck at refused
  split at refused
  · cases refused
  split at refused
  · split_ifs at refused with valid
    · exact NipRevocationPolicy.observe_error refused
    · cases refused
      exact Bool.eq_false_of_not_eq_true valid
  · exact NipRevocationPolicy.observe_error refused

/-- No stage of the revocation check refuses with a valid result. -/
theorem checkRevocation_error {verifier : NipIdentVerifier} {frame : IdentFrame}
    {r : NipIdentVerifyResult} (refused : checkRevocation verifier frame = .error r) :
    r.valid = false := by
  have crl {policy : NipRevocationPolicy} {serial : String}
      (refused : crlCheck verifier policy serial = .error r) : r.valid = false := by
    simp only [crlCheck] at refused
    split_ifs at refused
    · exact NipRevocationPolicy.observe_error refused
    · cases refused
  have store {policy : NipRevocationPolicy} {serial : String}
      (refused : storeCheck verifier policy serial = .error r) : r.valid = false := by
    unfold storeCheck at refused
    split at refused
    · cases refused
    · exact NipRevocationPolicy.observe_error refused
  have ocsp {policy : NipRevocationPolicy} {nid : String}
      (refused : ocspStep verifier policy nid = .error r) : r.valid = false := by
    unfold ocspStep at refused
    split at refused
    · cases refused
    · exact NipRevocationPolicy.observe_error refused
  have complete {policy : NipRevocationPolicy} (refused : policy.complete = .error r) :
      r.valid = false := by
    unfold NipRevocationPolicy.complete at refused
    split_ifs at refused
    cases refused
    rfl
  rw [checkRevocation] at refused
  rcases Outcome.bind_error.mp refused with refused | ⟨first, _, refused⟩
  · exact crl refused
  rcases Outcome.bind_error.mp refused with refused | ⟨second, _, refused⟩
  · exact callbackCheck_error refused
  rcases Outcome.bind_error.mp refused with refused | ⟨third, _, refused⟩
  · exact store refused
  rcases Outcome.bind_error.mp refused with refused | ⟨fourth, _, refused⟩
  · exact ocsp refused
  · exact complete refused

theorem checkIssuer_ok {verifier : NipIdentVerifier} {frame : IdentFrame} {issuerNid text : String}
    (trusted : checkIssuer verifier frame issuerNid = .ok text) :
    verifier.options.trustedCaPublicKeys.lookup issuerNid = some text := by
  unfold checkIssuer at trusted
  cases known : verifier.options.trustedCaPublicKeys.lookup issuerNid with
  | none =>
    cases declared : frame.issuedBy <;> simp [known, declared] at trusted
    split_ifs at trusted
  | some key =>
    cases declared : frame.issuedBy <;> simp [known, declared] at trusted
    · rw [trusted]
    · split_ifs at trusted
      rw [Except.ok.inj trusted]

section
variable [Ed25519] [X509.CertificateParser] [TimeText] (verifier : NipIdentVerifier)

def Accepts (frame : IdentFrame) (issuerNid : String) (context : NipVerifyContext) : Prop :=
  ∃ r, verify verifier frame issuerNid context = .ok r ∧ r.valid = true

variable {verifier}

/-- A frame is accepted when each step passes. -/
theorem accepts_iff {frame : IdentFrame} {issuerNid : String} {context : NipVerifyContext} :
    Accepts verifier frame issuerNid context ↔
      checkSigned verifier frame issuerNid (context.asOf.getD verifier.clock) = .ok () ∧
      checkX509 verifier frame (context.asOf.getD verifier.clock) = .ok (.ok ()) ∧
      checkRevocation verifier frame = .ok () ∧ checkGranted frame context = .ok () := by
  unfold Accepts verify steps
  generalize context.asOf.getD verifier.clock = now
  cases signed : checkSigned verifier frame issuerNid now with
  | error failure =>
    simp [signed, Except.mapError, NipIdentVerifyResult.fail]
  | ok u =>
    cases chain : checkX509 verifier frame now with
    | error panic => simp [signed, chain, Except.mapError]
    | ok outcome =>
      cases outcome with
      | error failure => simp [signed, chain, Except.mapError, NipIdentVerifyResult.fail]
      | ok u =>
        cases revocation : checkRevocation verifier frame with
        | error r =>
          simp [signed, chain, Except.mapError, checkRevocation_error revocation]
        | ok u =>
          cases granted : checkGranted frame context with
          | error failure =>
            simp [signed, chain, Except.mapError, NipIdentVerifyResult.fail]
          | ok u =>
            simp [signed, chain, Except.mapError, NipIdentVerifyResult.ok]

end

def IdentFrame.signedBytes (frame : IdentFrame) : Bytes :=
  Text.utf8 (canonicalJson frame.unsignedDict)

def IdentFrame.signatureBytes (frame : IdentFrame) : Option Signature64 := do
  let text ← frame.signature
  let encoded ← Text.stripPrefix? "ed25519:" text
  let bytes ← (Base64.decode .standard .canonical encoded).toOption
  Signer.sized 64 bytes

theorem parsePubKeyString_encode (key : Key32) :
    parsePubKeyString ("ed25519:" ++ Hex.encode key.1) = .ok key := by
  simp [parsePubKeyString, Text.stripPrefix?_append, Hex.decode_encode, Signer.sized_self]

theorem IdentFrame.signatureBytes_encode {frame : IdentFrame} {signature : Signature64}
    (carries : frame.signature = some ("ed25519:" ++ Base64.encode .standard .canonical signature.1)) :
    frame.signatureBytes = some signature := by
  simp [signatureBytes, carries, Text.stripPrefix?_append, Base64.decode_encode, Except.toOption,
    Signer.sized_self]

theorem IdentFrame.get_unsignedDict (frame : IdentFrame) :
    get "nid" frame.unsignedDict = some (.string frame.nid) ∧
    get "pub_key" frame.unsignedDict = some (.string frame.pubKey) ∧
    get "metadata" frame.unsignedDict = frame.metadata.map .object ∧
    get "assurance_level" frame.unsignedDict =
      frame.assuranceLevel.map fun level => .string level.wire := by
  have empty (key : String) : get key ([] : Nps.Core.FrameDict) = none := rfl
  simp (disch := decide) only [unsignedDict, get_insertSome_ne, get_insertSome_self,
    get_insert_ne, get_insert_self, empty, Option.or_none, and_self]

/-- Frames with the same signed bytes have the same four signed fields. -/
theorem IdentFrame.signedBytes_agree {f g : IdentFrame} (same : f.signedBytes = g.signedBytes) :
    f.nid = g.nid ∧ f.pubKey = g.pubKey ∧ f.metadata = g.metadata ∧
      f.assuranceLevel = g.assuranceLevel := by
  have sorted : sortEntries f.unsignedDict = sortEntries g.unsignedDict :=
    Value.object.inj (Value.text_injective (Text.utf8_injective same))
  have held (key : String) : get key f.unsignedDict = get key g.unsignedDict := by
    rw [← get_sortEntries, sorted, get_sortEntries]
  obtain ⟨nid, pubKey, metadata, assurance⟩ := f.get_unsignedDict
  obtain ⟨nid', pubKey', metadata', assurance'⟩ := g.get_unsignedDict
  rw [held, nid'] at nid
  rw [held, pubKey'] at pubKey
  rw [held, metadata'] at metadata
  rw [held, assurance'] at assurance
  refine ⟨?_, ?_, ?_, ?_⟩
  · exact (Value.string.inj (Option.some.inj nid)).symm
  · exact (Value.string.inj (Option.some.inj pubKey)).symm
  · exact (Option.map_injective (fun _ _ => Value.object.inj) metadata).symm
  · have wire : Function.Injective fun level : AssuranceLevel => Value.string level.wire :=
      fun _ _ same => AssuranceLevel.wire_injective (Value.string.inj same)
    exact (Option.map_injective wire assurance).symm

section
variable [Ed25519]

/-- The signature step reads the trusted key, the signed bytes and the signature only. -/
theorem verifySignature_iff {frame : IdentFrame} {text : String} :
    verifySignature frame text = .ok () ↔
      ∃ raw key signature, parsePubKeyString text = .ok raw ∧ Ed25519.fromBytes raw = .ok key ∧
        frame.signatureBytes = some signature ∧
        Ed25519.verify key frame.signedBytes signature = true := by
  unfold verifySignature IdentFrame.signatureBytes IdentFrame.signedBytes
  cases frame.signature with
  | none => simp
  | some sig =>
    cases start : Text.stripPrefix? "ed25519:" sig with
    | none => simp [start]
    | some encoded =>
      cases parsePubKeyString text with
      | error e => simp [start]
      | ok raw =>
        cases point : Ed25519.fromBytes raw with
        | error e => simp [start, point]
        | ok key =>
          cases read : Base64.decode .standard .canonical encoded with
          | error e => simp [start, point, read, Except.toOption]
          | ok bytes =>
            cases size : Signer.sized 64 bytes with
            | none => simp [start, point, read, size, Except.toOption]
            | some signature => simp [start, point, read, size, Except.toOption]

/-- Signatures under the key are found only on the bytes of a signed frame, as it carries them. -/
def Unforgeable (key : Ed25519.VerifyingKey) (signed : List IdentFrame) : Prop :=
  ∀ message signature, Ed25519.verify key message signature = true →
    ∃ g ∈ signed, message = g.signedBytes ∧ g.signatureBytes = some signature

end

def allNodes : Value := .object [("nodes", .array [.string "*"])]

/-- No expiry, no issuer, no X.509 format, every capability and node asked for, and the given
serial and roles, under the same signature. -/
def forge (g : IdentFrame) (serial : Option String) (context : NipVerifyContext)
    (roles : List String) : IdentFrame :=
  { g with
    expiresAt := none, issuedBy := none, certFormat := none, serial := serial
    capabilities := context.requiredCapabilities, scope := some allNodes, nodeRoles := some roles }

theorem checkGranted_forge (g : IdentFrame) (serial : Option String) (context : NipVerifyContext)
    (roles : List String) : checkGranted (forge g serial context roles) context = .ok () := by
  have held : checkCapabilitiesHeld (forge g serial context roles) context = .ok () := by
    simp [checkCapabilitiesHeld, forge]
  have covered : checkTarget (forge g serial context roles) context = .ok () := by
    unfold checkTarget
    split
    · rfl
    · simp [checkScope, forge, allNodes, Value.asObject, Json.get, Value.asArray, Value.asStr,
        nwpPathMatches]
  rw [checkGranted, held, covered]
  rfl

/-- Some list of roles is no signed frame's. -/
theorem fresh_roles (signed : List IdentFrame) :
    ∃ roles : List String, ∀ g ∈ signed, g.nodeRoles ≠ some roles := by
  have bound : ∃ n, ∀ g ∈ signed, (g.nodeRoles.getD []).length < n := by
    induction signed with
    | nil => exact ⟨0, by simp⟩
    | cons g signed ih =>
      obtain ⟨n, bound⟩ := ih
      refine ⟨n + (g.nodeRoles.getD []).length + 1, fun other member => ?_⟩
      rcases List.mem_cons.mp member with rfl | member
      · omega
      · have := bound other member
        omega
  obtain ⟨n, bound⟩ := bound
  refine ⟨List.replicate n "", fun g member same => ?_⟩
  have short := bound g member
  rw [same, Option.getD_some, List.length_replicate] at short
  exact absurd short (lt_irrefl n)

/-- The revocation callback tells certificates apart by their NID and serial. -/
def Keyed (options : NipVerifierOptions) : Prop :=
  ∀ check, options.revocationCheck = some check →
    ∀ f g : IdentFrame, f.nid = g.nid → f.serial = g.serial → check f = check g

theorem Keyed.checkRevocation {verifier : NipIdentVerifier} (keyed : Keyed verifier.options)
    {f g : IdentFrame} (nid : f.nid = g.nid) (serial : f.serial = g.serial) :
    checkRevocation verifier f = checkRevocation verifier g := by
  have callback (policy : NipRevocationPolicy) :
      callbackCheck verifier policy f = callbackCheck verifier policy g := by
    unfold callbackCheck
    cases configured : verifier.options.revocationCheck with
    | none => rfl
    | some check => simp only [keyed check configured f g nid serial]
  simp only [Nip.checkRevocation, nid, serial, callback]

/-- The fields the verifier decides on, and the signature. -/
structure Agrees (f g : IdentFrame) : Prop where
  signature : f.signature = g.signature
  nid : f.nid = g.nid
  pubKey : f.pubKey = g.pubKey
  assuranceLevel : f.assuranceLevel = g.assuranceLevel
  issuedBy : f.issuedBy = g.issuedBy
  expiresAt : f.expiresAt = g.expiresAt
  serial : f.serial = g.serial
  capabilities : f.capabilities = g.capabilities
  scope : f.scope = g.scope
  nodeRoles : f.nodeRoles = g.nodeRoles

section
variable [Ed25519] (verifier : NipIdentVerifier) (issuerNid : String)

def TrustedKey (key : Ed25519.VerifyingKey) : Prop :=
  ∃ text raw, verifier.options.trustedCaPublicKeys.lookup issuerNid = some text ∧
    parsePubKeyString text = .ok raw ∧ Ed25519.fromBytes raw = .ok key

/-- The frame's signature and level satisfy the verifier, and some serial is not revoked. -/
def Exposed (g : IdentFrame) : Prop :=
  ∃ key signature, TrustedKey verifier issuerNid key ∧ g.signatureBytes = some signature ∧
    Ed25519.verify key g.signedBytes signature = true ∧ checkAssurance verifier g = .ok () ∧
    ∃ serial, checkRevocation verifier { g with serial := serial } = .ok ()

variable [X509.CertificateParser] [TimeText] (context : NipVerifyContext)

def Covered (signed : List IdentFrame) : Prop :=
  ∀ f, Accepts verifier f issuerNid context → ∃ g ∈ signed, Agrees f g

variable {verifier issuerNid context}

/-- What the signature does cover: an accepted frame has the NID, the key, the metadata, the
assurance level and the signature of a signed frame. -/
theorem accepted_signed {signed : List IdentFrame}
    (ideal : ∀ key, TrustedKey verifier issuerNid key → Unforgeable key signed) {f : IdentFrame}
    (accepted : Accepts verifier f issuerNid context) :
    ∃ g ∈ signed, ∃ key signature, TrustedKey verifier issuerNid key ∧
      Ed25519.verify key g.signedBytes signature = true ∧
      g.signatureBytes = some signature ∧ f.signatureBytes = some signature ∧
      f.nid = g.nid ∧ f.pubKey = g.pubKey ∧ f.metadata = g.metadata ∧
      f.assuranceLevel = g.assuranceLevel := by
  obtain ⟨signedOk, -⟩ := accepts_iff.mp accepted
  obtain ⟨⟨⟩, -, signedOk⟩ := Outcome.bind_ok.mp signedOk
  obtain ⟨text, trusted, signedOk⟩ := Outcome.bind_ok.mp signedOk
  obtain ⟨⟨⟩, verified, -⟩ := Outcome.bind_ok.mp signedOk
  have known : verifier.options.trustedCaPublicKeys.lookup issuerNid = some text :=
    checkIssuer_ok trusted
  obtain ⟨raw, key, signature, parsed, point, own, valid⟩ := verifySignature_iff.mp verified
  have key_trusted : TrustedKey verifier issuerNid key := ⟨text, raw, known, parsed, point⟩
  obtain ⟨g, member, bytes, theirs⟩ := ideal key key_trusted _ _ valid
  refine ⟨g, member, key, signature, key_trusted, ?_, theirs, own, ?_⟩
  · rwa [← bytes]
  · exact IdentFrame.signedBytes_agree bytes

/-- An exposed frame's signature carries any rewriting of the fields outside it. -/
theorem forge_accepted (keyed : Keyed verifier.options) {g : IdentFrame}
    {key : Ed25519.VerifyingKey} {signature : Signature64} {serial : Option String}
    (trusted : TrustedKey verifier issuerNid key) (carries : g.signatureBytes = some signature)
    (valid : Ed25519.verify key g.signedBytes signature = true)
    (assured : checkAssurance verifier g = .ok ())
    (good : checkRevocation verifier { g with serial := serial } = .ok ()) (roles : List String) :
    Accepts verifier (forge g serial context roles) issuerNid context := by
  obtain ⟨text, raw, known, parsed, point⟩ := trusted
  have verified : verifySignature (forge g serial context roles) text = .ok () :=
    verifySignature_iff.mpr ⟨raw, key, signature, parsed, point, carries, valid⟩
  have issuer : checkIssuer verifier (forge g serial context roles) issuerNid = .ok text := by
    simp only [checkIssuer, forge, known]
  refine accepts_iff.mpr ⟨?_, ?_, ?_, checkGranted_forge g serial context roles⟩
  · rw [checkSigned, issuer, Outcome.ok_bind, verified, Outcome.ok_bind]
    exact assured
  · have plain : usesX509 verifier (forge g serial context roles) = false := by
      simp [usesX509, forge]
    rw [checkX509, plain]
    rfl
  · rw [← good]
    exact keyed.checkRevocation rfl rfl

/-- The signature covers what the verifier decides on exactly when no signed frame is exposed,
and then the verifier accepts nothing. -/
theorem covered_iff {signed : List IdentFrame} (keyed : Keyed verifier.options)
    (ideal : ∀ key, TrustedKey verifier issuerNid key → Unforgeable key signed) :
    Covered verifier issuerNid context signed ↔
      ∀ g ∈ signed, ¬ Exposed verifier issuerNid g := by
  constructor
  · rintro covered g - ⟨key, signature, trusted, carries, valid, assured, serial, good⟩
    obtain ⟨roles, fresh⟩ := fresh_roles signed
    obtain ⟨other, member, agrees⟩ :=
      covered _ (forge_accepted keyed trusted carries valid assured good roles)
    exact fresh other member agrees.nodeRoles.symm
  · intro safe f accepted
    obtain ⟨g, member, key, signature, trusted, valid, carries, -, nid, -, -, level⟩ :=
      accepted_signed ideal accepted
    obtain ⟨signedOk, -, good, -⟩ := accepts_iff.mp accepted
    obtain ⟨⟨⟩, -, signedOk⟩ := Outcome.bind_ok.mp signedOk
    obtain ⟨text, -, signedOk⟩ := Outcome.bind_ok.mp signedOk
    obtain ⟨⟨⟩, -, assured⟩ := Outcome.bind_ok.mp signedOk
    refine absurd ?_ (safe g member)
    refine ⟨key, signature, trusted, carries, valid, ?_, f.serial, ?_⟩
    · rwa [checkAssurance, ← level]
    · have same : checkRevocation verifier f = checkRevocation verifier { g with serial := f.serial } :=
        keyed.checkRevocation nid rfl
      rwa [← same]

end

namespace Altered

def keyBytes : Wire.Bytes := [
  0xD7, 0x5A, 0x98, 0x01, 0x82, 0xB1, 0x0A, 0xB7, 0xD5, 0x4B, 0xFE, 0xD3, 0xC9, 0x64, 0x07, 0x3A,
  0x0E, 0xE1, 0x72, 0xF3, 0xDA, 0xA6, 0x23, 0x25, 0xAF, 0x02, 0x1A, 0x68, 0xF7, 0x07, 0x51, 0x1A]

theorem keyBytes_length : keyBytes.length = 32 := rfl

def key : Key32 := ⟨keyBytes, keyBytes_length⟩

def signature : Signature64 := ⟨[
  0xD9, 0xF0, 0x6E, 0x1D, 0xC3, 0x16, 0x69, 0xB4, 0x19, 0x98, 0xA4, 0xE5, 0x12, 0x54, 0xE5, 0x66,
  0xDA, 0xD4, 0xB0, 0x25, 0xA0, 0x0F, 0x3A, 0x85, 0x64, 0xA1, 0x54, 0x3A, 0x38, 0xCD, 0x47, 0xF3,
  0x40, 0x55, 0xC4, 0xD2, 0x7C, 0x18, 0x3C, 0xB3, 0x0B, 0x23, 0x9F, 0x89, 0xD6, 0x7B, 0xCA, 0x9C,
  0x26, 0xFC, 0xCA, 0x8E, 0x05, 0xD9, 0x07, 0xA4, 0x6A, 0x96, 0x2F, 0x9E, 0xB5, 0xFD, 0xE4, 0x02], rfl⟩

def issuer : String := "urn:nps:ca:example.org:root"

/-- A thirty-day certificate for one capability. -/
def issued : IdentFrame where
  nid := "urn:nps:agent:example.org:a1"
  pubKey := "ed25519:3d4017c3e843895a92b70aa74d1b7ebc9c982ccf2ec4968cc0cd55f12af4660c"
  signature := some "ed25519:2fBuHcMWabQZmKTlElTlZtrUsCWgDzqFZKFUOjjNR/NAVcTSfBg8swsjn4nWe8qcJvzKjgXZB6Rqli+etf3kAg=="
  capabilities := ["nwp:query"]
  issuedBy := some issuer
  expiresAt := some "1970-01-31T00:00:00Z"
  serial := some "0x1"

/-- The same certificate with a later expiry and one more capability. -/
def altered : IdentFrame :=
  { issued with
    expiresAt := some "1970-03-12T00:00:00Z", capabilities := ["nwp:query", "nwp:action"] }

scoped instance scheme : Ed25519 :=
  .table key fun message => if message = issued.signedBytes then some signature else none

scoped instance times : TimeText :=
  .table [(Duration.days 30, "1970-01-31T00:00:00Z"), (Duration.days 70, "1970-03-12T00:00:00Z")]

scoped instance parser : X509.CertificateParser where
  fromDer _ := .error "not used"

def verifier : NipIdentVerifier where
  options := { trustedCaPublicKeys := [(issuer,
    "ed25519:d75a980182b10ab7d54bfed3c964073a0ee172f3daa62325af021a68f707511a")] }

def context : NipVerifyContext where
  requiredCapabilities := ["nwp:action"]
  asOf := some (Duration.days 40)

theorem issued_signature :
    issued.signature = some ("ed25519:" ++ Base64.encode .standard .canonical signature.1) := by
  have start : "ed25519:".toList = _ := String.toList_ofList
  have chars : ("ed25519:2fBuHcMWabQZmKTlElTlZtrUsCWgDzqFZKFUOjjNR/NAVcTSfBg8swsjn4nWe8qcJvzKjgXZB6Rqli+etf3kAg==" :
    String).toList = _ := String.toList_ofList
  refine congrArg some (String.toList_inj.mp ?_)
  rw [chars, String.toList_append, start, Base64.encode, Text.ascii, String.toList_ofList]
  decide +kernel

theorem issued_signatureBytes : issued.signatureBytes = some signature :=
  IdentFrame.signatureBytes_encode issued_signature

theorem unforgeable (other : Ed25519.VerifyingKey) : Unforgeable other [issued] := by
  intro message text valid
  obtain ⟨-, known⟩ := of_decide_eq_true valid
  change (if message = issued.signedBytes then some signature else none) = some text at known
  split_ifs at known with same
  cases known
  exact ⟨issued, List.mem_singleton_self _, same, issued_signatureBytes⟩

theorem keyText : "ed25519:d75a980182b10ab7d54bfed3c964073a0ee172f3daa62325af021a68f707511a" =
    "ed25519:" ++ Hex.encode key.1 := by
  have start : "ed25519:".toList = _ := String.toList_ofList
  have chars : ("ed25519:d75a980182b10ab7d54bfed3c964073a0ee172f3daa62325af021a68f707511a" :
    String).toList = _ := String.toList_ofList
  apply String.toList_inj.mp
  rw [chars, String.toList_append, start, Hex.encode, Text.ascii, String.toList_ofList]
  decide +kernel

theorem trustedKey : TrustedKey verifier issuer key :=
  ⟨_, key, congrArg some keyText, parsePubKeyString_encode key, rfl⟩

theorem verified : Ed25519.verify key issued.signedBytes signature = true :=
  decide_eq_true ⟨rfl, if_pos rfl⟩

theorem altered_accepted : Accepts verifier altered issuer context := by
  obtain ⟨text, raw, known, parsed, point⟩ := trustedKey
  have signed : verifySignature altered text = .ok () :=
    verifySignature_iff.mpr ⟨raw, key, signature, parsed, point,
      IdentFrame.signatureBytes_encode issued_signature, verified⟩
  have issuedBy : checkIssuer verifier altered issuer = .ok text := by
    simp only [checkIssuer, altered, issued, known]
    rfl
  refine accepts_iff.mpr ⟨?_, rfl, rfl, rfl⟩
  rw [checkSigned, issuedBy, Outcome.ok_bind, signed, Outcome.ok_bind]
  rfl

theorem issued_expired : ¬ Accepts verifier issued issuer context := by
  intro accepted
  obtain ⟨signed, -⟩ := accepts_iff.mp accepted
  obtain ⟨u, fresh, -⟩ := Outcome.bind_ok.mp signed
  change Except.error _ = Except.ok u at fresh
  cases fresh

/-- The application has revoked the certificate under its serial number. -/
def revoked (frame : IdentFrame) : Option NipIdentVerifyResult :=
  if frame.nid = issued.nid ∧ frame.serial = issued.serial then
    some (.fail ⟨4, .certRevoked, "revoked"⟩)
  else none

def checking : NipIdentVerifier where
  options := { verifier.options with revocationCheck := some revoked }

theorem revoked_keyed : Keyed checking.options := by
  rintro check ⟨⟩ f g nid serial
  simp only [revoked, nid, serial]

/-- The certificate is revoked, but under another serial number it is exposed. -/
theorem covered_iff_revoked :
    (Covered checking issuer context [issued] ↔ ∀ g ∈ [issued], ¬ Exposed checking issuer g) ∧
      checkRevocation checking issued ≠ .ok () ∧ Exposed checking issuer issued := by
  refine ⟨covered_iff revoked_keyed fun key _ => unforgeable key, fun good => ?_, ?_⟩
  · cases good
  · exact ⟨key, signature, trustedKey, issued_signatureBytes, verified, rfl, some "0x2", rfl⟩

/-- Ideal signatures do not keep an expired certificate from being accepted with a later expiry
and one more capability, which no signed frame grants. -/
theorem altered_uncovered :
    (∀ key, TrustedKey verifier issuer key → Unforgeable key [issued]) ∧
      Ed25519.verify key issued.signedBytes signature = true ∧
      ¬ Accepts verifier issued issuer context ∧ Accepts verifier altered issuer context ∧
      ¬ Covered verifier issuer context [issued] := by
  refine ⟨fun key _ => unforgeable key, verified, issued_expired, altered_accepted, ?_⟩
  intro covered
  obtain ⟨g, member, agrees⟩ := covered altered altered_accepted
  cases List.mem_singleton.mp member
  exact absurd agrees.expiresAt (by decide)

end Altered
end Nps.Nip
