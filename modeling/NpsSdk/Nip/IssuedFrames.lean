import NpsSdk.Nip.Ca.World
import NpsSdk.Nip.Verifier

/-! What the node-side verifier makes of the frames the CA issues. The CA writes keys and
signatures in unpadded base64url; the verifier reads keys in hexadecimal and signatures in
padded base64. -/
namespace Nps.Nip
open Interaction Json

def Refused {α : Type} (outcome : Except Failure α) : Prop :=
  ∃ message, outcome = .error ⟨3, .certSignatureInvalid, message⟩

section
variable [Ed25519]

/-- 64 bytes leave an incomplete group, so no trusted key makes the CA's signature readable. -/
theorem verifySignature_signed {frame : IdentFrame} {key : Ed25519.SigningKey} {payload : Value}
    (signed : frame.signature = some (Signer.sign key payload)) (trusted : String) :
    Refused (verifySignature frame trusted) := by
  have incomplete (signature : Signature64) : signature.1.length % 3 ≠ 0 := by
    rw [signature.2]
    decide
  obtain ⟨e, unreadable⟩ : ∃ e, Base64.decode .standard .canonical (Base64.encode .urlSafe .none
      (Ed25519.sign key (Text.utf8 (Signer.canonicalJson payload))).1) = .error e :=
    Base64.decode_canonical_encode_none (incomplete _)
  simp only [verifySignature, signed, Signer.sign, Text.stripPrefix?_append]
  split
  · exact ⟨_, rfl⟩
  split
  · exact ⟨_, rfl⟩
  rw [unreadable]
  exact ⟨_, rfl⟩

end

namespace Ca
variable [Ed25519] [Serde] [TimeText] [X509.CertificateLibrary] {ca : NipCaService}

/-- Every frame an issuing call returns names the CA and carries its signer's signature. -/
theorem IssuingCall.signed {call : IssuingCall} {frame : IdentFrame}
    (issued : Returns (call.program ca) (.ok frame)) : SignedBy ca frame := by
  obtain ⟨op, answer, saved⟩ := (call.issues ca).justified issued ⟨frame, rfl⟩
  cases op <;> try exact saved.elim
  case save record =>
    cases answer with
    | error e => exact saved.elim
    | ok u => exact saved.2.2.2.2

end Ca

section
variable [Ed25519] [TimeText]

/-- A frame that names its issuer and is not expired is refused for its signature. -/
theorem checkSigned_refused {verifier : NipIdentVerifier} {frame : IdentFrame} {issuerNid key : String}
    {now : Instant} (fresh : checkExpiry frame now = .ok ())
    (issuer : frame.issuedBy = some issuerNid)
    (trusted : verifier.options.trustedCaPublicKeys.lookup issuerNid = some key)
    (refused : Refused (verifySignature frame key)) :
    Refused (checkSigned verifier frame issuerNid now) := by
  obtain ⟨message, refused⟩ := refused
  have known : checkIssuer verifier frame issuerNid = .ok key := by
    simp only [checkIssuer, issuer, trusted, ne_eq, not_true_eq_false, if_false]
  refine ⟨message, ?_⟩
  rw [checkSigned, fresh, known, Outcome.ok_bind, Outcome.ok_bind, refused, Outcome.error_bind]

end

section
variable [Ed25519] [Serde] [TimeText] [X509.CertificateLibrary] {ca : Ca.NipCaService}

/-- No frame the CA issues passes the signature step, under any trusted key, as it was returned
or as read back from its dictionary; the six steps stop there while the frame is unexpired. -/
theorem issued_refused {call : Ca.IssuingCall} {frame : IdentFrame}
    (issued : Returns (call.program ca) (.ok frame)) (verifier : NipIdentVerifier)
    (trusted : verifier.options.trustedCaPublicKeys.lookup ca.opts.caNid = some ca.getCaPublicKey)
    (now : Instant) (fresh : checkExpiry frame now = .ok ()) :
    (∀ key, Refused (verifySignature frame key)) ∧
      Refused (checkSigned verifier frame ca.opts.caNid now) ∧
      ∃ read, IdentFrame.fromDict frame.toDict = .ok read ∧
        (∀ key, Refused (verifySignature read key)) ∧
        Refused (checkSigned verifier read ca.opts.caNid now) := by
  obtain ⟨issuer, payload, signed⟩ := Ca.IssuingCall.signed issued
  have refused (key : String) : Refused (verifySignature frame key) :=
    verifySignature_signed signed key
  have stopped := checkSigned_refused fresh issuer trusted (refused _)
  exact ⟨refused, stopped, frame, frame.fromDict_toDict, refused, stopped⟩

end

namespace Registration
open Ca Ca.Sample

def verifier : NipIdentVerifier where
  options := { trustedCaPublicKeys := [(ca.opts.caNid, ca.getCaPublicKey)] }

/-- Registering in an empty store at the epoch gives a frame. -/
theorem returned : ∃ frame, Returns (registration.program ca) (.ok frame) ∧
    checkExpiry frame 0 = .ok () := by
  have run := runs_runWith (handler_faithful 0) (registration.program ca) {}
  exact ⟨_, run.returns, rfl⟩

theorem issued_refused_registration : ∃ frame, Returns (registration.program ca) (.ok frame) ∧
    (∀ key, Refused (verifySignature frame key)) ∧
      Refused (checkSigned verifier frame ca.opts.caNid 0) ∧
      ∃ read, IdentFrame.fromDict frame.toDict = .ok read ∧
        (∀ key, Refused (verifySignature read key)) ∧
        Refused (checkSigned verifier read ca.opts.caNid 0) := by
  obtain ⟨frame, issued, fresh⟩ := returned
  exact ⟨frame, issued, issued_refused issued verifier rfl 0 fresh⟩

/-- The scheme verifies what it signs, and still the verifier that trusts the CA's key refuses
the frame before it expires. -/
theorem registered_unusable :
    (∀ key message, Ed25519.verify (Ed25519.verifyingKey key) message (Ed25519.sign key message)) ∧
      ∃ frame, Returns (registration.program ca) (.ok frame) ∧ checkExpiry frame 0 = .ok () ∧
        verifySignature frame ca.getCaPublicKey ≠ .ok () := by
  obtain ⟨frame, issued, fresh⟩ := returned
  obtain ⟨-, payload, signed⟩ := IssuingCall.signed issued
  obtain ⟨message, refused⟩ := verifySignature_signed signed ca.getCaPublicKey
  refine ⟨fun key message => decide_eq_true ⟨rfl, rfl⟩, frame, issued, fresh, ?_⟩
  rw [refused]
  rintro ⟨⟩

end Registration
end Nps.Nip
