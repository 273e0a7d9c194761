import NpsSdk.Nip.Ca.Router

/-! The trust and revocation frames beside the identity frame: their signed dictionaries, their wire
dictionaries and what is read back of them. -/
namespace Nps.Nip
open Nps.Core Json
open Interaction

structure TrustFrame where
  grantorNid : String
  granteeCa : String
  trustScope : List String
  nodes : List String
  issuedAt : String
  expiresAt : String
  serial : String
  signerNid : String
  signature : String

/-- A text that must be there under its own name or, failing that, under an older one. -/
def strOr (dict : FrameDict) (key older : String) : NpsResult String :=
  match (optStr dict key).or (optStr dict older) with
  | some text => .ok text
  | none => .error (.frame s!"missing field: {key}")

namespace TrustFrame

def unsignedDict (frame : TrustFrame) : FrameDict :=
  let m := insert "frame" (.string "0x21") []
  let m := insert "grantor_nid" (.string frame.grantorNid) m
  let m := insert "grantee_ca" (.string frame.granteeCa) m
  let m := insert "trust_scope" (stringArray frame.trustScope) m
  let m := insert "nodes" (stringArray frame.nodes) m
  let m := insert "issued_at" (.string frame.issuedAt) m
  let m := insert "expires_at" (.string frame.expiresAt) m
  let m := insert "serial" (.string frame.serial) m
  insert "signer_nid" (.string frame.signerNid) m

def toDict (frame : TrustFrame) : FrameDict :=
  insert "signature" (.string frame.signature) frame.unsignedDict

def fromDict (dict : FrameDict) : NpsResult TrustFrame := do
  let grantorNid ← strOr dict "grantor_nid" "issuer_nid"
  let granteeCa ← strOr dict "grantee_ca" "subject_nid"
  let expiresAt ← getStr dict "expires_at"
  let signature ← getStr dict "signature"
  return {
    grantorNid, granteeCa
    trustScope := ((stringList dict "trust_scope").or (stringList dict "scopes")).getD []
    nodes := (stringList dict "nodes").getD []
    issuedAt := (optStr dict "issued_at").getD ""
    expiresAt
    serial := (optStr dict "serial").getD ""
    signerNid := (((optStr dict "signer_nid").or (optStr dict "grantor_nid")).or
      (optStr dict "issuer_nid")).getD ""
    signature }

theorem get_toDict (frame : TrustFrame) :
    get "grantor_nid" frame.toDict = some (.string frame.grantorNid) ∧
    get "grantee_ca" frame.toDict = some (.string frame.granteeCa) ∧
    get "trust_scope" frame.toDict = some (stringArray frame.trustScope) ∧
    get "nodes" frame.toDict = some (stringArray frame.nodes) ∧
    get "issued_at" frame.toDict = some (.string frame.issuedAt) ∧
    get "expires_at" frame.toDict = some (.string frame.expiresAt) ∧
    get "serial" frame.toDict = some (.string frame.serial) ∧
    get "signer_nid" frame.toDict = some (.string frame.signerNid) ∧
    get "signature" frame.toDict = some (.string frame.signature) := by
  simp (disch := decide) only [toDict, unsignedDict, get_insert_ne, get_insert_self, and_self]

end TrustFrame

theorem optStr_string {dict : FrameDict} {key text : String}
    (stored : get key dict = some (.string text)) : optStr dict key = some text := by
  rw [optStr, stored]
  rfl

theorem getStr_string {dict : FrameDict} {key text : String}
    (stored : get key dict = some (.string text)) : getStr dict key = .ok text := by
  rw [getStr, stored]
  rfl

theorem strOr_string {dict : FrameDict} {key text : String}
    (stored : get key dict = some (.string text)) (older : String) :
    strOr dict key older = .ok text := by
  rw [strOr, optStr_string stored]
  rfl

theorem stringList_stringArray {dict : FrameDict} {key : String} {texts : List String}
    (stored : get key dict = some (stringArray texts)) : stringList dict key = some texts := by
  have field : get key dict = (some texts).map stringArray := stored
  exact stringList_of_get field

theorem TrustFrame.fromDict_toDict (frame : TrustFrame) : fromDict frame.toDict = .ok frame := by
  obtain ⟨grantor, grantee, scope, nodes, issuedAt, expiresAt, serial, signer, signature⟩ :=
    get_toDict frame
  simp only [fromDict, strOr_string grantor, strOr_string grantee, stringList_stringArray scope,
    stringList_stringArray nodes, optStr_string issuedAt, getStr_string expiresAt,
    optStr_string serial, optStr_string signer, getStr_string signature, Outcome.ok_bind,
    Outcome.pure_eq, Option.some_or, Option.getD_some]

namespace Ca.RevokeFrame

def reasonParentRevoked : String := "parent_revoked"

def unsignedDict (frame : RevokeFrame) : FrameDict :=
  let m := insert "frame" (.string "0x22") []
  let m := insert "target_nid" (.string frame.targetNid) m
  let m := insert "reason" (.string frame.reason) m
  let m := insert "revoked_at" (.string frame.revokedAt) m
  let m := insert "signer_nid" (.string frame.signerNid) m
  let m := insertSome "serial" (frame.serial.map .string) m
  insertSome "parent_nid" (frame.parentNid.map .string) m

theorem toDict_eq (frame : RevokeFrame) :
    frame.toDict = insert "signature" (.string frame.signature) frame.unsignedDict := rfl

/-- A parent is named exactly when its revocation is the reason. -/
def validate (frame : RevokeFrame) : NpsResult Unit :=
  if frame.reason = reasonParentRevoked then
    if frame.parentNid.getD "" = "" then
      .error (.frame "NIP-REVOKE-FRAME-INVALID: parent_nid is required when reason=parent_revoked")
    else .ok ()
  else if frame.parentNid.isSome then
    .error (.frame
      "NIP-REVOKE-FRAME-INVALID: parent_nid must be omitted unless reason=parent_revoked")
  else .ok ()

def fromDict (dict : FrameDict) : NpsResult RevokeFrame := do
  let targetNid ← strOr dict "target_nid" "nid"
  let reason ← getStr dict "reason"
  let revokedAt ← getStr dict "revoked_at"
  let frame : RevokeFrame :=
    { targetNid, reason, revokedAt
      serial := optStr dict "serial"
      parentNid := optStr dict "parent_nid"
      signerNid := (optStr dict "signer_nid").getD ""
      signature := (optStr dict "signature").getD "" }
  frame.validate
  return frame

theorem get_toDict (frame : RevokeFrame) :
    get "target_nid" frame.toDict = some (.string frame.targetNid) ∧
    get "reason" frame.toDict = some (.string frame.reason) ∧
    get "revoked_at" frame.toDict = some (.string frame.revokedAt) ∧
    get "signer_nid" frame.toDict = some (.string frame.signerNid) ∧
    get "serial" frame.toDict = frame.serial.map .string ∧
    get "parent_nid" frame.toDict = frame.parentNid.map .string ∧
    get "signature" frame.toDict = some (.string frame.signature) := by
  have empty (key : String) : get key ([] : FrameDict) = none := rfl
  simp (disch := decide) only [toDict, get_insertSome_ne, get_insertSome_self, get_insert_ne,
    get_insert_self, empty, Option.or_none, and_self]

theorem fromDict_toDict (frame : RevokeFrame) :
    fromDict frame.toDict = frame.validate.map fun _ => frame := by
  obtain ⟨target, reason, revokedAt, signer, serial, parent, signature⟩ := get_toDict frame
  simp only [fromDict, strOr_string target, getStr_string reason, getStr_string revokedAt,
    optStr_string signer, optStr_of_get serial, optStr_of_get parent, optStr_string signature,
    Outcome.ok_bind, Outcome.pure_eq, Option.getD_some]
  cases frame.validate <;> rfl

end Ca.RevokeFrame

section Issuer
variable [Ed25519] [Serde] [TimeText] {ca : Ca.NipCaService}

omit [Serde] in
/-- The frame of a revocation, over the certificate that was found and signed as its payload. -/
theorem revoke_returns {nid reason : String} {frame : Ca.RevokeFrame}
    (returned : Returns (ca.revoke nid reason) (.ok frame)) :
    ∃ serial revokedAt, frame =
      { targetNid := nid, serial := some serial, reason, revokedAt, parentNid := none
        signerNid := ca.opts.caNid
        signature := Signer.sign ca.signingKey
          (.object (ca.revokePayload nid serial reason revokedAt)) } := by
  obtain ⟨record, returned⟩ := returns_call.mp returned
  cases record with
  | none => cases returns_done.mp returned
  | some record =>
    obtain ⟨now, returned⟩ := returns_call.mp returned
    obtain ⟨marked, returned⟩ := returns_call.mp returned
    change Returns (if marked = true then _ else _) _ at returned
    split at returned
    · obtain ⟨_, -, returned⟩ := returns_bind.mp returned
      exact ⟨record.serial, TimeText.format now, Except.ok.inj (returns_done.mp returned)⟩
    · cases returns_done.mp returned

omit [Serde] [TimeText] in
/-- The signed payload is the dictionary that the frame says its signature covers. -/
theorem revokePayload_eq (nid serial reason revokedAt signature : String) :
    ca.revokePayload nid serial reason revokedAt = Ca.RevokeFrame.unsignedDict
      { targetNid := nid, serial := some serial, reason, revokedAt, parentNid := none
        signerNid := ca.opts.caNid, signature } := by
  rfl

end Issuer

theorem IdentFrame.fromDict_assuranceLevel {dict : FrameDict} {frame : IdentFrame}
    (read : fromDict dict = .ok frame) :
    frame.assuranceLevel = (optStr dict "assurance_level").bind AssuranceLevel.fromWire := by
  obtain ⟨nid, -, read⟩ := Outcome.bind_ok.mp read
  obtain ⟨pubKey, -, read⟩ := Outcome.bind_ok.mp read
  cases read
  rfl

/-- Identity, trust and valid revocation frames are read back as they were, and so is what the CA
returns for a revocation with a reason of the certificate's own, which its signature covers. A level
is read as itself, and the empty text as the lowest. -/
theorem frames_faithful [Ed25519] [Serde] [TimeText] (ca : Ca.NipCaService)
    (correct : ∀ message, Ed25519.verify (Ed25519.verifyingKey ca.signingKey) message
      (Ed25519.sign ca.signingKey message) = true) :
    (∀ frame : IdentFrame, IdentFrame.fromDict frame.toDict = .ok frame) ∧
    (∀ frame : TrustFrame, TrustFrame.fromDict frame.toDict = .ok frame) ∧
    (∀ frame : Ca.RevokeFrame, frame.validate = .ok () →
      Ca.RevokeFrame.fromDict frame.toDict = .ok frame) ∧
    (∀ (nid reason : String) (frame : Ca.RevokeFrame), reason ∈ Ca.validRevocationReasons →
      reason ≠ Ca.RevokeFrame.reasonParentRevoked → Returns (ca.revoke nid reason) (.ok frame) →
      Ca.RevokeFrame.fromDict frame.toDict = .ok frame ∧
        Signer.verify (Ed25519.verifyingKey ca.signingKey) (.object frame.unsignedDict)
          frame.signature = true) ∧
    ∀ (dict : FrameDict) (frame : IdentFrame), IdentFrame.fromDict dict = .ok frame →
      (∀ level : AssuranceLevel, get "assurance_level" dict = some (.string level.wire) →
        frame.assuranceLevel = some level) ∧
      (get "assurance_level" dict = some (.string "") →
        frame.assuranceLevel = some .anonymous) := by
  refine ⟨IdentFrame.fromDict_toDict, TrustFrame.fromDict_toDict, ?_, ?_, ?_⟩
  · intro frame valid
    rw [Ca.RevokeFrame.fromDict_toDict, valid]
    rfl
  · intro nid reason frame _ own returned
    obtain ⟨serial, revokedAt, rfl⟩ := revoke_returns returned
    constructor
    · rw [Ca.RevokeFrame.fromDict_toDict, Ca.RevokeFrame.validate, if_neg own]
      rfl
    · rw [← revokePayload_eq]
      exact Signer.verify_sign _ _ correct
  · intro dict frame read
    have level := IdentFrame.fromDict_assuranceLevel read
    constructor
    · intro asserted stored
      rw [level, optStr_string stored, Option.bind_some, AssuranceLevel.fromWire_wire]
    · intro stored
      rw [level, optStr_string stored]
      rfl

namespace EmptyLevel

def keyBytes : Wire.Bytes := List.replicate 32 1

theorem keyBytes_length : keyBytes.length = 32 := rfl

def signatureBytes : Wire.Bytes := List.replicate 64 2

theorem signatureBytes_length : signatureBytes.length = 64 := rfl

abbrev scheme : Ed25519 :=
  .table ⟨keyBytes, keyBytes_length⟩ fun _ => some ⟨signatureBytes, signatureBytes_length⟩

def ca : @Ca.NipCaService scheme :=
  @Ca.NipCaService.mk scheme { caNid := "urn:nps:org:ca.example.com", baseUrl := "https://ca.example.com" } ()

def record : Ca.NipCertRecord where
  nid := "urn:nps:agent:example.com:a"
  entityType := "agent"
  serial := "0x000001"
  pubKey := "ed25519:AQ"
  capabilities := []
  scopeJson := "\x7b\x7d"
  issuedBy := "urn:nps:org:ca.example.com"
  issuedAt := 0
  expiresAt := 1

/-- Some store lets a revocation return its frame, and that is read back and verifies. -/
theorem superseded_faithful :
    letI := scheme
    letI : Serde := .table []
    letI : TimeText := .table []
    ∃ frame, Returns (ca.revoke record.nid "superseded") (.ok frame) ∧
      Ca.RevokeFrame.fromDict frame.toDict = .ok frame ∧
        Signer.verify (Ed25519.verifyingKey ca.signingKey) (.object frame.unsignedDict)
          frame.signature = true := by
  let _ := scheme
  let _ : Serde := .table []
  let _ : TimeText := .table []
  have returned : Returns (ca.revoke record.nid "superseded") _ :=
    returns_call.mpr ⟨some record, returns_call.mpr ⟨0, returns_call.mpr ⟨true, returns_done.mpr rfl⟩⟩⟩
  have faithful := (frames_faithful ca fun _ => decide_eq_true ⟨rfl, rfl⟩).2.2.2.1
  exact ⟨_, returned, faithful _ _ _ (by decide) (by decide) returned⟩

def dict : FrameDict :=
  [("assurance_level", .string ""), ("nid", .string "urn:nps:agent:example.com:a"),
    ("pub_key", .string "ed25519:AQ")]

/-- The empty text is read as a level, and written as its name. -/
theorem level_replaced : ¬ ∀ (dict : FrameDict) (frame : IdentFrame) (value : Value),
    IdentFrame.fromDict dict = .ok frame → get "assurance_level" dict = some value →
    get "assurance_level" frame.toDict = some value := by
  intro claimed
  have kept := claimed dict _ (.string "") rfl rfl
  exact absurd (Value.string.inj (Option.some.inj kept)) (by decide)

end EmptyLevel
end Nps.Nip
