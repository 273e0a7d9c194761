import NpsSdk.Ndp.CanonicalForm
import NpsSdk.Ndp.Frames
import NpsSdk.Nip.Verifier

/-! The two texts that the signature of an announcement is checked over. One is written from the
typed frame, the other from its wire dictionary without the fields that are null. -/
namespace Nps.Ndp
open Nps.Core Json

mutual
/-- No object in the value has a field that is null. -/
def noNulls : Value → Bool
  | .object fields => fieldsNoNulls fields
  | .array items => itemsNoNulls items
  | .null | .bool _ | .number _ | .string _ => true

def fieldsNoNulls : Fields → Bool
  | [] => true
  | (_, value) :: rest => !isNull value && noNulls value && fieldsNoNulls rest

def itemsNoNulls : List Value → Bool
  | [] => true
  | item :: rest => noNulls item && itemsNoNulls rest
end

theorem fieldsNoNulls_iff {fields : Fields} :
    fieldsNoNulls fields = true ↔ ∀ field ∈ fields, isNull field.2 = false ∧ noNulls field.2 = true := by
  induction fields with
  | nil => simp [fieldsNoNulls]
  | cons field rest ih => simp [fieldsNoNulls, ih, and_assoc]

theorem isNull_stripped (value : Value) : isNull (stripped value) = isNull value := by
  cases value <;> rfl

theorem strippedFields_cons {key : String} {value : Value} (some_ : isNull value = false) (rest : Fields) :
    strippedFields ((key, value) :: rest) = (key, stripped value) :: strippedFields rest := by
  cases value with
  | null => cases some_
  | _ => simp only [strippedFields]

theorem strippedFields_eq {fields : Fields} (some_ : ∀ field ∈ fields, isNull field.2 = false) :
    strippedFields fields = fields.map (Prod.map id stripped) := by
  induction fields with
  | nil => rfl
  | cons field rest ih =>
    rw [strippedFields_cons (some_ _ List.mem_cons_self),
      ih fun field member => some_ field (List.mem_cons_of_mem _ member)]
    rfl

mutual
theorem noNulls_stripped : ∀ value : Value, noNulls (stripped value) = true
  | .null | .bool _ | .number _ | .string _ => rfl
  | .array items => itemsNoNulls_stripped items
  | .object fields => by
    rw [stripped, noNulls, fieldsNoNulls_iff]
    intro field member
    exact fieldsNoNulls_iff.mp (fieldsNoNulls_stripped fields) field (mem_sortEntries member)

theorem fieldsNoNulls_stripped : ∀ fields : Fields, fieldsNoNulls (strippedFields fields) = true
  | [] => rfl
  | (key, value) :: rest => by
    have others := fieldsNoNulls_stripped rest
    cases null : isNull value with
    | true =>
      cases value with
      | null => exact others
      | _ => cases null
    | false =>
      rw [strippedFields_cons null, fieldsNoNulls, isNull_stripped, null, noNulls_stripped value, others]
      rfl

theorem itemsNoNulls_stripped : ∀ items : List Value, itemsNoNulls (strippedItems items) = true
  | [] => rfl
  | item :: rest => by
    rw [strippedItems, itemsNoNulls, noNulls_stripped item, itemsNoNulls_stripped rest, Bool.and_self]
end

mutual
theorem stripped_self : ∀ {value : Value}, value.Ordered → noNulls value = true → stripped value = value
  | .null, _, _ | .bool _, _, _ | .number _, _, _ | .string _, _, _ => rfl
  | .array _, ordered, full => congrArg Value.array (strippedItems_self ordered full)
  | .object _, ordered, full => by
    rw [stripped, strippedFields_self ordered.2 full, sortEntries_self ordered.1]

theorem strippedFields_self : ∀ {fields : Fields}, FieldsOrdered fields → fieldsNoNulls fields = true →
    strippedFields fields = fields
  | [], _, _ => rfl
  | (key, value) :: rest, ordered, full => by
    rw [fieldsNoNulls, Bool.and_eq_true, Bool.and_eq_true, Bool.not_eq_true'] at full
    obtain ⟨⟨some_, first⟩, others⟩ := full
    rw [strippedFields_cons some_, stripped_self ordered.1 first, strippedFields_self ordered.2 others]

theorem strippedItems_self : ∀ {items : List Value}, ItemsOrdered items → itemsNoNulls items = true →
    strippedItems items = items
  | [], _, _ => rfl
  | _ :: _, ordered, full => by
    obtain ⟨first, others⟩ := Bool.and_eq_true_iff.mp full
    rw [strippedItems, stripped_self ordered.1 first, strippedItems_self ordered.2 others]
end

def strippedMap (fields : Fields) : Fields := sortEntries (strippedFields fields)

theorem strippedMap_self_iff {fields : Fields} (ordered : (Value.object fields).Ordered) :
    strippedMap fields = fields ↔ noNulls (.object fields) = true := by
  constructor
  · intro same
    have full := noNulls_stripped (.object fields)
    rw [strippedMap] at same
    rwa [stripped, same] at full
  · intro full
    exact Value.object.inj (stripped_self ordered full)

theorem stripped_objects (addresses : List Fields) :
    stripped (.array (addresses.map .object)) = .array ((addresses.map strippedMap).map .object) := by
  have items : strippedItems (addresses.map .object) = (addresses.map strippedMap).map .object := by
    induction addresses with
    | nil => rfl
    | cons address rest ih =>
      rw [List.map_cons, strippedItems, ih]
      rfl
  rw [stripped, items]

theorem stripped_stringArray (texts : List String) : stripped (stringArray texts) = stringArray texts := by
  have items : strippedItems (texts.map .string) = texts.map .string := by
    induction texts with
    | nil => rfl
    | cons text rest ih =>
      rw [List.map_cons, strippedItems, ih]
      rfl
  rw [stringArray, stripped, items]

namespace AnnounceFrame
variable (frame : AnnounceFrame)

/-- The maps of the frame have their keys in order, as the maps of the wire have. -/
def Ordered : Prop :=
  (∀ address ∈ frame.addresses, (Value.object address).Ordered) ∧
    ∀ endpoint, frame.activationEndpoint = some endpoint → (Value.object endpoint).Ordered

def NoNulls : Prop :=
  (∀ address ∈ frame.addresses, noNulls (.object address) = true) ∧
    ∀ endpoint, frame.activationEndpoint = some endpoint → noNulls (.object endpoint) = true

def withoutNulls : AnnounceFrame :=
  { frame with
    addresses := frame.addresses.map strippedMap
    activationEndpoint := frame.activationEndpoint.map strippedMap }

def covered : AnnounceFrame := { frame with signature := "", health := none, lastSeen := none }

variable {frame}

theorem withoutNulls_self_iff (ordered : frame.Ordered) :
    frame.withoutNulls = frame ↔ frame.NoNulls := by
  have all : frame.addresses.map strippedMap = frame.addresses ↔
      ∀ address ∈ frame.addresses, noNulls (.object address) = true := by
    have pointwise := List.map_inj_left (l := frame.addresses) (f := strippedMap) (g := id)
    rw [List.map_id] at pointwise
    refine pointwise.trans ?_
    exact forall₂_congr fun address member => strippedMap_self_iff (ordered.1 address member)
  have one : frame.activationEndpoint.map strippedMap = frame.activationEndpoint ↔
      ∀ endpoint, frame.activationEndpoint = some endpoint → noNulls (.object endpoint) = true := by
    cases held : frame.activationEndpoint with
    | none => simp
    | some endpoint => simp [strippedMap_self_iff (ordered.2 endpoint held)]
  constructor
  · intro same
    exact ⟨all.mp (congrArg addresses same), one.mp (congrArg activationEndpoint same)⟩
  · intro full
    rw [withoutNulls, all.mpr full.1, one.mpr full.2]

variable (frame)

/-- No signed field is null. -/
theorem unsignedDict_some : ∀ field ∈ frame.unsignedDict, isNull field.2 = false := by
  have inserted {entries : Fields} (some_ : ∀ field ∈ entries, isNull field.2 = false) (key : String)
      {value : Value} (new : isNull value = false) :
      ∀ field ∈ insert key value entries, isNull field.2 = false := by
    intro field member
    rcases mem_insert member with same | old
    · exact same ▸ new
    · exact some_ field old
  have added {entries : Fields} (some_ : ∀ field ∈ entries, isNull field.2 = false) (key : String)
      {α : Type} (write : α → Value) (new : ∀ value, isNull (write value) = false) (held : Option α) :
      ∀ field ∈ insertSome key (held.map write) entries, isNull field.2 = false := by
    cases held with
    | none => exact some_
    | some value => exact inserted some_ key (new value)
  have text (value : String) : isNull (.string value) = false := rfl
  have texts (value : List String) : isNull (stringArray value) = false := rfl
  have count (value : UInt64) : isNull (Ncp.u64 value) = false := rfl
  intro field member
  refine added (added (added (added (added (added (added (added (added (added ?_ _ _ text _) _ _ texts _)
    _ _ text _) _ _ count _) _ _ text _) _ _ texts _) _ _ texts _) _ _ text _) _ _ (fun _ => rfl) _)
    _ _ count _ field (mem_sortEntries member)
  refine inserted (inserted (inserted (inserted (inserted (inserted ?_ _ ?_) _ ?_) _ ?_) _ ?_) _ ?_) _ ?_
  · intro field member
    cases member
  all_goals rfl

theorem signedRoot_toDict : signedRoot frame.toDict = frame.unsignedDict := by
  have ascending : Ascending frame.toDict := by
    rw [toDict_eq]
    exact ((frame.unsignedDict_ascending.insert _ _).insertSome _ _).insertSome _ _
  have kept : (frame.toDict.filter fun field =>
      not (["frame", "signature", "health", "last_seen"].contains field.1)) = frame.unsignedDict := by
    refine Ascending.ext (List.Pairwise.filter _ ascending) frame.unsignedDict_ascending fun key => ?_
    rw [get_filter_key fun key =>
      not (["frame", "signature", "health", "last_seen"].contains key)]
    cases signed : ["frame", "signature", "health", "last_seen"].contains key with
    | true => exact (get_unsignedDict_none frame signed).symm
    | false => exact get_toDict_signed frame signed
  have full : (frame.unsignedDict.filter fun field => !isNull field.2) = frame.unsignedDict :=
    List.filter_eq_self.mpr fun field member => by rw [unsignedDict_some frame field member, Bool.not_false]
  obtain ⟨-, -, -, -, -, heartbeat, -⟩ := get_unsignedDict frame
  rw [signedRoot, kept, full]
  simp only [heartbeat]

theorem unsignedDict_withoutNulls :
    frame.withoutNulls.unsignedDict = frame.unsignedDict.map (Prod.map id stripped) := by
  have text : stripped ∘ Value.string = Value.string := rfl
  have count : stripped ∘ Ncp.u64 = Ncp.u64 := rfl
  have texts : stripped ∘ stringArray = stringArray := funext stripped_stringArray
  have map : stripped ∘ Value.object = Value.object ∘ strippedMap := rfl
  have number (value : UInt64) : stripped (Ncp.u64 value) = Ncp.u64 value := rfl
  have string (value : String) : stripped (.string value) = .string value := rfl
  simp only [unsignedDict, withoutNulls, ← sortEntries_map, ← insertSome_map, ← insert_map, List.map_nil,
    Option.map_map, text, count, texts, map, number, string, stripped_objects, stripped_stringArray]

/-- The canonical text of the wire dictionary is the text of the signed dictionary without the null
fields of its maps. -/
theorem canonical_toDict : canonicalAnnounceJson (.object frame.toDict) =
    .ok (Nip.canonicalJson frame.withoutNulls.unsignedDict) := by
  have left : stripped (.object frame.unsignedDict) = .object frame.withoutNulls.unsignedDict := by
    rw [stripped, strippedFields_eq (unsignedDict_some frame), ← unsignedDict_withoutNulls,
      sortEntries_self frame.withoutNulls.unsignedDict_ascending]
  simp only [canonicalAnnounceJson, Value.asObject, signedRoot_toDict, writeCanonical_eq, left]
  rw [Nip.canonicalJson, sortEntries_self frame.withoutNulls.unsignedDict_ascending, Value.text]

variable {frame} {other : AnnounceFrame}

/-- The signed dictionary has all that is signed, and nothing else. -/
theorem unsignedDict_eq_iff : frame.unsignedDict = other.unsignedDict ↔ frame.covered = other.covered := by
  have wire (frame : AnnounceFrame) :
      frame.covered.toDict = insert "signature" (.string "") frame.unsignedDict := toDict_eq frame.covered
  constructor
  · intro same
    have read := fromDict_toDict frame.covered
    rw [wire, same, ← wire, fromDict_toDict] at read
    exact (Except.ok.inj read).symm
  · intro same
    have signed := congrArg unsignedDict same
    exact signed

theorem canonicalJson_eq_iff : Nip.canonicalJson frame.unsignedDict = Nip.canonicalJson other.unsignedDict ↔
    frame.covered = other.covered := by
  rw [Nip.canonicalJson, Nip.canonicalJson, Value.text_injective.eq_iff, Value.object.injEq,
    sortEntries_self frame.unsignedDict_ascending, sortEntries_self other.unsignedDict_ascending,
    unsignedDict_eq_iff]

theorem covered_withoutNulls : frame.withoutNulls.covered = frame.covered ↔ frame.withoutNulls = frame := by
  constructor
  · intro same
    have addresses := congrArg AnnounceFrame.addresses same
    have endpoint := congrArg AnnounceFrame.activationEndpoint same
    exact congrArg₂ (fun addresses activationEndpoint => { frame with addresses, activationEndpoint })
      addresses endpoint
  · intro same
    rw [same]

end AnnounceFrame

section
variable [Nip.Ed25519]

/-- The key and the signature as unpadded base64url. -/
def announceKeys (encodedPublicKey encodedSignature : String) :
    Option (Nip.Ed25519.VerifyingKey × Nip.Signature64) := do
  let key ← Nip.Signer.decodePublicKey encodedPublicKey
  let body ← Text.stripPrefix? "ed25519:" encodedSignature
  let bytes ← (Base64.decode .urlSafe .none body).toOption
  let signature ← Nip.Signer.sized 64 bytes
  return (key, signature)

def verifyAnnounceSignature (frame : Value) (encodedPublicKey encodedSignature : String) : Bool :=
  match announceKeys encodedPublicKey encodedSignature with
  | none => false
  | some (key, signature) =>
    match canonicalAnnounceJson frame with
    | .error _ => false
    | .ok canonical => Nip.Ed25519.verify key (Text.utf8 canonical) signature

def identityKeys (pubKey signature : String) :
    Option (Nip.Ed25519.VerifyingKey × Nip.Signature64) := do
  let bytes ← (Nip.parsePubKeyString pubKey).toOption
  let key ← (Nip.Ed25519.fromBytes bytes).toOption
  let body ← Text.stripPrefix? "ed25519:" signature
  let bytes ← (Base64.decode .standard .canonical body).toOption
  let signature ← Nip.Signer.sized 64 bytes
  return (key, signature)

def verifyWithPubKeyStr (payload : FrameDict) (pubKey signature : String) : Bool :=
  match identityKeys pubKey signature with
  | none => false
  | some (key, signature) =>
    Nip.Ed25519.verify key (Text.utf8 (Nip.canonicalJson payload)) signature

/-- Both checks are of one message. -/
def OneMessage (frame : AnnounceFrame) (message : String) : Prop :=
  (∀ pubKey signature, verifyAnnounceSignature (.object frame.toDict) pubKey signature =
    ((announceKeys pubKey signature).map fun read =>
      Nip.Ed25519.verify read.1 (Text.utf8 message) read.2).getD false) ∧
  ∀ pubKey signature, verifyWithPubKeyStr frame.unsignedDict pubKey signature =
    ((identityKeys pubKey signature).map fun read =>
      Nip.Ed25519.verify read.1 (Text.utf8 message) read.2).getD false

theorem oneMessage {frame : AnnounceFrame}
    (same : canonicalAnnounceJson (.object frame.toDict) = .ok (Nip.canonicalJson frame.unsignedDict)) :
    OneMessage frame (Nip.canonicalJson frame.unsignedDict) := by
  constructor
  · intro pubKey signature
    rw [verifyAnnounceSignature, same]
    cases announceKeys pubKey signature <;> rfl
  · intro pubKey signature
    rw [verifyWithPubKeyStr]
    cases identityKeys pubKey signature <;> rfl

/-- An announcement is read back as it was written. Its two canonical texts are the same exactly when
its maps have no null fields, and then both checks cover that text; the canonical text covers
every field except the signature and the liveness, but for the null fields of the maps. -/
theorem announce_forms {frame : AnnounceFrame} (ordered : frame.Ordered) :
    AnnounceFrame.fromDict frame.toDict = .ok frame ∧
    canonicalAnnounceJson (.object frame.toDict) =
      .ok (Nip.canonicalJson frame.withoutNulls.unsignedDict) ∧
    (canonicalAnnounceJson (.object frame.toDict) = .ok (Nip.canonicalJson frame.unsignedDict) ↔
      frame.NoNulls) ∧
    (frame.NoNulls → OneMessage frame (Nip.canonicalJson frame.unsignedDict)) ∧
    ∀ other : AnnounceFrame,
      canonicalAnnounceJson (.object frame.toDict) = canonicalAnnounceJson (.object other.toDict) ↔
        frame.withoutNulls.covered = other.withoutNulls.covered := by
  have agree : canonicalAnnounceJson (.object frame.toDict) =
      .ok (Nip.canonicalJson frame.unsignedDict) ↔ frame.NoNulls := by
    rw [AnnounceFrame.canonical_toDict, Except.ok.injEq, AnnounceFrame.canonicalJson_eq_iff,
      AnnounceFrame.covered_withoutNulls, AnnounceFrame.withoutNulls_self_iff ordered]
  refine ⟨frame.fromDict_toDict, frame.canonical_toDict, agree, fun full => oneMessage (agree.mpr full), ?_⟩
  intro other
  rw [AnnounceFrame.canonical_toDict, AnnounceFrame.canonical_toDict, Except.ok.injEq,
    AnnounceFrame.canonicalJson_eq_iff]

end

namespace NullHost

def keyBytes : Wire.Bytes := List.replicate 32 0

theorem keyBytes_length : keyBytes.length = 32 := rfl

abbrev scheme : Nip.Ed25519 := .table ⟨keyBytes, keyBytes_length⟩ fun _ => none

def plain : AnnounceFrame :=
  { nid := "urn:nps:node:example.com:a", ttl := 300, timestamp := "2026-01-01T00:00:00Z"
    addresses := [[("host", .string "a.example.com")]] }

def frame : AnnounceFrame := { plain with addresses := [[("host", .null)]] }

theorem plain_agrees :
    letI := scheme
    AnnounceFrame.fromDict plain.toDict = .ok plain ∧
      canonicalAnnounceJson (.object plain.toDict) = .ok (Nip.canonicalJson plain.unsignedDict) := by
  let _ := scheme
  have ordered : plain.Ordered := by
    refine ⟨fun address member => ?_, fun endpoint held => by cases held⟩
    cases List.mem_singleton.mp member
    exact ⟨List.pairwise_singleton _ _, trivial, trivial⟩
  have full : plain.NoNulls := by
    refine ⟨fun address member => ?_, fun endpoint held => by cases held⟩
    cases List.mem_singleton.mp member
    rfl
  have forms := announce_forms ordered
  exact ⟨forms.1, forms.2.2.1.mpr full⟩

theorem host_dropped : ¬ ∀ frame : AnnounceFrame, frame.Ordered →
    AnnounceFrame.fromDict frame.toDict = .ok frame ∧
    canonicalAnnounceJson (.object frame.toDict) = .ok (Nip.canonicalJson frame.unsignedDict) ∧
    ∀ other : AnnounceFrame, other.Ordered →
      canonicalAnnounceJson (.object frame.toDict) = canonicalAnnounceJson (.object other.toDict) →
        frame.covered = other.covered := by
  intro claimed
  have ordered : frame.Ordered := by
    refine ⟨fun address member => ?_, fun endpoint held => by cases held⟩
    cases List.mem_singleton.mp member
    exact ⟨List.pairwise_singleton _ _, trivial, trivial⟩
  have same := (claimed frame ordered).2.1
  rw [AnnounceFrame.canonical_toDict, Except.ok.injEq, AnnounceFrame.canonicalJson_eq_iff] at same
  have addresses := congrArg AnnounceFrame.addresses same
  cases addresses

end NullHost
end Nps.Ndp
