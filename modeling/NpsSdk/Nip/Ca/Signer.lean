import NpsSdk.Lib.Base64
import NpsSdk.Nip.Frames

/-! The CA's signer: canonical JSON without the excluded fields, and keys and signatures
as unpadded base64url after an `ed25519:` prefix. -/
namespace Nps.Nip.Signer
open Json

def excluded : List String :=
  ["signature", "frame", "metadata", "cert_format", "cert_chain", "health", "last_seen"]

def join : List (List Char) → List Char
  | [] => []
  | [text] => text
  | text :: rest => text ++ ',' :: join rest

theorem join_items (items : List Value) : join (items.map Value.compact) = compactItems items := by
  induction items with
  | nil => rfl
  | cons item rest ih =>
    cases rest with
    | nil => simp [join, compactItems, compactMoreItems]
    | cons next rest =>
      change item.compact ++ ',' :: join ((next :: rest).map Value.compact) = _
      rw [ih]
      rfl

theorem join_fields (fields : Fields) :
    join (fields.map fun field => quote field.1 ++ ':' :: field.2.compact) = compactFields fields := by
  induction fields with
  | nil => rfl
  | cons field rest ih =>
    obtain ⟨key, value⟩ := field
    cases rest with
    | nil => simp [join, compactFields, compactMoreFields]
    | cons next rest =>
      change (quote key ++ ':' :: value.compact) ++ ',' :: join _ = _
      rw [ih]
      simp [compactFields, compactMoreFields]

/-- An object's entries without the excluded keys, sorted, each as `"key":value`. -/
def writeEntries (entries : List (String × List Char)) : List Char :=
  let kept := entries.filter fun entry => !excluded.contains entry.1
  join ((sortEntries kept).map fun entry => quote entry.1 ++ ':' :: entry.2)

mutual
def writeCanonical : Value → List Char
  | .object fields => '{' :: writeEntries (canonicalFields fields) ++ ['}']
  | .array items => '[' :: join (canonicalItems items) ++ [']']
  | .null => Value.null.compact
  | .bool value => (Value.bool value).compact
  | .number value => (Value.number value).compact
  | .string text => (Value.string text).compact

def canonicalFields : Fields → List (String × List Char)
  | [] => []
  | (key, value) :: rest => (key, writeCanonical value) :: canonicalFields rest

def canonicalItems : List Value → List (List Char)
  | [] => []
  | item :: rest => writeCanonical item :: canonicalItems rest
end

def canonicalJson (value : Value) : String := String.ofList (writeCanonical value)

example : canonicalJson (.object [("nid", .string "n"), ("metadata", .null), ("a", .array [])]) =
    "\x7b\"a\":[],\"nid\":\"n\"\x7d" := by decide

/-- A byte string of a fixed size, as a conversion to an array checks it. -/
def sized (size : Nat) (bytes : Wire.Bytes) : Option { bytes : Wire.Bytes // bytes.length = size } :=
  if same : bytes.length = size then some ⟨bytes, same⟩ else none

theorem sized_self {size : Nat} (bytes : { bytes : Wire.Bytes // bytes.length = size }) :
    sized size bytes.1 = some bytes := by
  rw [sized, dif_pos bytes.2]

section
variable [Ed25519]

/-- Raw 32 bytes as unpadded base64url, prefixed. -/
def encodePublicKey (raw : Key32) : String :=
  "ed25519:" ++ Base64.encode .urlSafe .none raw.1

def encodeVerifyingKey (key : Ed25519.VerifyingKey) : String :=
  encodePublicKey (Ed25519.asBytes key)

def decodePublicKey (encoded : String) : Option Ed25519.VerifyingKey := do
  let b64 ← Text.stripPrefix? "ed25519:" encoded
  let raw ← (Base64.decode .urlSafe .none b64).toOption
  let arr ← sized 32 raw
  (Ed25519.fromBytes arr).toOption

def sign (key : Ed25519.SigningKey) (payload : Value) : String :=
  "ed25519:" ++ Base64.encode .urlSafe .none
    (Ed25519.sign key (Text.utf8 (canonicalJson payload))).1

def verify (key : Ed25519.VerifyingKey) (payload : Value) (signature : String) : Bool :=
  match Text.stripPrefix? "ed25519:" signature with
  | none => false
  | some b64 =>
    match Base64.decode .urlSafe .none b64 with
    | .error _ => false
    | .ok bytes =>
      match sized 64 bytes with
      | none => false
      | some sig => Ed25519.verify key (Text.utf8 (canonicalJson payload)) sig

theorem verify_sign (key : Ed25519.SigningKey) (payload : Value)
    (correct : ∀ message,
      Ed25519.verify (Ed25519.verifyingKey key) message (Ed25519.sign key message) = true) :
    verify (Ed25519.verifyingKey key) payload (sign key payload) = true := by
  simp only [verify, sign, Text.stripPrefix?_append, Base64.decode_encode, sized_self, correct]

end
end Nps.Nip.Signer
