import Mathlib.Data.Int.Order.Basic
import NpsSdk.Lib.Assoc
import NpsSdk.Nip.Ca.Signer

/-! The registry profile: the signed body of an announcement, and what an announcement does to the
registry that it reaches. -/
namespace Nps.Ndp
open Json
open Nip.Signer (join)

def announceSignatureInvalid : String := "NDP-ANNOUNCE-SIGNATURE-INVALID"
def announceConflict : String := "NDP-ANNOUNCE-CONFLICT"
def announceProfileViolation : String := "NDP-ANNOUNCE-PROFILE-VIOLATION"
def announceStale : String := "NDP-ANNOUNCE-STALE"
def graphSeqRollback : String := "NDP-GRAPH-SEQ-ROLLBACK"
def clusterSplit : String := "NDP-CLUSTER-SPLIT"

inductive NdpRegistryDecision where
  | accepted | duplicate | refreshed | removed | rejected
deriving DecidableEq, Repr

structure NdpRegistryAdmission where
  decision : NdpRegistryDecision
  errorCode : Option String
deriving DecidableEq

def accepted (decision : NdpRegistryDecision) : NdpRegistryAdmission := ⟨decision, none⟩

def reject (errorCode : String) : NdpRegistryAdmission := ⟨.rejected, some errorCode⟩

mutual
def writeCanonical : Value → List Char
  | .object object =>
    '{' :: join ((sortEntries (canonicalFields object)).map fun field =>
      quote field.1 ++ ':' :: field.2) ++ ['}']
  | .array items => '[' :: join (canonicalItems items) ++ [']']
  | .null => Value.null.compact
  | .bool value => (Value.bool value).compact
  | .number value => (Value.number value).compact
  | .string text => (Value.string text).compact

def canonicalFields : Fields → List (String × List Char)
  | [] => []
  | (_, .null) :: rest => canonicalFields rest
  | (key, value) :: rest => (key, writeCanonical value) :: canonicalFields rest

def canonicalItems : List Value → List (List Char)
  | [] => []
  | item :: rest => writeCanonical item :: canonicalItems rest
end

def isNull : Value → Bool
  | .null => true
  | _ => false

/-- The fields that are signed, with the interval that is meant when none is given. -/
def signedRoot (object : Fields) : Fields :=
  let root := object.filter fun field =>
    not (["frame", "signature", "health", "last_seen"].contains field.1)
  let root := root.filter fun field => !isNull field.2
  match get "heartbeat_interval_ms" root with
  | some _ => root
  | none => insert "heartbeat_interval_ms" (integer 60000) root

def canonicalAnnounceJson (frame : Value) : Except String String :=
  match frame.asObject with
  | none => .error "AnnounceFrame must be an object"
  | some object => .ok (String.ofList (writeCanonical (.object (signedRoot object))))

def stringValue (frame : Fields) (field : String) : Option String := (get field frame).bind Value.asStr

def numberValue (frame : Fields) (field : String) : Option Nat := (get field frame).bind Value.asU64

def strings (frame : Fields) (field : String) : List String :=
  (((get field frame).bind Value.asArray).map fun items => items.filterMap Value.asStr).getD []

def nonBlank : List Value → Option (List String)
  | [] => some []
  | item :: rest => do
    let value ← item.asStr.filter fun value => Text.trim value ≠ ""
    let values ← nonBlank rest
    return value :: values

def protocolList (frame : Fields) (field : String) : Option (Bool × List String) :=
  match get field frame with
  | none => some (false, [])
  | some value => do
    let items ← value.asArray
    let values ← nonBlank items
    return (true, values)

def isBridge (frame : Fields) : Bool :=
  (strings frame "node_roles").contains "bridge" || stringValue frame "node_type" == some "bridge"

def bridgeShapeIsValid (frame : Fields) : Bool :=
  match protocolList frame "bridge_protocols" with
  | none => false
  | some (outboundPresent, outbound) =>
    match protocolList frame "bridge_inbound_protocols" with
    | none => false
    | some (inboundPresent, inbound) =>
      if isBridge frame then !outbound.isEmpty || !inbound.isEmpty
      else !outboundPresent && !inboundPresent

def fieldSame : Option Value → Option Value → Bool
  | none, none => true
  | some a, some b => a.same b
  | _, _ => false

def valueGet (key : String) (value : Value) : Option Value := value.asObject.bind (get key)

def sameLiveness (left right : Value) : Bool :=
  fieldSame (valueGet "health" left) (valueGet "health" right) &&
    fieldSame (valueGet "last_seen" left) (valueGet "last_seen" right)

def inI64 (n : Int) : Prop := -2 ^ 63 ≤ n ∧ n < 2 ^ 63

instance (n : Int) : Decidable (inI64 n) := inferInstanceAs (Decidable (_ ∧ _))

section
variable [Nip.TimeText]

def timeValue (frame : Fields) (field : String) : Option Int := do
  let value ← stringValue frame field
  let time ← Nip.TimeText.parse value
  return Nip.unixTimestamp time

def freshnessDeadline (frame : Fields) : Option Int := do
  let source ← (timeValue frame "last_seen").or (timeValue frame "timestamp")
  let ttl ← (some (((numberValue frame "ttl").getD 0 : Nat) : Int)).filter fun ttl => inI64 ttl
  (some (source + ttl)).filter fun deadline => inI64 deadline

structure Entry where
  frame : Value
  signedDigest : String
  expiresAt : Int

structure NdpRegistryProfile where
  securityProfile : String
  entries : Assoc String Entry := ∅
  sequences : Assoc String Nat := ∅

/-- Built with overflow checks, times that are too far apart cannot be subtracted. -/
inductive Panic where
  | subtractOverflow
deriving DecidableEq

/-- What an announcement must show before the registry is looked at. -/
structure Announced where
  object : Fields
  nid : String
  timestamp : Int
  sequence : Nat
  ttl : Nat

/-- The sequence, which only a local registry does without. -/
def sequenceOf (securityProfile : String) (object : Fields) : Option Nat :=
  match get "graph_seq" object with
  | some value => value.asU64
  | none => if securityProfile = "local-dev" then some 0 else none

def readAnnounce (securityProfile : String) (frame : Value) : Option Announced := do
  let object ← frame.asObject
  let nid ← stringValue object "nid"
  let timestamp ← timeValue object "timestamp"
  let sequence ← sequenceOf securityProfile object
  let ttl ← (numberValue object "ttl").filter (· ≤ 2 ^ 32 - 1)
  if bridgeShapeIsValid object then return { object, nid, timestamp, sequence, ttl } else none

/-- Whether the announcement is too old or too new, where that counts. -/
def skewed (securityProfile : String) (receivedAt timestamp : Int) : Except Panic Bool :=
  if securityProfile = "local-dev" then .ok false
  else if inI64 (receivedAt - timestamp) ∧ inI64 |receivedAt - timestamp| then
    .ok (decide (|receivedAt - timestamp| > 300))
  else .error .subtractOverflow

namespace NdpRegistryProfile

def new (securityProfile : String) : NdpRegistryProfile := { securityProfile }

/-- An announcement under the sequence that is already the highest. -/
def repeated (registry : NdpRegistryProfile) (frame : Value) (announced : Announced)
    (digest : String) (receivedAt : Int) : NdpRegistryAdmission × NdpRegistryProfile :=
  match registry.entries.lookup announced.nid with
  | none => (accepted .duplicate, registry)
  | some current =>
    if current.signedDigest ≠ digest then (reject announceConflict, registry)
    else if sameLiveness current.frame frame then (accepted .duplicate, registry)
    else match freshnessDeadline announced.object with
      | none => (reject announceStale, registry)
      | some expiresAt =>
        if expiresAt ≤ receivedAt then (reject announceStale, registry)
        else (accepted .refreshed,
          { registry with
            entries := registry.entries.insert announced.nid
              { frame, signedDigest := digest, expiresAt } })

/-- An announcement under a new sequence. -/
def advanced (registry : NdpRegistryProfile) (frame : Value) (announced : Announced)
    (digest : String) (receivedAt : Int) : NdpRegistryAdmission × NdpRegistryProfile :=
  if announced.ttl = 0 then
    (accepted .removed,
      { registry with
        sequences := registry.sequences.insert announced.nid announced.sequence
        entries := registry.entries.erase announced.nid })
  else match freshnessDeadline announced.object with
    | none => (reject announceStale, registry)
    | some expiresAt =>
      if expiresAt ≤ receivedAt then (reject announceStale, registry)
      else (accepted .accepted,
        { registry with
          sequences := registry.sequences.insert announced.nid announced.sequence
          entries := registry.entries.insert announced.nid
            { frame, signedDigest := digest, expiresAt } })

def sequenced (registry : NdpRegistryProfile) (frame : Value) (announced : Announced) (digest : String)
    (receivedAt : Int) : NdpRegistryAdmission × NdpRegistryProfile :=
  match registry.sequences.lookup announced.nid with
  | none => registry.advanced frame announced digest receivedAt
  | some highest =>
    if announced.sequence < highest then (reject graphSeqRollback, registry)
    else if announced.sequence = highest then registry.repeated frame announced digest receivedAt
    else registry.advanced frame announced digest receivedAt

section
variable [Nip.Sha256]

def applyAnnounce (registry : NdpRegistryProfile) (frame : Value) (signatureValid : Bool)
    (receivedAt : Int) : Except Panic (NdpRegistryAdmission × NdpRegistryProfile) :=
  if signatureValid = false then .ok (reject announceSignatureInvalid, registry)
  else match readAnnounce registry.securityProfile frame with
    | none => .ok (reject announceProfileViolation, registry)
    | some announced =>
      match skewed registry.securityProfile receivedAt announced.timestamp with
      | .error panic => .error panic
      | .ok true => .ok (reject announceSignatureInvalid, registry)
      | .ok false =>
        match canonicalAnnounceJson frame with
        | .error _ => .ok (reject announceProfileViolation, registry)
        | .ok canonical =>
          let digest := Hex.encode (Nip.Sha256.digest (Text.utf8 canonical))
          .ok (registry.sequenced frame announced digest receivedAt)

end

def liveNids (registry : NdpRegistryProfile) (now : Int) : List String :=
  ((registry.entries.entries.filter fun entry => entry.2.expiresAt > now).map Sigma.fst).mergeSort
    fun a b => !keyLess b a

def highestSequences (registry : NdpRegistryProfile) : Assoc String Nat := registry.sequences

end NdpRegistryProfile
end
end Nps.Ndp
