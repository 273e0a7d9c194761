import NpsSdk.Lib.Text
import NpsSdk.Nip.Platform

/-! Certificate records and the in-memory certificate store. -/
namespace Nps.Nip.Ca

def roleGroup : String := "group"
def roleSession : String := "session"

structure NipCertRecord where
  nid : String
  entityType : String
  serial : String
  pubKey : String
  capabilities : List String
  scopeJson : String
  issuedBy : String
  issuedAt : Instant
  expiresAt : Instant
  revokedAt : Option Instant := none
  revokeReason : Option String := none
  metadataJson : Option String := none
  nidRole : Option String := none
  parentNid : Option String := none
  lineageJson : Option String := none
deriving DecidableEq

def NipCertRecord.isRevoked (record : NipCertRecord) : Bool := record.revokedAt.isSome

inductive StoreError where
  | nidExists (nid : String)
  | serialExists (serial : String)
deriving DecidableEq

structure InMemoryNipCaStore where
  records : List NipCertRecord := []
  serial : Nat := 0
deriving DecidableEq

namespace InMemoryNipCaStore
variable (store : InMemoryNipCaStore)

def save (record : NipCertRecord) : Except StoreError Unit × InMemoryNipCaStore :=
  if store.records.any (·.serial == record.serial) then
    (.error (.serialExists record.serial), store)
  else (.ok (), { store with records := store.records ++ [record] })

/-- The latest record of the NID. -/
def getByNid (nid : String) : Option NipCertRecord :=
  store.records.reverse.find? (·.nid == nid)

def getBySerial (serial : String) : Option NipCertRecord :=
  store.records.find? (·.serial == serial)

/-- Mark the first live record of the NID, given the records latest first. -/
def markRevoked (nid reason : String) (revokedAt : Instant) :
    List NipCertRecord → Option (List NipCertRecord)
  | [] => none
  | record :: rest =>
    if record.nid = nid ∧ record.revokedAt = none then
      some ({ record with revokedAt := some revokedAt, revokeReason := some reason } :: rest)
    else (markRevoked nid reason revokedAt rest).map (record :: ·)

/-- Only the latest live record of the NID is marked. -/
def revoke (nid reason : String) (revokedAt : Instant) : Bool × InMemoryNipCaStore :=
  match markRevoked nid reason revokedAt store.records.reverse with
  | some records => (true, { store with records := records.reverse })
  | none => (false, store)

def nextSerial : String × InMemoryNipCaStore :=
  let serial := store.serial + 1
  ("0x" ++ Text.upperHex 1 serial, { store with serial })

def getRevoked : List NipCertRecord := store.records.filter (·.isRevoked)

def getByParentNid (parentNid : String) : List NipCertRecord :=
  store.records.filter (·.parentNid == some parentNid)

variable {store}

theorem getByNid_some {nid : String} {record : NipCertRecord}
    (found : store.getByNid nid = some record) : record ∈ store.records ∧ record.nid = nid := by
  unfold getByNid at found
  exact ⟨List.mem_reverse.mp (List.mem_of_find?_eq_some found), by simpa using List.find?_some found⟩

theorem getByNid_eq_none {nid : String} :
    store.getByNid nid = none ↔ ∀ record ∈ store.records, record.nid ≠ nid := by
  unfold getByNid
  rw [List.find?_eq_none]
  simp only [List.mem_reverse, beq_iff_eq, ne_eq]

theorem save_ok {record : NipCertRecord} (saved : (store.save record).1 = .ok ()) :
    (store.save record).2.records = store.records ++ [record] := by
  unfold save at saved ⊢
  split_ifs at saved ⊢
  rfl

theorem save_new {record : NipCertRecord}
    (fresh : ∀ other ∈ store.records, other.serial ≠ record.serial) :
    (store.save record).1 = .ok () := by
  unfold save
  rw [if_neg (by simpa using fresh)]

theorem save_error {record : NipCertRecord} {e : StoreError}
    (refused : (store.save record).1 = .error e) : (store.save record).2 = store := by
  unfold save at refused ⊢
  split_ifs at refused ⊢
  rfl

end InMemoryNipCaStore
end Nps.Nip.Ca
