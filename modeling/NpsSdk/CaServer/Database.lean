import NpsSdk.Lib.Interaction
import NpsSdk.Lib.Text
import NpsSdk.Nip.Platform

/-! The CA server's certificate table and the queries on it. -/
namespace Nps.CaServer
open Interaction Interaction.Prog Json
open Wire (Bytes)
open Nip (Serde)

namespace Sqlite

/-- Occurrences are replaced from the left and do not overlap; `skip` characters of the last
one are still to be passed over. -/
def replaceChars (part replacement : List Char) : Nat → List Char → List Char
  | _, [] => []
  | skip + 1, _ :: rest => replaceChars part replacement skip rest
  | 0, c :: rest =>
    if part ≠ [] ∧ part.isPrefixOf (c :: rest) then
      replacement ++ replaceChars part replacement (part.length - 1) rest
    else c :: replaceChars part replacement 0 rest

def replace (text part replacement : String) : String :=
  String.ofList (replaceChars part.toList replacement.toList 0 text.toList)

/-- The longest prefix that reads as a decimal integer, and 0 without one; 64 bits at most. -/
def castInteger (text : String) : Int :=
  let chars := text.toList.dropWhile fun c => c = ' ' || 9 ≤ c.toNat && c.toNat ≤ 13
  let magnitude (digits : List Char) : Int := Nat.ofDigitChars 10 (digits.takeWhile Char.isDigit) 0
  match chars with
  | '-' :: digits => max (-2 ^ 63) (-magnitude digits)
  | '+' :: digits => min (2 ^ 63 - 1) (magnitude digits)
  | digits => min (2 ^ 63 - 1) (magnitude digits)

def aggregateMax : List Int → Option Int
  | [] => none
  | value :: rest => some (rest.foldl max value)

example : castInteger (replace "0x00000A" "0x" "") = 0 := by decide
example : castInteger (replace "0x000010" "0x" "") = 10 := by decide

end Sqlite

/-- A row of `nip_certificates`, without its row number and creation time. -/
structure Row where
  nid : String
  entityType : String
  serial : String
  pubKey : String
  capabilities : String
  scopeJson : String
  issuedBy : String
  issuedAt : String
  expiresAt : String
  revokedAt : Option String := none
  revokeReason : Option String := none
  metadataJson : Option String
deriving DecidableEq

abbrev Table := List Row

structure InsertRec where
  nid : String
  entityType : String
  serial : String
  pubKey : String
  capabilities : List String
  scope : Fields
  issuedBy : String
  issuedAt : String
  expiresAt : String
  metadata : Option Fields

structure CertRecord where
  nid : String
  entityType : String
  serial : String
  pubKey : String
  capabilities : List String
  scope : Fields
  issuedBy : String
  issuedAt : String
  expiresAt : String
  revokedAt : Option String
  revokeReason : Option String
  metadata : Option Fields

def InsertRec.row (record : InsertRec) : Row where
  nid := record.nid
  entityType := record.entityType
  serial := record.serial
  pubKey := record.pubKey
  capabilities := (stringArray record.capabilities).text
  scopeJson := (Value.object record.scope).text
  issuedBy := record.issuedBy
  issuedAt := record.issuedAt
  expiresAt := record.expiresAt
  metadataJson := record.metadata.map fun m => (Value.object m).text

/-- Columns that do not read back as they should are taken as empty. -/
def rowToRecord [Serde] (row : Row) : CertRecord where
  nid := row.nid
  entityType := row.entityType
  serial := row.serial
  pubKey := row.pubKey
  capabilities := (((Serde.fromStr row.capabilities).toOption.bind Value.asArray).bind
    fun items => items.mapM Value.asStr).getD []
  scope := ((Serde.fromStr row.scopeJson).toOption.bind Value.asObject).getD []
  issuedBy := row.issuedBy
  issuedAt := row.issuedAt
  expiresAt := row.expiresAt
  revokedAt := row.revokedAt
  revokeReason := row.revokeReason
  metadata := row.metadataJson.bind fun text =>
    (Serde.fromStr text).toOption.bind Value.asObject

namespace CaDb

/-- One more than the greatest serial, read and written as the two queries and the format do;
the answer does not fit an `i64` past its greatest value, and a negative one is printed as its two's
complement. -/
def nextSerial (serials : List String) : Option String :=
  let values := serials.map fun serial => Sqlite.castInteger (Sqlite.replace serial "0x" "")
  let n := (Sqlite.aggregateMax values).getD 0 + 1
  if n < 2 ^ 63 then some ("0x" ++ Text.upperHex 6 (n % 2 ^ 64).toNat) else none

def entityTypes : List String := ["agent", "node", "operator"]

/-- The constraints of the table: `UNIQUE` on the serial, `CHECK` on the entity type. -/
def insert (record : InsertRec) (table : Table) : Bool × Table :=
  if record.entityType ∉ entityTypes ∨ record.serial ∈ table.map Row.serial then (false, table)
  else (true, table ++ [record.row])

def Active (nid : String) (row : Row) : Prop := row.nid = nid ∧ row.revokedAt = none

instance (nid : String) (row : Row) : Decidable (Active nid row) :=
  inferInstanceAs (Decidable (_ ∧ _))

/-- A live row of the NID, of the latest issuance; which of several is not said. -/
def GetActive (nid : String) (table : Table) : Option Row → Prop
  | none => ∀ row ∈ table, ¬ Active nid row
  | some row => row ∈ table ∧ Active nid row ∧
      ∀ other ∈ table, Active nid other → ¬ row.issuedAt < other.issuedAt

def markRevoked (nid reason revokedAt : String) (row : Row) : Row :=
  if Active nid row then
    { row with revokedAt := some revokedAt, revokeReason := some reason }
  else row

/-- Every live row of the NID is marked. -/
def revoke (nid reason revokedAt : String) (table : Table) : Bool × Table :=
  (table.any fun row => decide (Active nid row), table.map (markRevoked nid reason revokedAt))

end CaDb

inductive DbOp where
  | getActive (nid : String)
  | nextSerial
  | insert (record : InsertRec)
  | revoke (nid reason revokedAt : String)
  /-- Whole seconds since the epoch. -/
  | now
  | fillBytes (count : Nat)

abbrev DbOp.Answer : DbOp → Type
  | getActive _ => Option CertRecord
  | nextSerial => Option String
  | insert _ => Bool
  | revoke _ _ _ => Bool
  | now => UInt64
  | fillBytes count => { bytes : Bytes // bytes.length = count }

abbrev DbProg (α : Type) := Prog DbOp.Answer α

namespace Ask
abbrev getActive (nid : String) : DbProg (Option CertRecord) := perform (DbOp.getActive nid)
abbrev nextSerial : DbProg (Option String) := perform DbOp.nextSerial
abbrev insert (record : InsertRec) : DbProg Bool := perform (DbOp.insert record)
abbrev revoke (nid reason revokedAt : String) : DbProg Bool :=
  perform (DbOp.revoke nid reason revokedAt)
abbrev now : DbProg UInt64 := perform DbOp.now
abbrev fillBytes (count : Nat) : DbProg { bytes : Bytes // bytes.length = count } :=
  perform (DbOp.fillBytes count)
end Ask

/-- The clock and the random source answer as they like. -/
def exec [Serde] : (op : DbOp) → Table → op.Answer → Table → Prop
  | .getActive nid, s, answer, t =>
    ∃ row, CaDb.GetActive nid s row ∧ answer = row.map rowToRecord ∧ t = s
  | .nextSerial, s, answer, t => answer = CaDb.nextSerial (s.map Row.serial) ∧ t = s
  | .insert record, s, answer, t =>
    answer = (CaDb.insert record s).1 ∧ t = (CaDb.insert record s).2
  | .revoke nid reason revokedAt, s, answer, t =>
    answer = (CaDb.revoke nid reason revokedAt s).1 ∧ t = (CaDb.revoke nid reason revokedAt s).2
  | .now, s, _, t => t = s
  | .fillBytes _, s, _, t => t = s

section
variable [Serde] {α : Type} {s t : Table} {a : α}

@[simp] theorem runs_getActive {nid : String} {f : Option CertRecord → DbProg α} :
    Runs exec (Ask.getActive nid >>= f) s a t ↔
      ∃ row, CaDb.GetActive nid s row ∧ Runs exec (f (row.map rowToRecord)) s a t := by
  simp only [perform_bind, runs_call, exec]
  constructor
  · rintro ⟨_, _, ⟨row, found, rfl, rfl⟩, runs⟩
    exact ⟨row, found, runs⟩
  · rintro ⟨row, found, runs⟩
    exact ⟨_, _, ⟨row, found, rfl, rfl⟩, runs⟩

@[simp] theorem runs_nextSerial {f : Option String → DbProg α} :
    Runs exec (Ask.nextSerial >>= f) s a t ↔
      Runs exec (f (CaDb.nextSerial (s.map Row.serial))) s a t := by
  simp [exec]

@[simp] theorem runs_insert {record : InsertRec} {f : Bool → DbProg α} :
    Runs exec (Ask.insert record >>= f) s a t ↔
      Runs exec (f (CaDb.insert record s).1) (CaDb.insert record s).2 a t := by
  simp [exec]

@[simp] theorem runs_revoke {nid reason revokedAt : String} {f : Bool → DbProg α} :
    Runs exec (Ask.revoke nid reason revokedAt >>= f) s a t ↔
      Runs exec (f (CaDb.revoke nid reason revokedAt s).1)
        (CaDb.revoke nid reason revokedAt s).2 a t := by
  simp [exec]

@[simp] theorem runs_now {f : UInt64 → DbProg α} :
    Runs exec (Ask.now >>= f) s a t ↔ ∃ now, Runs exec (f now) s a t := by
  simp [exec]

@[simp] theorem runs_fillBytes {count : Nat} {f : { bytes : Bytes // bytes.length = count } → DbProg α} :
    Runs exec (Ask.fillBytes count >>= f) s a t ↔ ∃ bytes, Runs exec (f bytes) s a t := by
  simp [exec]

end
end Nps.CaServer
