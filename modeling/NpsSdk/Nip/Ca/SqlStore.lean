import Mathlib.Logic.Function.Basic
import NpsSdk.Lib.Assoc
import NpsSdk.Lib.Tables
import NpsSdk.Nip.Ca.Store

/-! The certificate store that runs SQL statements, the executor that interprets them in memory, and
what the statements mean. -/
namespace Nps.Nip.Ca
open Json (Value)

/-- An instant, and the offset from UTC in seconds that it is written with. -/
structure OffsetDateTime where
  instant : Instant
  offset : ℤ := 0
deriving DecidableEq

class Rfc3339 where
  format : OffsetDateTime → Option String
  parse : String → Option OffsetDateTime

/-- A text is read back as the instant that it was written for. -/
structure Rfc3339.Faithful [Rfc3339] : Prop where
  reads : ∀ dt text, Rfc3339.format dt = some text →
    (Rfc3339.parse text).map OffsetDateTime.instant = some dt.instant
  empty : Rfc3339.parse "" = none

section
variable [Rfc3339]

def fmtDt (dt : OffsetDateTime) : String := (Rfc3339.format dt).getD ""

/-- A text that is no time stands for the epoch. -/
def parseDt (text : String) : Instant := ((Rfc3339.parse text).map OffsetDateTime.instant).getD 0

/-- The time has a text, or is the one that a missing text stands for. -/
def Written (dt : OffsetDateTime) : Prop := Rfc3339.format dt = none → dt.instant = 0

theorem parseDt_fmtDt {dt : OffsetDateTime} (times : Rfc3339.Faithful) (written : Written dt) :
    parseDt (fmtDt dt) = dt.instant := by
  unfold parseDt fmtDt
  cases formatted : Rfc3339.format dt with
  | none =>
    rw [Option.getD_none, times.empty, written formatted]
    rfl
  | some text => rw [Option.getD_some, times.reads dt text formatted, Option.getD_some]

end

inductive CaSqlValue where
  | null
  | text (chars : String)
  | int (number : Int64)
deriving DecidableEq

def CaSqlValue.asText : CaSqlValue → Option String
  | text chars => some chars
  | _ => none

abbrev CaSqlRow := Assoc String CaSqlValue

abbrev CaSqlParams := List (String × CaSqlValue)

structure CaSqlError where
  message : String

/-- A driver, and the states that it can be in. -/
structure CaSqlExecutor (σ : Type) where
  execute : String → CaSqlParams → σ → Except CaSqlError Nat × σ
  query : String → CaSqlParams → σ → Except CaSqlError (List CaSqlRow) × σ
  nextSerialSeq : σ → Except CaSqlError Int64 × σ

def insertSql : String := "INSERT INTO nip_certs" ++ (" (nid, entity_type, serial, pub_key, " ++
  "capabilities_json, scope_json, issued_by, issued_at, expires_at, metadata_json, nid_role, " ++
  "parent_nid, lineage_json) VALUES (@Nid, @EntityType, @Serial, @PubKey, @CapJson, @ScopeJson, " ++
  "@IssuedBy, @IssuedAt, @ExpiresAt, @MetaJson, @NidRole, @ParentNid, @LineageJson)")

def getByNidSql : String := "SELECT * FROM nip_certs WHERE nid = @Nid ORDER BY issued_at DESC LIMIT 1"

def getBySerialSql : String := "SELECT * FROM nip_certs WHERE serial = @Serial LIMIT 1"

def revokeSql : String := "UPDATE nip_certs SET revoked_at = @RevokedAt, revoke_reason = @Reason " ++
  "WHERE nid = @Nid AND revoked_at IS NULL"

def listSql : String := "SELECT * FROM nip_certs ORDER BY issued_at DESC"

def getRevokedSql : String :=
  "SELECT * FROM nip_certs WHERE revoked_at IS NOT NULL ORDER BY revoked_at DESC"

def getByParentSql : String :=
  "SELECT * FROM nip_certs WHERE parent_nid = @ParentNid ORDER BY issued_at DESC"

/-- A record with the offsets that its times are written with. -/
structure OffsetRecord extends NipCertRecord where
  issuedOffset : ℤ := 0
  expiresOffset : ℤ := 0

def optText (text : Option String) : CaSqlValue := (text.map CaSqlValue.text).getD .null

def cellText (row : CaSqlRow) (col : String) : Option String := (row.lookup col).bind CaSqlValue.asText

section
variable [Rfc3339]

def capabilitiesText (capabilities : List String) : String :=
  (Json.stringArray capabilities).text

def insertParams (record : OffsetRecord) : CaSqlParams := [
  ("@Nid", .text record.nid), ("@EntityType", .text record.entityType),
  ("@Serial", .text record.serial), ("@PubKey", .text record.pubKey),
  ("@CapJson", .text (capabilitiesText record.capabilities)),
  ("@ScopeJson", .text record.scopeJson), ("@IssuedBy", .text record.issuedBy),
  ("@IssuedAt", .text (fmtDt ⟨record.issuedAt, record.issuedOffset⟩)),
  ("@ExpiresAt", .text (fmtDt ⟨record.expiresAt, record.expiresOffset⟩)),
  ("@MetaJson", optText record.metadataJson), ("@NidRole", optText record.nidRole),
  ("@ParentNid", optText record.parentNid), ("@LineageJson", optText record.lineageJson)]

variable [Serde]

def readCapabilities (text : String) : Option (List String) := do
  let value ← (Serde.fromStr text).toOption
  (← value.asArray).mapM Value.asStr

def recordOf (cells : String → Option String) : NipCertRecord where
  nid := (cells "nid").getD ""
  entityType := (cells "entity_type").getD ""
  serial := (cells "serial").getD ""
  pubKey := (cells "pub_key").getD ""
  capabilities := ((cells "capabilities_json").bind readCapabilities).getD []
  scopeJson := (cells "scope_json").getD "\x7b\x7d"
  issuedBy := (cells "issued_by").getD ""
  issuedAt := ((cells "issued_at").map parseDt).getD 0
  expiresAt := ((cells "expires_at").map parseDt).getD 0
  revokedAt := (cells "revoked_at").map parseDt
  revokeReason := cells "revoke_reason"
  metadataJson := cells "metadata_json"
  nidRole := cells "nid_role"
  parentNid := cells "parent_nid"
  lineageJson := cells "lineage_json"

def readRecord (row : CaSqlRow) : NipCertRecord := recordOf (cellText row)

end

section
variable [Rfc3339] [Serde] {σ : Type}

namespace SqlNipCaStore
variable (executor : CaSqlExecutor σ) (s : σ)

/-- Whatever the executor refuses with, the serial is said to exist. -/
def save (record : OffsetRecord) : Except StoreError Unit × σ :=
  let (affected, s) := executor.execute insertSql (insertParams record) s
  match affected with
  | .ok _ => (.ok (), s)
  | .error _ => (.error (.serialExists record.serial), s)

def rows (sql : String) (params : CaSqlParams) : List CaSqlRow × σ :=
  let (rows, s) := executor.query sql params s
  (rows.toOption.getD [], s)

def getByNid (nid : String) : Option NipCertRecord × σ :=
  let (rows, s) := rows executor s getByNidSql [("@Nid", .text nid)]
  (rows.head?.map readRecord, s)

def getBySerial (serial : String) : Option NipCertRecord × σ :=
  let (rows, s) := rows executor s getBySerialSql [("@Serial", .text serial)]
  (rows.head?.map readRecord, s)

def revoke (nid reason : String) (revokedAt : OffsetDateTime) : Bool × σ :=
  let (affected, s) := executor.execute revokeSql
    [("@Nid", .text nid), ("@Reason", .text reason), ("@RevokedAt", .text (fmtDt revokedAt))] s
  ((affected.toOption.map (decide <| · > 0)).getD false, s)

def nextSerial : String × σ :=
  let (next, s) := executor.nextSerialSeq s
  ("0x" ++ Text.upperHex 1 (next.toOption.getD 0).toUInt64.toNat, s)

def list : List NipCertRecord × σ :=
  let (rows, s) := rows executor s listSql []
  (rows.map readRecord, s)

def getRevoked : List NipCertRecord × σ :=
  let (rows, s) := rows executor s getRevokedSql []
  (rows.map readRecord, s)

def getByParentNid (parentNid : String) : List NipCertRecord × σ :=
  let (rows, s) := rows executor s getByParentSql [("@ParentNid", .text parentNid)]
  (rows.map readRecord, s)

end SqlNipCaStore
end

structure ExecInner where
  rows : List CaSqlRow := []
  seq : Int64 := 0
  sqlLog : List String := []

namespace InMemoryCaSqlExecutor

def param (params : CaSqlParams) (name : String) : Option CaSqlValue := params.lookup name

def paramText (params : CaSqlParams) (name : String) : Option String :=
  (param params name).bind CaSqlValue.asText

def columnForParam (name : String) : String :=
  match name with
  | "@Nid" => "nid"
  | "@EntityType" => "entity_type"
  | "@Serial" => "serial"
  | "@PubKey" => "pub_key"
  | "@CapJson" => "capabilities_json"
  | "@ScopeJson" => "scope_json"
  | "@IssuedBy" => "issued_by"
  | "@IssuedAt" => "issued_at"
  | "@ExpiresAt" => "expires_at"
  | "@MetaJson" => "metadata_json"
  | "@NidRole" => "nid_role"
  | "@ParentNid" => "parent_nid"
  | "@LineageJson" => "lineage_json"
  | _ => "unknown"

def rowOf (params : CaSqlParams) : CaSqlRow :=
  params.foldl (fun row entry => row.insert (columnForParam entry.1) entry.2) ∅

def Live (nid : String) (row : CaSqlRow) : Prop :=
  cellText row "nid" = some nid ∧ cellText row "revoked_at" = none

instance (nid : String) : DecidablePred (Live nid) := fun _ => inferInstanceAs (Decidable (_ ∧ _))

def mark (revokedAt reason : CaSqlValue) (row : CaSqlRow) : CaSqlRow :=
  (row.insert "revoked_at" revokedAt).insert "revoke_reason" reason

def execute (sql : String) (params : CaSqlParams) (s : ExecInner) : Except CaSqlError Nat × ExecInner :=
  let s := { s with sqlLog := s.sqlLog ++ [sql] }
  if Text.startsWith "CREATE" sql || Text.startsWith "INSERT OR IGNORE" sql then (.ok 0, s)
  else if Text.startsWith "INSERT INTO nip_certs" sql then
    let serial := (paramText params "@Serial").getD ""
    if ∃ row ∈ s.rows, cellText row "serial" = some serial then
      (.error ⟨s!"serial exists: {serial}"⟩, s)
    else (.ok 1, { s with rows := s.rows ++ [rowOf params] })
  else if Text.startsWith "UPDATE nip_certs" sql then
    let nid := (paramText params "@Nid").getD ""
    let revokedAt := (param params "@RevokedAt").getD .null
    let reason := (param params "@Reason").getD .null
    match Table.changeLast (Live nid) (mark revokedAt reason) s.rows with
    | some rows => (.ok 1, { s with rows })
    | none => (.ok 0, s)
  else (.ok 0, s)

/-- The rows that a query is about. -/
def selected (sql : String) (params : CaSqlParams) (rows : List CaSqlRow) : List CaSqlRow :=
  if Text.contains "WHERE nid = @Nid" sql then
    rows.filter fun row => cellText row "nid" = some ((paramText params "@Nid").getD "")
  else if Text.contains "WHERE serial = @Serial" sql then
    rows.filter fun row => cellText row "serial" = some ((paramText params "@Serial").getD "")
  else if Text.contains "WHERE parent_nid = @ParentNid" sql then
    rows.filter fun row => cellText row "parent_nid" = some ((paramText params "@ParentNid").getD "")
  else if Text.contains "WHERE revoked_at IS NOT NULL" sql then
    rows.filter fun row => cellText row "revoked_at" ≠ none
  else rows

def issuedText (row : CaSqlRow) : String := (cellText row "issued_at").getD ""

/-- The order is by the texts, latest first, and the sort keeps rows with one text as they are. -/
def ordered (sql : String) (rows : List CaSqlRow) : List CaSqlRow :=
  if Text.contains "ORDER BY issued_at DESC" sql then
    rows.mergeSort fun a b => decide (issuedText b ≤ issuedText a)
  else rows

def query (sql : String) (params : CaSqlParams) (s : ExecInner) :
    Except CaSqlError (List CaSqlRow) × ExecInner :=
  let s := { s with sqlLog := s.sqlLog ++ [sql] }
  let result := ordered sql (selected sql params s.rows)
  let result := if Text.contains "LIMIT 1" sql then result.take 1 else result
  (.ok result, s)

def nextSerialSeq (s : ExecInner) : Except CaSqlError Int64 × ExecInner :=
  (.ok (s.seq + 1), { s with seq := s.seq + 1 })

end InMemoryCaSqlExecutor

def inMemoryCaSqlExecutor : CaSqlExecutor ExecInner where
  execute := InMemoryCaSqlExecutor.execute
  query := InMemoryCaSqlExecutor.query
  nextSerialSeq := InMemoryCaSqlExecutor.nextSerialSeq

abbrev Cells := String → Option String

namespace Cells

def Live (nid : String) (cells : Cells) : Prop := cells "nid" = some nid ∧ cells "revoked_at" = none

instance (nid : String) : DecidablePred (Live nid) := fun _ => inferInstanceAs (Decidable (_ ∧ _))

def marked (revokedAt reason : String) (cells : Cells) : Cells :=
  Function.update (Function.update cells "revoked_at" (some revokedAt)) "revoke_reason" (some reason)

def issuedText (cells : Cells) : String := (cells "issued_at").getD ""

def ofColumns (columns : List (String × Option String)) : Cells :=
  columns.foldl (fun cells column => Function.update cells column.1 column.2) fun _ => none

end Cells

section
variable [Rfc3339] {σ : Type}

def insertedCells (record : OffsetRecord) : Cells := .ofColumns [
  ("nid", record.nid), ("entity_type", record.entityType), ("serial", record.serial),
  ("pub_key", record.pubKey), ("capabilities_json", capabilitiesText record.capabilities),
  ("scope_json", record.scopeJson), ("issued_by", record.issuedBy),
  ("issued_at", fmtDt ⟨record.issuedAt, record.issuedOffset⟩),
  ("expires_at", fmtDt ⟨record.expiresAt, record.expiresOffset⟩),
  ("metadata_json", record.metadataJson), ("nid_role", record.nidRole),
  ("parent_nid", record.parentNid), ("lineage_json", record.lineageJson)]

/-- A query leaves the table as it is. -/
def Queries (executor : CaSqlExecutor σ) (holds : σ → List Cells → Prop) (seq : σ → Nat) (sql : String)
    (params : CaSqlParams) (selects : List Cells → List Cells → Prop) : Prop :=
  ∀ s table, holds s table → ∃ rows t, executor.query sql params s = (.ok rows, t) ∧ holds t table ∧
    seq t = seq s ∧ selects table (rows.map cellText)

/-- Every statement but `UPDATE` does what SQL says, on a table whose serials are unique. -/
structure Executes (executor : CaSqlExecutor σ) (holds : σ → List Cells → Prop) (seq : σ → Nat) :
    Prop where
  insert : ∀ s table record, holds s table → (∀ cells ∈ table, cells "serial" ≠ some record.serial) →
    ∃ n t, executor.execute insertSql (insertParams record) s = (.ok n, t) ∧
      holds t (table ++ [insertedCells record]) ∧ seq t = seq s
  unique : ∀ s table (record : OffsetRecord), holds s table →
    (∃ cells ∈ table, cells "serial" = some record.serial) →
    ∃ e t, executor.execute insertSql (insertParams record) s = (.error e, t) ∧ holds t table ∧
      seq t = seq s
  byNid : ∀ nid, Queries executor holds seq getByNidSql [("@Nid", .text nid)]
    (Table.SelectsGreatest (fun cells => cells "nid" = some nid) Cells.issuedText)
  bySerial : ∀ serial, Queries executor holds seq getBySerialSql [("@Serial", .text serial)]
    (Table.SelectsOne fun cells => cells "serial" = some serial)
  byParent : ∀ parent, Queries executor holds seq getByParentSql [("@ParentNid", .text parent)]
    (Table.SelectsAll fun cells => cells "parent_nid" = some parent)
  revoked : Queries executor holds seq getRevokedSql []
    (Table.SelectsAll fun cells => cells "revoked_at" ≠ none)
  list : Queries executor holds seq listSql [] (Table.SelectsAll fun _ => True)
  next : ∀ s table, holds s table → seq s + 1 < 2 ^ 63 →
    ∃ t, executor.nextSerialSeq s = (.ok (Int64.ofNat (seq s + 1)), t) ∧ holds t table ∧
      seq t = seq s + 1

/-- An executor with a table, whose rows are in no order; an `UPDATE` changes all rows that it is
about. -/
structure Standard (executor : CaSqlExecutor σ) (table : σ → List Cells) (seq : σ → Nat) : Prop
    extends Executes executor (fun s rows => (table s).Perm rows) seq where
  update : ∀ s nid reason revokedAt, ∃ t, executor.execute revokeSql
      [("@Nid", .text nid), ("@Reason", .text reason), ("@RevokedAt", .text revokedAt)] s =
        (.ok ((table s).countP (Cells.Live nid)), t) ∧
    (table t).Perm (Table.changeAll (Cells.Live nid) (Cells.marked revokedAt reason) (table s)) ∧
    seq t = seq s

end

section
open InMemoryCaSqlExecutor

theorem cellText_empty : cellText ∅ = fun _ => none := rfl

theorem cellText_insert (row : CaSqlRow) (col : String) (value : CaSqlValue) :
    cellText (row.insert col value) = Function.update (cellText row) col value.asText := by
  funext other
  unfold cellText
  rw [AList.lookup_insert_if, Function.update_apply]
  split <;> rfl

@[simp] theorem asText_text (text : String) : (CaSqlValue.text text).asText = some text := rfl

@[simp] theorem asText_optText (text : Option String) : (optText text).asText = text := by
  cases text <;> rfl

theorem cellText_mark (row : CaSqlRow) (revokedAt reason : String) :
    cellText (mark (.text revokedAt) (.text reason) row) = Cells.marked revokedAt reason (cellText row) := by
  unfold mark Cells.marked
  rw [cellText_insert, cellText_insert]
  rfl

theorem cellText_foldl (params : CaSqlParams) (row : CaSqlRow) :
    cellText (params.foldl (fun row entry => row.insert (columnForParam entry.1) entry.2) row) =
      (params.map fun entry => (columnForParam entry.1, entry.2.asText)).foldl
        (fun cells column => Function.update cells column.1 column.2) (cellText row) := by
  induction params generalizing row with
  | nil => rfl
  | cons entry rest ih => rw [List.foldl_cons, List.map_cons, List.foldl_cons, ih, cellText_insert]

theorem cellText_rowOf [Rfc3339] (record : OffsetRecord) :
    cellText (rowOf (insertParams record)) = insertedCells record := by
  unfold rowOf insertedCells Cells.ofColumns
  rw [cellText_foldl, cellText_empty]
  simp only [insertParams, List.map_cons, List.map_nil, asText_text, asText_optText, columnForParam]

theorem insert_kind : Text.startsWith "CREATE" insertSql = false ∧
    Text.startsWith "INSERT OR IGNORE" insertSql = false ∧
    Text.startsWith "INSERT INTO nip_certs" insertSql = true := by
  have starts (rest : List Char) :
      "CREATE".toList.isPrefixOf ("INSERT INTO nip_certs".toList ++ rest) = false ∧
        "INSERT OR IGNORE".toList.isPrefixOf ("INSERT INTO nip_certs".toList ++ rest) = false ∧
        "INSERT INTO nip_certs".toList.isPrefixOf ("INSERT INTO nip_certs".toList ++ rest) = true :=
    ⟨rfl, rfl, rfl⟩
  unfold Text.startsWith insertSql
  rw [String.toList_append]
  exact starts _

theorem other_kinds :
    (Text.startsWith "CREATE" revokeSql = false ∧ Text.startsWith "INSERT OR IGNORE" revokeSql = false ∧
      Text.startsWith "INSERT INTO nip_certs" revokeSql = false ∧
      Text.startsWith "UPDATE nip_certs" revokeSql = true) ∧
    (Text.contains "WHERE nid = @Nid" getByNidSql = true ∧
      Text.contains "ORDER BY issued_at DESC" getByNidSql = true ∧
      Text.contains "LIMIT 1" getByNidSql = true) ∧
    (Text.contains "WHERE nid = @Nid" getBySerialSql = false ∧
      Text.contains "WHERE serial = @Serial" getBySerialSql = true ∧
      Text.contains "ORDER BY issued_at DESC" getBySerialSql = false ∧
      Text.contains "LIMIT 1" getBySerialSql = true) ∧
    (Text.contains "WHERE nid = @Nid" getByParentSql = false ∧
      Text.contains "WHERE serial = @Serial" getByParentSql = false ∧
      Text.contains "WHERE parent_nid = @ParentNid" getByParentSql = true ∧
      Text.contains "LIMIT 1" getByParentSql = false) ∧
    (Text.contains "WHERE nid = @Nid" getRevokedSql = false ∧
      Text.contains "WHERE serial = @Serial" getRevokedSql = false ∧
      Text.contains "WHERE parent_nid = @ParentNid" getRevokedSql = false ∧
      Text.contains "WHERE revoked_at IS NOT NULL" getRevokedSql = true ∧
      Text.contains "LIMIT 1" getRevokedSql = false) ∧
    Text.contains "WHERE nid = @Nid" listSql = false ∧
      Text.contains "WHERE serial = @Serial" listSql = false ∧
      Text.contains "WHERE parent_nid = @ParentNid" listSql = false ∧
      Text.contains "WHERE revoked_at IS NOT NULL" listSql = false ∧
      Text.contains "LIMIT 1" listSql = false := by
  decide +kernel

theorem ordered_perm (sql : String) (rows : List CaSqlRow) : (ordered sql rows).Perm rows := by
  unfold ordered
  split
  · exact List.mergeSort_perm ..
  · rfl

theorem paramText_serial [Rfc3339] (record : OffsetRecord) :
    paramText (insertParams record) "@Serial" = some record.serial := rfl

theorem execute_insert [Rfc3339] (record : OffsetRecord) (s : ExecInner) :
    inMemoryCaSqlExecutor.execute insertSql (insertParams record) s =
      if ∃ row ∈ s.rows, cellText row "serial" = some record.serial then
        (.error ⟨s!"serial exists: {record.serial}"⟩, { s with sqlLog := s.sqlLog ++ [insertSql] })
      else (.ok 1, { s with
        rows := s.rows ++ [rowOf (insertParams record)], sqlLog := s.sqlLog ++ [insertSql] }) := by
  obtain ⟨create, seed, insert⟩ := insert_kind
  unfold inMemoryCaSqlExecutor execute
  simp only [create, seed, insert, Bool.or_self, Bool.false_eq_true, if_false, if_true,
    paramText_serial, Option.getD_some]
  rfl

theorem execute_revoke (nid reason revokedAt : String) (s : ExecInner) :
    inMemoryCaSqlExecutor.execute revokeSql
        [("@Nid", .text nid), ("@Reason", .text reason), ("@RevokedAt", .text revokedAt)] s =
      match Table.changeLast (Live nid) (mark (.text revokedAt) (.text reason)) s.rows with
      | some rows => (.ok 1, { s with rows, sqlLog := s.sqlLog ++ [revokeSql] })
      | none => (.ok 0, { s with sqlLog := s.sqlLog ++ [revokeSql] }) := by
  obtain ⟨create, seed, insert, update⟩ := other_kinds.1
  unfold inMemoryCaSqlExecutor execute
  simp only [create, seed, insert, update, Bool.or_self, Bool.false_eq_true, if_false, if_true]
  rfl

theorem ofNat_succ (seq : Int64) : Int64.ofNat (seq.toUInt64.toNat + 1) = seq + 1 := by
  have same : Int64.ofNat seq.toUInt64.toNat = seq := Int64.ofNat_bitVecToNat seq.toBitVec
  rw [Int64.ofNat_add, same]
  rfl

theorem toNat_succ {seq : Int64} (bound : seq.toUInt64.toNat + 1 < 2 ^ 63) :
    (seq + 1).toUInt64.toNat = seq.toUInt64.toNat + 1 := by
  have one : (1 : Int64).toUInt64.toNat = 1 := rfl
  rw [Int64.toUInt64_add, UInt64.toNat_add, one, Nat.mod_eq_of_lt (by omega)]

/-- A query changes only the log. -/
theorem queries_of_rows {sql : String} {params : CaSqlParams} {selects : List Cells → List Cells → Prop}
    (selected : ∀ s rows, (query sql params s).1 = .ok rows →
      selects (s.rows.map cellText) (rows.map cellText)) :
    Queries inMemoryCaSqlExecutor (fun s table => s.rows.map cellText = table)
      (fun s => s.seq.toUInt64.toNat) sql params selects := by
  rintro s _ rfl
  exact ⟨_, _, rfl, rfl, rfl, selected s _ rfl⟩

theorem inMemory_executes [Rfc3339] : Executes inMemoryCaSqlExecutor
    (fun s table => s.rows.map cellText = table) fun s => s.seq.toUInt64.toNat where
  insert := by
    rintro s _ record rfl fresh
    have new : ¬ ∃ row ∈ s.rows, cellText row "serial" = some record.serial := by
      rintro ⟨row, held, same⟩
      exact fresh _ (List.mem_map_of_mem held) same
    have inserted := execute_insert record s
    rw [if_neg new] at inserted
    refine ⟨1, _, inserted, ?_, rfl⟩
    rw [List.map_append, List.map_singleton, cellText_rowOf]
  unique := by
    rintro s _ record rfl ⟨cells, held, same⟩
    have taken : ∃ row ∈ s.rows, cellText row "serial" = some record.serial := by
      obtain ⟨row, stored, rfl⟩ := List.mem_map.mp held
      exact ⟨row, stored, same⟩
    have refused := execute_insert record s
    rw [if_pos taken] at refused
    exact ⟨_, _, refused, rfl, rfl⟩
  byNid nid := queries_of_rows fun s rows answered => by
    obtain ⟨where_, order, limit⟩ := other_kinds.2.1
    simp only [query, ordered, selected, where_, order, limit, if_true, Except.ok.injEq] at answered
    subst answered
    exact (Table.SelectsGreatest.of_mergeSort issuedText).map cellText
  bySerial serial := queries_of_rows fun s rows answered => by
    obtain ⟨nid, where_, order, limit⟩ := other_kinds.2.2.1
    simp only [query, ordered, selected, nid, where_, order, limit, Bool.false_eq_true, if_false, if_true,
      Except.ok.injEq] at answered
    subst answered
    exact (Table.SelectsOne.of_perm (.refl _)).map cellText
  byParent parent := queries_of_rows fun s rows answered => by
    obtain ⟨nid, serial, where_, limit⟩ := other_kinds.2.2.2.1
    simp only [query, selected, nid, serial, where_, limit, Bool.false_eq_true, if_false, if_true,
      Except.ok.injEq] at answered
    subst answered
    exact Table.SelectsAll.map cellText (ordered_perm ..)
  revoked := queries_of_rows fun s rows answered => by
    obtain ⟨nid, serial, parent, where_, limit⟩ := other_kinds.2.2.2.2.1
    simp only [query, selected, nid, serial, parent, where_, limit, Bool.false_eq_true, if_false, if_true,
      Except.ok.injEq] at answered
    subst answered
    exact Table.SelectsAll.map cellText (ordered_perm ..)
  list := queries_of_rows fun s rows answered => by
    obtain ⟨nid, serial, parent, revoked, limit⟩ := other_kinds.2.2.2.2.2
    simp only [query, selected, nid, serial, parent, revoked, limit, Bool.false_eq_true, if_false,
      Except.ok.injEq] at answered
    subst answered
    have all : (ordered listSql s.rows).Perm (s.rows.filter fun _ => decide True) := by
      rw [decide_true, List.filter_true]
      exact ordered_perm ..
    exact Table.SelectsAll.map cellText all
  next := by
    rintro s _ rfl bound
    refine ⟨{ s with seq := s.seq + 1 }, ?_, rfl, toNat_succ bound⟩
    rw [ofNat_succ]
    rfl

end

end Nps.Nip.Ca
