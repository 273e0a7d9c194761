import Mathlib.Data.List.Forall2
import NpsSdk.Nip.Ca.SqlStore

/-! The store over SQL statements against the store in memory, over the executor in memory and over
any that gives the statements their meaning: the calls on which they answer alike. -/
namespace Nps.Nip.Ca
open Json (Value)

inductive CaCall where
  | save (record : OffsetRecord)
  | revoke (nid reason : String) (revokedAt : OffsetDateTime)
  | getByNid (nid : String)
  | getBySerial (serial : String)
  | getByParentNid (parentNid : String)
  | getRevoked
  | list
  | nextSerial

inductive CaAnswer where
  | saved (result : Except StoreError Unit)
  | revoked (done : Bool)
  | found (record : Option NipCertRecord)
  | records (records : List NipCertRecord)
  | serial (text : String)

/-- Lists are alike in any order. -/
def CaAnswer.Alike : CaAnswer → CaAnswer → Prop
  | records held, records others => held.Perm others
  | answer, other => answer = other

def InMemoryNipCaStore.answer (store : InMemoryNipCaStore) : CaCall → CaAnswer × InMemoryNipCaStore
  | .save record => (store.save record.toNipCertRecord).map .saved id
  | .revoke nid reason revokedAt => (store.revoke nid reason revokedAt.instant).map .revoked id
  | .getByNid nid => (.found (store.getByNid nid), store)
  | .getBySerial serial => (.found (store.getBySerial serial), store)
  | .getByParentNid parentNid => (.records (store.getByParentNid parentNid), store)
  | .getRevoked => (.records store.getRevoked, store)
  | .list => (.records store.records, store)
  | .nextSerial => store.nextSerial.map .serial id

def SqlNipCaStore.answer [Rfc3339] [Serde] {σ : Type} (executor : CaSqlExecutor σ) (s : σ) :
    CaCall → CaAnswer × σ
  | .save record => (save executor s record).map .saved id
  | .revoke nid reason revokedAt => (revoke executor s nid reason revokedAt).map .revoked id
  | .getByNid nid => (getByNid executor s nid).map .found id
  | .getBySerial serial => (getBySerial executor s serial).map .found id
  | .getByParentNid parentNid => (getByParentNid executor s parentNid).map .records id
  | .getRevoked => (getRevoked executor s).map .records id
  | .list => (list executor s).map .records id
  | .nextSerial => (nextSerial executor s).map .serial id

def answers {σ : Type} (answer : σ → CaCall → CaAnswer × σ) (s : σ) : List CaCall → List CaAnswer
  | [] => []
  | call :: rest => (answer s call).1 :: answers answer (answer s call).2 rest

def NipCertRecord.Live (nid : String) (record : NipCertRecord) : Prop :=
  record.nid = nid ∧ record.revokedAt = none

instance (nid : String) : DecidablePred (NipCertRecord.Live nid) := fun _ =>
  inferInstanceAs (Decidable (_ ∧ _))

def NipCertRecord.marked (revokedAt : Instant) (reason : String) (record : NipCertRecord) :
    NipCertRecord :=
  { record with revokedAt := some revokedAt, revokeReason := some reason }

theorem InMemoryNipCaStore.getByNid_eq (store : InMemoryNipCaStore) (nid : String) :
    store.getByNid nid = (store.records.filter fun record => record.nid = nid).getLast? := by
  unfold getByNid
  rw [← List.head?_filter, List.filter_reverse, List.head?_reverse]
  rfl

theorem InMemoryNipCaStore.revoke_eq (store : InMemoryNipCaStore) (nid reason : String)
    (revokedAt : Instant) :
    store.revoke nid reason revokedAt =
      match Table.changeLast (NipCertRecord.Live nid) (NipCertRecord.marked revokedAt reason)
        store.records with
      | some records => (true, { store with records })
      | none => (false, store) := by
  have marks (records : List NipCertRecord) : markRevoked nid reason revokedAt records =
      Table.changeFirst (NipCertRecord.Live nid) (NipCertRecord.marked revokedAt reason) records := by
    induction records with
    | nil => rfl
    | cons record rest ih =>
      rw [markRevoked, Table.changeFirst, ih]
      rfl
  unfold revoke Table.changeLast
  rw [marks]
  cases Table.changeFirst (NipCertRecord.Live nid) (NipCertRecord.marked revokedAt reason)
    store.records.reverse <;> rfl

/-- What a saved record has come to: it may have been revoked since. -/
structure SavedCert where
  saved : OffsetRecord
  revocation : Option (OffsetDateTime × String) := none

namespace SavedCert

def Live (nid : String) (cert : SavedCert) : Prop := cert.saved.nid = nid ∧ cert.revocation = none

instance (nid : String) : DecidablePred (Live nid) := fun _ => inferInstanceAs (Decidable (_ ∧ _))

def revoke (revokedAt : OffsetDateTime) (reason : String) (cert : SavedCert) : SavedCert :=
  { cert with revocation := some (revokedAt, reason) }

def record (cert : SavedCert) : NipCertRecord :=
  match cert.revocation with
  | none => cert.saved.toNipCertRecord
  | some (revokedAt, reason) =>
    { cert.saved.toNipCertRecord with revokedAt := some revokedAt.instant, revokeReason := some reason }

def cells [Rfc3339] (cert : SavedCert) : Cells :=
  match cert.revocation with
  | none => insertedCells cert.saved
  | some (revokedAt, reason) => Cells.marked (fmtDt revokedAt) reason (insertedCells cert.saved)

variable {cert : SavedCert} {col : String}

@[simp] theorem record_nid : cert.record.nid = cert.saved.nid := by
  unfold record
  split <;> rfl

@[simp] theorem record_serial : cert.record.serial = cert.saved.serial := by
  unfold record
  split <;> rfl

theorem record_live {nid : String} (saved : cert.saved.revokedAt = none) :
    NipCertRecord.Live nid cert.record ↔ cert.Live nid := by
  unfold NipCertRecord.Live Live record
  split <;> simp_all

theorem record_revoke {nid reason : String} {revokedAt : OffsetDateTime} (live : cert.Live nid) :
    cert.record.marked revokedAt.instant reason = (cert.revoke revokedAt reason).record := by
  unfold NipCertRecord.marked record revoke
  rw [live.2]

theorem isRevoked_record (saved : cert.saved.revokedAt = none) :
    cert.record.isRevoked = cert.revocation.isSome := by
  unfold NipCertRecord.isRevoked record
  split <;> simp_all

@[simp] theorem record_parentNid : cert.record.parentNid = cert.saved.parentNid := by
  unfold record
  split <;> rfl

section
variable [Rfc3339]

theorem cells_frame (time : col ≠ "revoked_at") (reason : col ≠ "revoke_reason") :
    cert.cells col = insertedCells cert.saved col := by
  obtain ⟨saved, _ | ⟨revokedAt, why⟩⟩ := cert
  · rfl
  · exact (Function.update_of_ne reason ..).trans (Function.update_of_ne time ..)

@[simp] theorem cells_nid : cert.cells "nid" = some cert.saved.nid := by
  rw [cells_frame (by decide) (by decide)]
  rfl

@[simp] theorem cells_serial : cert.cells "serial" = some cert.saved.serial := by
  rw [cells_frame (by decide) (by decide)]
  rfl

@[simp] theorem cells_parentNid : cert.cells "parent_nid" = cert.saved.parentNid := by
  rw [cells_frame (by decide) (by decide)]
  rfl

theorem cells_revokedAt : cert.cells "revoked_at" = cert.revocation.map fun done => fmtDt done.1 := by
  obtain ⟨saved, _ | ⟨revokedAt, why⟩⟩ := cert
  · rfl
  · rfl

theorem cells_issuedText :
    Cells.issuedText cert.cells = fmtDt ⟨cert.saved.issuedAt, cert.saved.issuedOffset⟩ := by
  unfold Cells.issuedText
  rw [cells_frame (by decide) (by decide)]
  rfl

theorem cells_live {nid : String} : Cells.Live nid cert.cells ↔ cert.Live nid := by
  unfold Cells.Live Live
  rw [cells_nid, cells_revokedAt, Option.map_eq_none_iff, Option.some.injEq]

theorem cells_revoke {nid reason : String} {revokedAt : OffsetDateTime} (live : cert.Live nid) :
    Cells.marked (fmtDt revokedAt) reason cert.cells = (cert.revoke revokedAt reason).cells := by
  unfold cells revoke
  rw [live.2]

theorem filter_cells {kind : Cells → Prop} [DecidablePred kind] {of : SavedCert → Prop} [DecidablePred of]
    (same : ∀ cert, kind cert.cells ↔ of cert) (certs : List SavedCert) :
    (certs.map cells).filter kind = (certs.filter of).map cells := by
  rw [List.filter_map]
  congr 1
  exact List.filter_congr fun cert _ => by simp [same]

/-- What the two stores have to agree on for the certificate to be read back. -/
structure Plain [Serde] (cert : SavedCert) : Prop where
  revokedAt : cert.saved.revokedAt = none
  revokeReason : cert.saved.revokeReason = none
  issuedAt : Written ⟨cert.saved.issuedAt, cert.saved.issuedOffset⟩
  expiresAt : Written ⟨cert.saved.expiresAt, cert.saved.expiresOffset⟩
  capabilities : readCapabilities (capabilitiesText cert.saved.capabilities) = some cert.saved.capabilities
  revocation : ∀ revokedAt reason, cert.revocation = some (revokedAt, reason) → Written revokedAt

variable [Serde]

theorem Plain.revoke {revokedAt : OffsetDateTime} {reason : String} (plain : cert.Plain)
    (written : Written revokedAt) : (cert.revoke revokedAt reason).Plain :=
  { plain with
    revocation := by
      rintro _ _ ⟨⟩
      exact written }

theorem recordOf_insertedCells (saved : OffsetRecord) :
    recordOf (insertedCells saved) = { saved.toNipCertRecord with
      capabilities := (readCapabilities (capabilitiesText saved.capabilities)).getD []
      issuedAt := parseDt (fmtDt ⟨saved.issuedAt, saved.issuedOffset⟩)
      expiresAt := parseDt (fmtDt ⟨saved.expiresAt, saved.expiresOffset⟩)
      revokedAt := none
      revokeReason := none } := rfl

theorem recordOf_marked (revokedAt reason : String) (cells : Cells) :
    recordOf (Cells.marked revokedAt reason cells) =
      { recordOf cells with revokedAt := some (parseDt revokedAt), revokeReason := some reason } := rfl

theorem recordOf_cells (times : Rfc3339.Faithful) (plain : cert.Plain) :
    recordOf cert.cells = cert.record := by
  have inserted : recordOf (insertedCells cert.saved) = cert.saved.toNipCertRecord := by
    rw [recordOf_insertedCells, parseDt_fmtDt times plain.issuedAt, parseDt_fmtDt times plain.expiresAt,
      plain.capabilities, ← plain.revokedAt, ← plain.revokeReason]
    rfl
  unfold cells record
  split
  · exact inserted
  · rename_i revokedAt reason revocation
    rw [recordOf_marked, inserted, parseDt_fmtDt times (plain.revocation revokedAt reason revocation)]

end
end SavedCert

section Alike
variable [Rfc3339]

def OffsetRecord.issuedText (record : OffsetRecord) : String :=
  fmtDt ⟨record.issuedAt, record.issuedOffset⟩

/-- The records that have been saved, with the call. -/
def savedAfter (saved : List OffsetRecord) : CaCall → List OffsetRecord
  | .save record => if ∃ other ∈ saved, other.serial = record.serial then saved else saved ++ [record]
  | _ => saved

/-- What is saved is live and has times with texts, the last record of a NID that is asked for has
a greater text than the others, and the serials are not used up. -/
def Plain (saved : List OffsetRecord) (store : InMemoryNipCaStore) : CaCall → Prop
  | .save record => (∃ other ∈ saved, other.serial = record.serial) ∨
    record.revokedAt = none ∧ record.revokeReason = none ∧
      Written ⟨record.issuedAt, record.issuedOffset⟩ ∧ Written ⟨record.expiresAt, record.expiresOffset⟩
  | .revoke nid _ revokedAt =>
    (∃ record ∈ store.records, record.Live nid) → Written revokedAt
  | .getByNid nid => ∀ earlier last, (saved.filter fun record => record.nid = nid) = earlier ++ [last] →
    ∀ record ∈ earlier, record.issuedText < last.issuedText
  | .nextSerial => store.serial + 1 < 2 ^ 63
  | _ => True

/-- A NID that is revoked has no more than one live record. -/
def Single (store : InMemoryNipCaStore) : CaCall → Prop
  | .revoke nid _ _ => store.records.countP (NipCertRecord.Live nid) ≤ 1
  | _ => True

/-- Every call meets a condition when its turn comes. -/
def Throughout (meets : List OffsetRecord → InMemoryNipCaStore → CaCall → Prop) :
    List OffsetRecord → InMemoryNipCaStore → List CaCall → Prop
  | _, _, [] => True
  | saved, store, call :: rest =>
    meets saved store call ∧ Throughout meets (savedAfter saved call) (store.answer call).2 rest

variable {σ : Type} {executor : CaSqlExecutor σ} {holds : σ → List Cells → Prop} {seq : σ → Nat}

/-- The `UPDATE` changes the last live row of the NID, and no other. -/
def RevokesLast (executor : CaSqlExecutor σ) (holds : σ → List Cells → Prop) (seq : σ → Nat) (s : σ)
    (table : List Cells) (nid reason : String) (revokedAt : OffsetDateTime) : Prop :=
  ∃ n t, executor.execute revokeSql [("@Nid", .text nid), ("@Reason", .text reason),
      ("@RevokedAt", .text (fmtDt revokedAt))] s = (.ok n, t) ∧ seq t = seq s ∧
    match Table.changeLast (Cells.Live nid) (Cells.marked (fmtDt revokedAt) reason) table with
    | some changed => 0 < n ∧ holds t changed
    | none => n = 0 ∧ holds t table

variable [Serde]

/-- The two stores hold the same certificates. -/
structure Mirrors (holds : σ → List Cells → Prop) (seq : σ → Nat) (certs : List SavedCert)
    (saved : List OffsetRecord) (store : InMemoryNipCaStore) (s : σ) : Prop where
  saved : saved = certs.map SavedCert.saved
  records : store.records = certs.map SavedCert.record
  table : holds s (certs.map SavedCert.cells)
  serial : store.serial = seq s
  plain : ∀ cert ∈ certs, cert.Plain
  serials : (certs.map fun cert => cert.saved.serial).Nodup

namespace Mirrors
variable {certs : List SavedCert} {saved : List OffsetRecord} {store : InMemoryNipCaStore} {s t : σ}

theorem queried (mirrors : Mirrors holds seq certs saved store s)
    (kept : holds t (certs.map SavedCert.cells)) (same : seq t = seq s) :
    Mirrors holds seq certs saved store t :=
  { mirrors with table := kept, serial := mirrors.serial.trans same.symm }

theorem serial_taken (mirrors : Mirrors holds seq certs saved store s) (serial : String) :
    (store.records.any fun record => record.serial == serial) = true ↔
      ∃ other ∈ saved, other.serial = serial := by
  rw [mirrors.records, mirrors.saved]
  simp

theorem save (executes : Executes executor holds seq) (mirrors : Mirrors holds seq certs saved store s)
    {record : OffsetRecord} (plain : Plain saved store (.save record))
    (capabilities : readCapabilities (capabilitiesText record.capabilities) = some record.capabilities) :
    (SqlNipCaStore.save executor s record).1 = (store.save record.toNipCertRecord).1 ∧
      ∃ certs', Mirrors holds seq certs' (savedAfter saved (.save record))
        (store.save record.toNipCertRecord).2 (SqlNipCaStore.save executor s record).2 := by
  have cells_serials : (∃ cells ∈ certs.map SavedCert.cells, cells "serial" = some record.serial) ↔
      ∃ other ∈ saved, other.serial = record.serial := by
    rw [mirrors.saved]
    simp
  by_cases taken : ∃ other ∈ saved, other.serial = record.serial
  · obtain ⟨e, t, refused, kept, same⟩ :=
      executes.unique s _ record mirrors.table (cells_serials.mpr taken)
    have unsaved : store.save record.toNipCertRecord = (.error (.serialExists record.serial), store) :=
      if_pos ((mirrors.serial_taken _).mpr taken)
    have after : savedAfter saved (.save record) = saved := if_pos taken
    unfold SqlNipCaStore.save
    rw [refused, unsaved, after]
    exact ⟨rfl, certs, mirrors.queried kept same⟩
  · have fresh : ∀ cells ∈ certs.map SavedCert.cells, cells "serial" ≠ some record.serial := by
      intro cells held same
      exact taken (cells_serials.mp ⟨cells, held, same⟩)
    obtain ⟨n, t, inserted, kept, same⟩ := executes.insert s _ record mirrors.table fresh
    have stored : store.save record.toNipCertRecord =
        (.ok (), { store with records := store.records ++ [record.toNipCertRecord] }) :=
      if_neg (mt (mirrors.serial_taken _).mp taken)
    have after : savedAfter saved (.save record) = saved ++ [record] := if_neg taken
    unfold SqlNipCaStore.save
    rw [inserted, stored, after]
    obtain ⟨live, reason, issuedAt, expiresAt⟩ := plain.resolve_left taken
    refine ⟨rfl, certs ++ [⟨record, none⟩], ?_⟩
    constructor
    · rw [mirrors.saved, List.map_append]
      rfl
    · rw [mirrors.records, List.map_append]
      rfl
    · rw [List.map_append]
      exact kept
    · exact mirrors.serial.trans same.symm
    · intro cert held
      obtain held | rfl := List.mem_append.mp held |>.imp_right List.mem_singleton.mp
      · exact mirrors.plain cert held
      · exact ⟨live, reason, issuedAt, expiresAt, capabilities, fun _ _ revoked => by cases revoked⟩
    · rw [List.map_append, List.nodup_append]
      refine ⟨mirrors.serials, List.nodup_singleton _, ?_⟩
      rintro _ held other single rfl
      obtain ⟨cert, among, same⟩ := List.mem_map.mp held
      rw [mirrors.saved] at taken
      exact taken ⟨cert.saved, List.mem_map_of_mem among, same.trans (List.mem_singleton.mp single)⟩

theorem revoke (mirrors : Mirrors holds seq certs saved store s) {nid reason : String}
    {revokedAt : OffsetDateTime} (plain : Plain saved store (.revoke nid reason revokedAt))
    (revokes : RevokesLast executor holds seq s (certs.map SavedCert.cells) nid reason revokedAt) :
    (SqlNipCaStore.revoke executor s nid reason revokedAt).1 =
        (store.revoke nid reason revokedAt.instant).1 ∧
      ∃ certs', Mirrors holds seq certs' saved (store.revoke nid reason revokedAt.instant).2
        (SqlNipCaStore.revoke executor s nid reason revokedAt).2 := by
  obtain ⟨n, t, done, same, changes⟩ := revokes
  have rows : Table.changeLast (Cells.Live nid) (Cells.marked (fmtDt revokedAt) reason)
        (certs.map SavedCert.cells) =
      (Table.changeLast (SavedCert.Live nid) (SavedCert.revoke revokedAt reason) certs).map
        (List.map SavedCert.cells) :=
    Table.changeLast_map (fun cert _ => SavedCert.cells_live) fun cert _ live => SavedCert.cells_revoke live
  have records : Table.changeLast (NipCertRecord.Live nid) (NipCertRecord.marked revokedAt.instant reason)
        (certs.map SavedCert.record) =
      (Table.changeLast (SavedCert.Live nid) (SavedCert.revoke revokedAt reason) certs).map
        (List.map SavedCert.record) :=
    Table.changeLast_map (fun cert held => SavedCert.record_live (mirrors.plain cert held).revokedAt)
      fun cert _ live => SavedCert.record_revoke live
  rw [rows] at changes
  rw [InMemoryNipCaStore.revoke_eq, mirrors.records, records]
  unfold SqlNipCaStore.revoke
  rw [done]
  cases changed : Table.changeLast (SavedCert.Live nid) (SavedCert.revoke revokedAt reason) certs with
  | none =>
    rw [changed] at changes
    obtain ⟨rfl, kept⟩ := changes
    exact ⟨rfl, certs, mirrors.queried kept same⟩
  | some certs' =>
    rw [changed] at changes
    obtain ⟨positive, kept⟩ := changes
    obtain ⟨front, cert, back, rfl, live, -, rfl⟩ := Table.changeLast_eq_some changed
    have member : cert ∈ front ++ cert :: back := List.mem_append_right _ List.mem_cons_self
    have member_plain := mirrors.plain
    have written : Written revokedAt := by
      refine plain ⟨cert.record, ?_, (SavedCert.record_live (mirrors.plain cert member).revokedAt).mpr live⟩
      rw [mirrors.records]
      exact List.mem_map_of_mem member
    refine ⟨decide_eq_true positive, front ++ cert.revoke revokedAt reason :: back, ?_⟩
    constructor
    · rw [mirrors.saved, List.map_append, List.map_append]
      rfl
    · rfl
    · exact kept
    · exact mirrors.serial.trans same.symm
    · rw [List.forall_mem_append, List.forall_mem_cons] at member_plain ⊢
      exact ⟨member_plain.1, member_plain.2.1.revoke written, member_plain.2.2⟩
    · have serials := mirrors.serials
      rw [List.map_append] at serials ⊢
      exact serials

theorem read_all (times : Rfc3339.Faithful) (mirrors : Mirrors holds seq certs saved store s)
    {kind : Cells → Prop} [DecidablePred kind] (of : SavedCert → Prop) [DecidablePred of]
    {test : NipCertRecord → Bool} (cells : ∀ cert, kind cert.cells ↔ of cert)
    (records : ∀ cert ∈ certs, test cert.record = decide (of cert)) :
    ((certs.map SavedCert.cells).filter kind).map recordOf = store.records.filter test := by
  have kept : certs.filter (test ∘ SavedCert.record) = certs.filter of := List.filter_congr records
  rw [SavedCert.filter_cells cells, List.map_map, mirrors.records, List.filter_map, kept]
  refine List.map_congr_left fun cert held => ?_
  exact SavedCert.recordOf_cells times (mirrors.plain cert (List.mem_of_mem_filter held))

theorem head?_read (rows : List CaSqlRow) :
    rows.head?.map readRecord = (rows.map cellText).head?.map recordOf := by
  rw [List.head?_map, Option.map_map]
  rfl

section Queries
variable (executes : Executes executor holds seq) (mirrors : Mirrors holds seq certs saved store s)
include executes mirrors

theorem getByNid (times : Rfc3339.Faithful) {nid : String} (plain : Plain saved store (.getByNid nid)) :
    (SqlNipCaStore.getByNid executor s nid).1 = store.getByNid nid ∧
      ∃ certs', Mirrors holds seq certs' saved store (SqlNipCaStore.getByNid executor s nid).2 := by
  obtain ⟨rows, t, found, kept, same, selected⟩ := executes.byNid nid s _ mirrors.table
  unfold SqlNipCaStore.getByNid SqlNipCaStore.rows
  rw [found]
  refine ⟨?_, certs, mirrors.queried kept same⟩
  have cells (cert : SavedCert) : cert.cells "nid" = some nid ↔ cert.saved.nid = nid := by simp
  have last := selected.eq_getLast? <| by
    intro earlier last split row held
    rw [SavedCert.filter_cells cells] at split
    obtain ⟨before, end_, certs_, rfl, single⟩ := List.map_eq_append_iff.mp split
    obtain ⟨cert, rfl, rfl⟩ := List.map_eq_singleton_iff.mp single
    obtain ⟨other, among, rfl⟩ := List.mem_map.mp held
    rw [SavedCert.cells_issuedText, SavedCert.cells_issuedText]
    refine plain (before.map SavedCert.saved) cert.saved ?_ _ (List.mem_map_of_mem among)
    rw [mirrors.saved, List.filter_map]
    exact congrArg (List.map SavedCert.saved) certs_ |>.trans (List.map_append ..)
  calc rows.head?.map readRecord
      = (((certs.map SavedCert.cells).filter fun cells => cells "nid" = some nid).map recordOf).getLast? := by
        rw [head?_read, last, List.getLast?_map]
    _ = (store.records.filter fun record => record.nid = nid).getLast? :=
        congrArg _ (mirrors.read_all times _ cells fun cert _ => by simp)
    _ = store.getByNid nid := (InMemoryNipCaStore.getByNid_eq store nid).symm

theorem getBySerial (times : Rfc3339.Faithful) (serial : String) :
    (SqlNipCaStore.getBySerial executor s serial).1 = store.getBySerial serial ∧
      ∃ certs', Mirrors holds seq certs' saved store (SqlNipCaStore.getBySerial executor s serial).2 := by
  obtain ⟨rows, t, found, kept, same, selected⟩ := executes.bySerial serial s _ mirrors.table
  unfold SqlNipCaStore.getBySerial SqlNipCaStore.rows
  rw [found]
  refine ⟨?_, certs, mirrors.queried kept same⟩
  have first := selected.eq_find? <| by
    intro a held b held' isKind isKind'
    obtain ⟨cert, among, rfl⟩ := List.mem_map.mp held
    obtain ⟨other, among', rfl⟩ := List.mem_map.mp held'
    rw [SavedCert.cells_serial] at isKind isKind'
    rw [List.inj_on_of_nodup_map mirrors.serials among among'
      (Option.some.inj (isKind.trans isKind'.symm))]
  calc rows.head?.map readRecord
      = (((certs.map SavedCert.cells).filter fun cells => cells "serial" = some serial).map recordOf).head? := by
        rw [head?_read, first, ← List.head?_filter, List.head?_map]
    _ = (store.records.filter fun record => record.serial == serial).head? :=
        congrArg _ (mirrors.read_all times (fun cert => cert.saved.serial = serial) (fun cert => by simp)
          fun cert _ => by simp [beq_eq_decide])
    _ = store.getBySerial serial := List.head?_filter ..

omit executes in
theorem rows (times : Rfc3339.Faithful) {sql : String} {params : CaSqlParams} {kind : Cells → Prop}
    [DecidablePred kind] (of : SavedCert → Prop) [DecidablePred of] {test : NipCertRecord → Bool}
    (answers : Queries executor holds seq sql params (Table.SelectsAll kind))
    (cells : ∀ cert, kind cert.cells ↔ of cert)
    (records : ∀ cert ∈ certs, test cert.record = decide (of cert)) :
    ((SqlNipCaStore.rows executor s sql params).1.map readRecord).Perm (store.records.filter test) ∧
      ∃ certs', Mirrors holds seq certs' saved store (SqlNipCaStore.rows executor s sql params).2 := by
  obtain ⟨rows, t, found, kept, unchanged, selected⟩ := answers s _ mirrors.table
  unfold SqlNipCaStore.rows
  rw [found]
  refine ⟨?_, certs, mirrors.queried kept unchanged⟩
  have read : rows.map readRecord = (rows.map cellText).map recordOf := by
    rw [List.map_map]
    rfl
  change (rows.map readRecord).Perm _
  rw [read, ← mirrors.read_all times of cells records]
  exact List.Perm.map recordOf selected

theorem nextSerial (bound : store.serial + 1 < 2 ^ 63) :
    (SqlNipCaStore.nextSerial executor s).1 = store.nextSerial.1 ∧
      ∃ certs', Mirrors holds seq certs' saved store.nextSerial.2 (SqlNipCaStore.nextSerial executor s).2 := by
  rw [mirrors.serial] at bound
  obtain ⟨t, next, kept, same⟩ := executes.next s _ mirrors.table bound
  unfold SqlNipCaStore.nextSerial InMemoryNipCaStore.nextSerial
  rw [next, mirrors.serial]
  have number : (Int64.ofNat (seq s + 1)).toUInt64.toNat = seq s + 1 := by
    rw [Int64.toUInt64_ofNat', UInt64.toNat_ofNat_of_lt' (lt_trans bound (by decide))]
  refine ⟨?_, certs, ?_⟩
  · change "0x" ++ Text.upperHex 1 (Int64.ofNat (seq s + 1)).toUInt64.toNat = _
    rw [number]
  · exact { mirrors with table := kept, serial := same.symm }

end Queries

/-- A call that meets the condition is answered alike, and the stores go on to hold the same. -/
theorem step (times : Rfc3339.Faithful) (executes : Executes executor holds seq)
    (mirrors : Mirrors holds seq certs saved store s) {call : CaCall} (plain : Plain saved store call)
    (capabilities : ∀ record, call = .save record →
      readCapabilities (capabilitiesText record.capabilities) = some record.capabilities)
    (revokes : ∀ nid reason revokedAt, call = .revoke nid reason revokedAt →
      RevokesLast executor holds seq s (certs.map SavedCert.cells) nid reason revokedAt) :
    (SqlNipCaStore.answer executor s call).1.Alike (store.answer call).1 ∧
      ∃ certs', Mirrors holds seq certs' (savedAfter saved call) (store.answer call).2
        (SqlNipCaStore.answer executor s call).2 := by
  cases call with
  | save record =>
    obtain ⟨same, after⟩ := mirrors.save executes plain (capabilities record rfl)
    exact ⟨congrArg CaAnswer.saved same, after⟩
  | revoke nid reason revokedAt =>
    obtain ⟨same, after⟩ := mirrors.revoke plain (revokes nid reason revokedAt rfl)
    exact ⟨congrArg CaAnswer.revoked same, after⟩
  | getByNid nid =>
    obtain ⟨same, after⟩ := mirrors.getByNid executes times plain
    exact ⟨congrArg CaAnswer.found same, after⟩
  | getBySerial serial =>
    obtain ⟨same, after⟩ := mirrors.getBySerial executes times serial
    exact ⟨congrArg CaAnswer.found same, after⟩
  | getByParentNid parentNid =>
    exact mirrors.rows times (fun cert => cert.saved.parentNid = some parentNid)
      (executes.byParent parentNid) (fun cert => by simp) fun cert _ => by simp [beq_eq_decide]
  | getRevoked =>
    refine mirrors.rows times (fun cert => cert.revocation ≠ none) executes.revoked
      (fun cert => by simp [SavedCert.cells_revokedAt]) fun cert held => ?_
    rw [SavedCert.isRevoked_record (mirrors.plain cert held).revokedAt]
    cases cert.revocation <;> rfl
  | list =>
    have found : List.Perm _ (store.records.filter fun _ => true) ∧ _ :=
      mirrors.rows times (fun _ => True) executes.list (fun cert => by simp) fun cert _ => by simp
    rw [List.filter_true] at found
    exact found
  | nextSerial =>
    obtain ⟨same, after⟩ := mirrors.nextSerial executes plain
    exact ⟨congrArg CaAnswer.serial same, after⟩

theorem single (mirrors : Mirrors holds seq certs saved store s) {nid : String}
    (single : store.records.countP (NipCertRecord.Live nid) ≤ 1) :
    (certs.map SavedCert.cells).countP (Cells.Live nid) ≤ 1 := by
  rw [mirrors.records, List.countP_map] at single
  rw [List.countP_map]
  refine le_of_eq_of_le (List.countP_congr fun cert held => ?_) single
  simp [SavedCert.cells_live, SavedCert.record_live (mirrors.plain cert held).revokedAt]

theorem empty (none_ : holds s []) (zero : seq s = 0) : Mirrors holds seq [] [] {} s where
  saved := rfl
  records := rfl
  table := none_
  serial := zero.symm
  plain := by simp
  serials := .nil

/-- The answers to all calls, when each meets the condition and each `UPDATE` marks the last row. -/
theorem answers_alike (times : Rfc3339.Faithful) (executes : Executes executor holds seq)
    (meets : List OffsetRecord → InMemoryNipCaStore → CaCall → Prop)
    (revokes : ∀ certs saved store s nid reason revokedAt, Mirrors holds seq certs saved store s →
      meets saved store (.revoke nid reason revokedAt) →
      RevokesLast executor holds seq s (certs.map SavedCert.cells) nid reason revokedAt)
    {calls : List CaCall} (mirrors : Mirrors holds seq certs saved store s)
    (capabilities : ∀ record, .save record ∈ calls →
      readCapabilities (capabilitiesText record.capabilities) = some record.capabilities)
    (plain : Throughout Plain saved store calls) (met : Throughout meets saved store calls) :
    List.Forall₂ CaAnswer.Alike (answers (SqlNipCaStore.answer executor) s calls)
      (answers InMemoryNipCaStore.answer store calls) := by
  induction calls generalizing certs saved store s with
  | nil => exact .nil
  | cons call rest ih =>
    obtain ⟨alike, certs', after⟩ := mirrors.step times executes plain.1
      (fun record same => capabilities record (same ▸ List.mem_cons_self))
      (fun nid reason revokedAt same => revokes _ _ _ _ _ _ _ mirrors (same ▸ met.1))
    exact .cons alike (ih after (fun record among => capabilities record (List.mem_cons_of_mem _ among))
      plain.2 met.2)

end Mirrors
end Alike

section Executors
variable {σ : Type} {executor : CaSqlExecutor σ} {table : σ → List Cells} {seq : σ → Nat}

theorem Queries.perm {sql : String} {params : CaSqlParams} {selects : List Cells → List Cells → Prop}
    (queries : Queries executor (fun s rows => table s = rows) seq sql params selects)
    (any : ∀ {rows other found}, selects rows found → rows.Perm other → selects other found) :
    Queries executor (fun s rows => (table s).Perm rows) seq sql params selects := by
  intro s rows same
  obtain ⟨found, t, done, kept, unchanged, selected⟩ := queries s _ rfl
  exact ⟨found, t, done, (List.Perm.of_eq kept).trans same, unchanged, any selected same⟩

variable [Rfc3339]

theorem Executes.perm (executes : Executes executor (fun s rows => table s = rows) seq) :
    Executes executor (fun s rows => (table s).Perm rows) seq where
  insert s rows record same fresh := by
    obtain ⟨n, t, done, kept, unchanged⟩ := executes.insert s _ record rfl
      fun cells held => fresh cells (same.subset held)
    exact ⟨n, t, done, (List.Perm.of_eq kept).trans (same.append_right _), unchanged⟩
  unique s rows record same taken := by
    obtain ⟨cells, held, serial⟩ := taken
    obtain ⟨e, t, done, kept, unchanged⟩ := executes.unique s _ record rfl ⟨cells, same.symm.subset held, serial⟩
    exact ⟨e, t, done, (List.Perm.of_eq kept).trans same, unchanged⟩
  byNid nid := (executes.byNid nid).perm Table.SelectsGreatest.perm
  bySerial serial := (executes.bySerial serial).perm Table.SelectsOne.perm
  byParent parent := (executes.byParent parent).perm Table.SelectsAll.perm
  revoked := executes.revoked.perm Table.SelectsAll.perm
  list := executes.list.perm Table.SelectsAll.perm
  next s rows same bound := by
    obtain ⟨t, done, kept, after⟩ := executes.next s _ rfl bound
    exact ⟨t, done, (List.Perm.of_eq kept).trans same, after⟩

/-- The executor in memory marks the last live row. -/
theorem inMemory_revokesLast (s : ExecInner) (nid reason : String) (revokedAt : OffsetDateTime) :
    RevokesLast inMemoryCaSqlExecutor (fun s table => s.rows.map cellText = table)
      (fun s => s.seq.toUInt64.toNat) s (s.rows.map cellText) nid reason revokedAt := by
  have rows : Table.changeLast (Cells.Live nid) (Cells.marked (fmtDt revokedAt) reason)
        (s.rows.map cellText) =
      (Table.changeLast (InMemoryCaSqlExecutor.Live nid)
        (InMemoryCaSqlExecutor.mark (.text (fmtDt revokedAt)) (.text reason)) s.rows).map
        (List.map cellText) :=
    Table.changeLast_map (fun _ _ => Iff.rfl)
      fun row _ _ => (cellText_mark row (fmtDt revokedAt) reason).symm
  unfold RevokesLast
  rw [rows, execute_revoke]
  cases Table.changeLast (InMemoryCaSqlExecutor.Live nid)
    (InMemoryCaSqlExecutor.mark (.text (fmtDt revokedAt)) (.text reason)) s.rows with
  | none => exact ⟨0, _, rfl, rfl, rfl, rfl⟩
  | some changed => exact ⟨1, _, rfl, rfl, Nat.one_pos, rfl⟩

/-- Where there is only one live row, to mark all is to mark the last. -/
theorem Standard.revokesLast (standard : Standard executor table seq) {s : σ} {rows : List Cells}
    (same : (table s).Perm rows) {nid : String} (single : rows.countP (Cells.Live nid) ≤ 1)
    (reason : String) (revokedAt : OffsetDateTime) :
    RevokesLast executor (fun s rows => (table s).Perm rows) seq s rows nid reason revokedAt := by
  obtain ⟨t, done, changed, kept⟩ := standard.update s nid reason (fmtDt revokedAt)
  refine ⟨_, t, done, kept, ?_⟩
  have after : (table t).Perm (Table.changeAll (Cells.Live nid) (Cells.marked (fmtDt revokedAt) reason) rows) :=
    changed.trans (same.map _)
  rw [same.countP_eq]
  cases last : Table.changeLast (Cells.Live nid) (Cells.marked (fmtDt revokedAt) reason) rows with
  | none =>
    have missing := Table.changeLast_eq_none.mp last
    rw [Table.changeAll_of_none missing] at after
    exact ⟨List.countP_eq_zero.mpr (by simpa using missing), after⟩
  | some marked =>
    rw [Table.changeLast_eq_changeAll single last]
    obtain ⟨front, row, back, rfl, live, -⟩ := Table.changeLast_eq_some last
    refine ⟨List.countP_pos_iff.mpr ⟨row, ?_, decide_eq_true live⟩, after⟩
    exact List.mem_append_right _ List.mem_cons_self

/-- The store over SQL statements against the store in memory, over any calls. -/
theorem sql_refines [Serde] (times : Rfc3339.Faithful) (calls : List CaCall)
    (capabilities : ∀ record, .save record ∈ calls →
      readCapabilities (capabilitiesText record.capabilities) = some record.capabilities)
    (plain : Throughout Plain [] {} calls) :
    List.Forall₂ CaAnswer.Alike (answers (SqlNipCaStore.answer inMemoryCaSqlExecutor) {} calls)
        (answers InMemoryNipCaStore.answer {} calls) ∧
      (Throughout (fun _ => Single) [] {} calls →
        ∀ (σ : Type) (executor : CaSqlExecutor σ) (table : σ → List Cells) (seq : σ → Nat) (s : σ),
          Standard executor table seq → table s = [] → seq s = 0 →
          List.Forall₂ CaAnswer.Alike (answers (SqlNipCaStore.answer executor) s calls)
            (answers InMemoryNipCaStore.answer {} calls)) := by
  constructor
  · refine Mirrors.answers_alike times inMemory_executes Plain ?_ (Mirrors.empty rfl rfl) capabilities
      plain plain
    rintro certs saved store s nid reason revokedAt mirrors -
    rw [← mirrors.table]
    exact inMemory_revokesLast s nid reason revokedAt
  · intro single σ executor table seq s standard none_ zero
    refine Mirrors.answers_alike times standard.toExecutes (fun _ => Single) ?_
      (Mirrors.empty (by rw [none_]) zero) capabilities plain single
    intro certs saved store s nid reason revokedAt mirrors one
    exact standard.revokesLast mirrors.table (mirrors.single one) reason revokedAt

end Executors

def updateAll : CaSqlExecutor ExecInner :=
  { inMemoryCaSqlExecutor with
    execute := fun sql params s =>
      if sql = revokeSql then
        let nid := (InMemoryCaSqlExecutor.paramText params "@Nid").getD ""
        let revokedAt := (InMemoryCaSqlExecutor.param params "@RevokedAt").getD .null
        let reason := (InMemoryCaSqlExecutor.param params "@Reason").getD .null
        (.ok (s.rows.countP (InMemoryCaSqlExecutor.Live nid)),
          { s with rows := Table.changeAll (InMemoryCaSqlExecutor.Live nid)
                     (InMemoryCaSqlExecutor.mark revokedAt reason) s.rows })
      else inMemoryCaSqlExecutor.execute sql params s }

theorem updateAll_insert (params : CaSqlParams) (s : ExecInner) :
    updateAll.execute insertSql params s = inMemoryCaSqlExecutor.execute insertSql params s := by
  have other : insertSql ≠ revokeSql := by decide +kernel
  unfold updateAll
  dsimp only
  rw [if_neg other]

theorem updateAll_update (nid reason revokedAt : String) (s : ExecInner) :
    updateAll.execute revokeSql
        [("@Nid", .text nid), ("@Reason", .text reason), ("@RevokedAt", .text revokedAt)] s =
      (.ok (s.rows.countP (InMemoryCaSqlExecutor.Live nid)),
        { s with rows := Table.changeAll (InMemoryCaSqlExecutor.Live nid)
                   (InMemoryCaSqlExecutor.mark (.text revokedAt) (.text reason)) s.rows }) := by
  unfold updateAll
  dsimp only
  rw [if_pos rfl]
  rfl

theorem updateAll_executes [Rfc3339] : Executes updateAll (fun s table => s.rows.map cellText = table)
    fun s => s.seq.toUInt64.toNat :=
  { inMemory_executes with
    insert := fun s table record same fresh => by
      rw [updateAll_insert]
      exact inMemory_executes.insert s table record same fresh
    unique := fun s table record same taken => by
      rw [updateAll_insert]
      exact inMemory_executes.unique s table record same taken }

theorem updateAll_standard [Rfc3339] :
    Standard updateAll (fun s => s.rows.map cellText) fun s => s.seq.toUInt64.toNat where
  toExecutes := updateAll_executes.perm
  update s nid reason revokedAt := by
    have count : (s.rows.map cellText).countP (Cells.Live nid) =
        s.rows.countP (InMemoryCaSqlExecutor.Live nid) := by
      rw [List.countP_map]
      rfl
    have changed : Table.changeAll (Cells.Live nid) (Cells.marked revokedAt reason) (s.rows.map cellText) =
        (Table.changeAll (InMemoryCaSqlExecutor.Live nid)
          (InMemoryCaSqlExecutor.mark (.text revokedAt) (.text reason)) s.rows).map cellText :=
      Table.changeAll_map (fun _ _ => Iff.rfl) fun row _ _ => (cellText_mark row revokedAt reason).symm
    rw [count, changed]
    exact ⟨_, updateAll_update nid reason revokedAt s, .refl _, rfl⟩

namespace Rekeyed

def january : OffsetDateTime := { instant := 1767225600000000000 }
def february : OffsetDateTime := { instant := 1769904000000000000 }

/-- The texts of the two times. -/
scoped instance rfc3339 : Rfc3339 where
  format dt :=
    if dt = january then some "2026-01-01T00:00:00Z"
    else if dt = february then some "2026-02-01T00:00:00Z" else none
  parse text :=
    if text = "2026-01-01T00:00:00Z" then some january
    else if text = "2026-02-01T00:00:00Z" then some february else none

theorem faithful : Rfc3339.Faithful where
  reads dt text formatted := by
    change (if dt = january then some "2026-01-01T00:00:00Z"
      else if dt = february then some "2026-02-01T00:00:00Z" else none) = some text at formatted
    split_ifs at formatted with first second
    · cases formatted
      rw [first]
      rfl
    · cases formatted
      rw [second]
      rfl
  empty := by decide

scoped instance serde : Serde := .table [("[\"nwp:query\"]", Json.stringArray ["nwp:query"])]

def record (serial : String) (issued : OffsetDateTime) : OffsetRecord where
  nid := "urn:nps:agent:ca.example:a1"
  entityType := "agent"
  serial := serial
  pubKey := "ed25519:abc123"
  capabilities := ["nwp:query"]
  scopeJson := "\x7b\x7d"
  issuedBy := "urn:nps:org:ca.example"
  issuedAt := issued.instant
  expiresAt := february.instant

def calls : List CaCall := [.nextSerial, .save (record "0x1" january),
  .revoke "urn:nps:agent:ca.example:a1" "superseded" february, .nextSerial,
  .save (record "0x2" february), .getByNid "urn:nps:agent:ca.example:a1", .getRevoked, .list]

theorem capabilities_read (saved : OffsetRecord) (among : .save saved ∈ calls) :
    readCapabilities (capabilitiesText saved.capabilities) = some saved.capabilities := by
  simp only [calls, List.mem_cons, reduceCtorEq, false_or, CaCall.save.injEq, List.not_mem_nil, or_false]
    at among
  obtain rfl | rfl := among <;> decide +kernel

theorem plain : Throughout Plain [] {} calls := by
  have earlier : Written january := fun none_ => absurd none_ (by decide)
  have later : Written february := fun none_ => absurd none_ (by decide)
  have bound : (2 : Nat) < 2 ^ 63 := by decide
  refine ⟨lt_trans (by decide) bound, .inr ⟨rfl, rfl, earlier, later⟩, fun _ => later, bound,
    .inr ⟨rfl, rfl, later, later⟩, ?_, trivial, trivial, trivial⟩
  intro before last split
  obtain ⟨rfl, same⟩ := List.append_inj'
    (show [record "0x1" january] ++ [record "0x2" february] = before ++ [last] from split) rfl
  cases same
  rw [List.forall_mem_singleton]
  decide +kernel

theorem single : Throughout (fun _ => Single) [] {} calls :=
  ⟨trivial, trivial, List.countP_le_length, trivial, trivial, trivial, trivial, trivial, trivial⟩

theorem refined :
    List.Forall₂ CaAnswer.Alike (answers (SqlNipCaStore.answer inMemoryCaSqlExecutor) {} calls)
        (answers InMemoryNipCaStore.answer {} calls) ∧
      List.Forall₂ CaAnswer.Alike (answers (SqlNipCaStore.answer updateAll) {} calls)
        (answers InMemoryNipCaStore.answer {} calls) :=
  have both := sql_refines faithful calls capabilities_read plain
  ⟨both.1, both.2 single ExecInner updateAll _ _ {} updateAll_standard rfl rfl⟩

end Rekeyed

end Nps.Nip.Ca
