import NpsSdk.CaServer.Server

/-! The serials of the CA server's certificates, over every run from the empty table. -/
namespace Nps.CaServer
open Interaction Interaction.Prog Json Transition
open Nip (Serde Ed25519)

/-- A request and the answer to it, when the handler did not panic. -/
abbrev Exchange := Request × Option Response

def Response.text (response : Response) (key : String) : Option String :=
  (response.body.asObject.bind (get key)).bind Value.asStr

@[simp] theorem Response.text_document (status : Nat) (entries : List (String × Value))
    (key : String) :
    Response.text ⟨status, document entries⟩ key = (Json.get key entries).bind Value.asStr := by
  simp [Response.text, document, Value.asObject]

def serialOf (exchange : Exchange) : Option String :=
  exchange.2.bind fun response =>
    if response.status = 200 ∨ response.status = 201 then response.text "serial" else none

/-- The row is the record of the certificate the answer hands out. -/
def Describes (exchange : Exchange) (row : Row) : Prop :=
  ∃ response, exchange.2 = some response ∧ response.text "serial" = some row.serial ∧
    response.text "nid" = some row.nid ∧ response.text "issued_at" = some row.issuedAt ∧
    response.text "expires_at" = some row.expiresAt

/-- No serial was handed out twice, and every certificate handed out is on record. -/
structure Lossless (log : List Exchange) (table : Table) : Prop where
  fresh : (log.filterMap serialOf).Nodup
  stored : ∀ exchange ∈ log, ∀ serial, serialOf exchange = some serial →
    ∃ row ∈ table, row.serial = serial ∧ Describes exchange row

def Roomy (s : Table) (exchange : Exchange) : Prop := serialOf exchange = none ∨ s.length < 10

def firstSerials : List String := (List.range 10).map fun i => "0x" ++ Text.upperHex 6 (i + 1)

theorem firstSerials_nodup : firstSerials.Nodup := by decide

/-- The tenth serial has a letter and counts as 0, so it is taken again and again. -/
theorem nextSerial_first : ∀ count ≤ 10,
    CaDb.nextSerial (firstSerials.take count) = some (firstSerials.getD count "0x00000A") := by
  decide +kernel

/-- Rows are numbered from the first serial on, ten at most. -/
structure Numbered (s : Table) : Prop where
  serials : s.map Row.serial = firstSerials.take s.length
  types : ∀ row ∈ s, row.entityType ∈ CaDb.entityTypes

theorem Numbered.few {s : Table} (numbered : Numbered s) : s.length ≤ 10 := by
  have lengths := congrArg List.length numbered.serials
  rw [List.length_map, List.length_take] at lengths
  have ten : firstSerials.length = 10 := rfl
  omega

def Row.issuance (row : Row) : Row := { row with revokedAt := none, revokeReason := none }

def Kept (s t : Table) : Prop := t.map Row.issuance = s.map Row.issuance

theorem Kept.serials {s t : Table} (kept : Kept s t) : t.map Row.serial = s.map Row.serial := by
  have same := congrArg (List.map Row.serial) kept
  rwa [List.map_map, List.map_map] at same

theorem Kept.length {s t : Table} (kept : Kept s t) : t.length = s.length := by
  simpa using congrArg List.length kept

theorem Kept.row {s t : Table} (kept : Kept s t) {row : Row} (member : row ∈ s) :
    ∃ other ∈ t, other.issuance = row.issuance := by
  have moved : row.issuance ∈ t.map Row.issuance := kept ▸ List.mem_map_of_mem member
  exact List.mem_map.mp moved

theorem revoke_kept (nid reason revokedAt : String) (s : Table) :
    Kept s (CaDb.revoke nid reason revokedAt s).2 := by
  unfold Kept CaDb.revoke
  rw [List.map_map]
  apply List.map_congr_left
  intro row _
  change (CaDb.markRevoked nid reason revokedAt row).issuance = row.issuance
  unfold CaDb.markRevoked
  split_ifs <;> rfl

inductive Effect (s : Table) (exchange : Exchange) (t : Table) : Prop where
  | none (silent : serialOf exchange = none) (kept : Kept s t)
  | issued (record : InsertRec) (numbered : CaDb.nextSerial (s.map Row.serial) = some record.serial)
      (known : record.entityType ∈ CaDb.entityTypes ∨
        ∃ row ∈ s, row.entityType = record.entityType)
      (carries : serialOf exchange = some record.serial) (describes : Describes exchange record.row)
      (inserted : t = (CaDb.insert record s).2)

section
variable [Ed25519] [Serde] {app : AppState}

theorem issue_effect {request : Request} {subject : Subject} {status : Nat}
    (good : status = 200 ∨ status = 201) {s t : Table} {response : Option Response}
    (known : subject.entityType ∈ CaDb.entityTypes ∨ ∃ row ∈ s, row.entityType = subject.entityType)
    (runs : Runs exec (issue app subject status) s response t) :
    Effect s (request, response) t := by
  have runs := runs_nextSerial.mp runs
  split at runs
  · cases runs
    exact .none rfl rfl
  rename_i serial next
  obtain ⟨now, runs⟩ := runs_now.mp runs
  have runs := runs_insert.mp runs
  cases runs
  refine .issued _ next ?_ ?_ ?_ rfl
  · exact known
  · simp [serialOf, good, Json.get, Value.asStr]
  · refine ⟨_, rfl, ?_⟩
    simp [Json.get, Value.asStr, InsertRec.row]

omit [Ed25519] [Serde] in
theorem refusal_effect {request : Request} {s : Table} (response : Response)
    (bad : response.status ≠ 200 ∧ response.status ≠ 201) :
    Effect s (request, some response) s :=
  .none (by simp [serialOf, bad.1, bad.2]) rfl

theorem register_effect {request : Request} {req : RegisterReq} {entityType : String} {s t : Table}
    {response : Option Response} (known : entityType ∈ CaDb.entityTypes)
    (runs : Runs exec (register app req entityType) s response t) :
    Effect s (request, response) t := by
  obtain ⟨nid, u, chosen, rest⟩ := runs_bind.mp runs
  have same : u = s := by
    unfold chooseNid at chosen
    split at chosen
    · cases chosen
      rfl
    · obtain ⟨uid, chosen⟩ := runs_fillBytes.mp chosen
      cases chosen
      rfl
  subst same
  obtain ⟨row, -, rest⟩ := runs_getActive.mp rest
  cases row with
  | some row =>
    cases rest
    exact refusal_effect _ (by simp [refusal])
  | none => exact issue_effect (.inr rfl) (.inl known) rest

theorem renew_effect {request : Request} {nid : String} {s t : Table} {response : Option Response}
    (runs : Runs exec (renew app nid) s response t) : Effect s (request, response) t := by
  obtain ⟨row, found, runs⟩ := runs_getActive.mp runs
  cases row with
  | none =>
    cases runs
    exact refusal_effect _ (by simp [notFound, refusal])
  | some row =>
    obtain ⟨now, runs⟩ := runs_now.mp runs
    extract_lets left at runs
    split at runs
    · cases runs
      exact refusal_effect _ (by simp [refusal])
    · exact issue_effect (.inl rfl) (.inr ⟨row, found.1, rfl⟩) runs

omit [Ed25519] in
theorem revoke_effect {request : Request} {nid : String} {reason : Option String} {s t : Table}
    {response : Option Response} (runs : Runs exec (revokeHandler nid reason) s response t) :
    Effect s (request, response) t := by
  obtain ⟨now, runs⟩ := runs_now.mp runs
  have runs := runs_revoke.mp runs
  have kept := revoke_kept nid (reason.getD "cessation_of_operation") (fmtIso now) s
  split at runs
  · obtain ⟨later, runs⟩ := runs_now.mp runs
    cases runs
    refine .none ?_ kept
    simp [serialOf, Json.get]
  · cases runs
    refine .none ?_ kept
    simp [serialOf, notFound, refusal]

/-- One request is served to its end before the next. -/
def Step (app : AppState) (s : Table) (exchange : Exchange) (t : Table) : Prop :=
  Runs exec (handle app exchange.1) s exchange.2 t

theorem step_effect {s t : Table} {exchange : Exchange} (step : Step app s exchange t) :
    Effect s exchange t := by
  obtain ⟨request, response⟩ := exchange
  cases request with
  | registerAgent req => exact register_effect (by decide) step
  | registerNode req => exact register_effect (by decide) step
  | renew nid => exact renew_effect step
  | revoke nid reason => exact revoke_effect step

end

section
variable {s t : Table} {exchange : Exchange} {record : InsertRec}

theorem Numbered.room (numbered : Numbered s) (room : s.length < 10)
    (next : CaDb.nextSerial (s.map Row.serial) = some record.serial)
    (known : record.entityType ∈ CaDb.entityTypes) :
    (CaDb.insert record s).2 = s ++ [record.row] ∧ firstSerials[s.length]? = some record.serial := by
  have bound : s.length < firstSerials.length := room
  rw [numbered.serials, nextSerial_first _ (Nat.le_of_lt room)] at next
  have taken : firstSerials[s.length]? = some record.serial := by
    rw [List.getElem?_eq_getElem bound]
    simpa [List.getD, List.getElem?_eq_getElem bound] using next
  have fresh : record.serial ∉ s.map Row.serial := by
    rw [numbered.serials]
    intro member
    have distinct := firstSerials_nodup.sublist (List.take_sublist (s.length + 1) firstSerials)
    rw [List.take_add_one, taken, Option.toList_some, List.nodup_append] at distinct
    exact distinct.2.2 _ member _ (List.mem_singleton_self _) rfl
  refine ⟨?_, taken⟩
  unfold CaDb.insert
  rw [if_neg (by simp only [not_or, not_not]; exact ⟨known, fresh⟩)]

theorem Numbered.full (numbered : Numbered s) (full : s.length = 10)
    (next : CaDb.nextSerial (s.map Row.serial) = some record.serial) :
    record.serial ∈ s.map Row.serial ∧ (CaDb.insert record s).2 = s := by
  have taken : record.serial ∈ s.map Row.serial := by
    rw [numbered.serials, nextSerial_first _ (Nat.le_of_eq full), full] at next
    rw [numbered.serials, full, ← Option.some.inj next]
    decide
  refine ⟨taken, ?_⟩
  unfold CaDb.insert
  rw [if_pos (.inr taken)]

theorem Numbered.known (numbered : Numbered s)
    (known : record.entityType ∈ CaDb.entityTypes ∨
      ∃ row ∈ s, row.entityType = record.entityType) :
    record.entityType ∈ CaDb.entityTypes := by
  rcases known with known | ⟨row, member, same⟩
  · exact known
  · exact same ▸ numbered.types row member

theorem Kept.types (kept : Kept s t) (types : ∀ row ∈ s, row.entityType ∈ CaDb.entityTypes) :
    ∀ row ∈ t, row.entityType ∈ CaDb.entityTypes := by
  intro row member
  obtain ⟨other, before, same⟩ := Kept.row (Eq.symm kept) member
  have type : other.entityType = row.entityType := (congrArg Row.entityType same :)
  exact type ▸ types other before

theorem Numbered.step (numbered : Numbered s) (effect : Effect s exchange t) : Numbered t := by
  cases effect with
  | none silent kept =>
    refine ⟨?_, kept.types numbered.types⟩
    rw [kept.serials, kept.length, numbered.serials]
  | issued record next known carries describes inserted =>
    have known := numbered.known known
    by_cases room : s.length < 10
    · obtain ⟨entered, taken⟩ := numbered.room room next known
      rw [inserted, entered]
      constructor
      · rw [List.map_append, numbered.serials, List.length_append, List.length_singleton,
          List.take_add_one, taken]
        rfl
      · intro row member
        rcases List.mem_append.mp member with old | new
        · exact numbered.types row old
        · rw [List.mem_singleton.mp new]
          exact known
    · have full := Nat.le_antisymm numbered.few (Nat.le_of_not_lt room)
      rw [inserted, (numbered.full full next).2]
      exact numbered

def Held (table : Table) (row : Row) : Prop := ∃ other ∈ table, other.issuance = row.issuance

theorem Held.step {row : Row} (held : Held s row) (effect : Effect s exchange t) : Held t row := by
  obtain ⟨other, member, same⟩ := held
  cases effect with
  | none silent kept =>
    obtain ⟨later, here, still⟩ := kept.row member
    exact ⟨later, here, still.trans same⟩
  | issued record next known carries describes inserted =>
    rw [inserted]
    unfold CaDb.insert
    split_ifs
    · exact ⟨other, member, same⟩
    · exact ⟨other, List.mem_append_left _ member, same⟩

theorem Held.describes {row : Row} (held : Held t row) (describes : Describes exchange row) :
    ∃ other ∈ t, other.serial = row.serial ∧ Describes exchange other := by
  obtain ⟨other, member, same⟩ := held
  have serial : other.serial = row.serial := (congrArg Row.serial same :)
  have nid : other.nid = row.nid := (congrArg Row.nid same :)
  have issuedAt : other.issuedAt = row.issuedAt := (congrArg Row.issuedAt same :)
  have expiresAt : other.expiresAt = row.expiresAt := (congrArg Row.expiresAt same :)
  refine ⟨other, member, serial, ?_⟩
  unfold Describes
  rwa [serial, nid, issuedAt, expiresAt]

end

section
variable [Ed25519] [Serde] {app : AppState} {s t : Table} {log : List Exchange}

/-- While there is room, the rows carry the serials handed out, in order. -/
theorem guarded_serials (run : Run (Guarded Roomy (Step app)) s log t) (numbered : Numbered s) :
    Numbered t ∧ t.map Row.serial = s.map Row.serial ++ log.filterMap serialOf := by
  induction run with
  | refl s => exact ⟨numbered, by simp⟩
  | @next s u t exchange log head tail ih =>
    obtain ⟨room, step⟩ := head
    have effect := step_effect step
    obtain ⟨later, serials⟩ := ih (numbered.step effect)
    refine ⟨later, ?_⟩
    rw [serials]
    cases effect with
    | none silent kept => rw [kept.serials, List.filterMap_cons_none silent]
    | issued record next known carries describes inserted =>
      have space : s.length < 10 := room.resolve_left (by rw [carries]; simp)
      obtain ⟨entered, -⟩ := numbered.room space next (numbered.known known)
      rw [inserted, entered, List.filterMap_cons_some carries]
      simp [InsertRec.row]

theorem run_held {row : Row} (run : Run (Step app) s log t) (held : Held s row) : Held t row :=
  run.invariant (P := (Held · row)) (fun held step => held.step (step_effect step)) held

theorem guarded_stored (run : Run (Guarded Roomy (Step app)) s log t) (numbered : Numbered s) :
    ∀ exchange ∈ log, ∀ serial, serialOf exchange = some serial →
      ∃ row, Held t row ∧ row.serial = serial ∧ Describes exchange row := by
  induction run with
  | refl s => simp
  | @next s u t exchange log head tail ih =>
    obtain ⟨room, step⟩ := head
    have effect := step_effect step
    intro other member serial issued
    rcases List.mem_cons.mp member with rfl | member
    · cases effect with
      | none silent kept =>
        rw [silent] at issued
        cases issued
      | issued record next known carries describes inserted =>
        have space : s.length < 10 := room.resolve_left (by rw [carries]; simp)
        obtain ⟨entered, -⟩ := numbered.room space next (numbered.known known)
        have here : Held u record.row := ⟨record.row, by rw [inserted, entered]; simp, rfl⟩
        cases carries.symm.trans issued
        exact ⟨record.row, run_held (tail.mono fun step => step.2) here, rfl, describes⟩
    · exact ih (numbered.step effect) other member serial issued

/-- A run whose serials differ, from those of the first table on, never issues from a full one. -/
theorem run_guarded (run : Run (Step app) s log t) (numbered : Numbered s) {past : List String}
    (within : ∀ serial ∈ s.map Row.serial, serial ∈ past)
    (distinct : (past ++ log.filterMap serialOf).Nodup) :
    Run (Guarded Roomy (Step app)) s log t := by
  induction run generalizing past with
  | refl s => exact .refl s
  | @next s u t exchange log step tail ih =>
    have effect := step_effect step
    have later := numbered.step effect
    cases effect with
    | none silent kept =>
      rw [List.filterMap_cons_none silent] at distinct
      exact .next ⟨.inl silent, step⟩ (ih later (kept.serials ▸ within) distinct)
    | issued record next known carries describes inserted =>
      rw [List.filterMap_cons_some carries] at distinct
      have fresh : record.serial ∉ past := by
        intro old
        exact (List.nodup_append.mp distinct).2.2 _ old _ List.mem_cons_self rfl
      have room : s.length < 10 := by
        by_contra full
        have full := Nat.le_antisymm numbered.few (Nat.le_of_not_lt full)
        exact fresh (within _ (numbered.full full next).1)
      obtain ⟨entered, -⟩ := numbered.room room next (numbered.known known)
      have covered : ∀ serial ∈ u.map Row.serial, serial ∈ past ++ [record.serial] := by
        rw [inserted, entered]
        intro serial member
        rw [List.map_append, List.mem_append] at member
        rcases member with old | new
        · exact List.mem_append_left _ (within serial old)
        · exact List.mem_append_right _ new
      refine .next ⟨.inr room, step⟩ (ih later covered ?_)
      simpa using distinct

/-- The tenth certificate is the last one with a serial and a record of its own. -/
theorem lossless_iff (run : Run (Step app) [] log t) :
    Lossless log t ↔ Run (Guarded Roomy (Step app)) [] log t := by
  have numbered : Numbered [] := ⟨rfl, by simp⟩
  constructor
  · intro lossless
    have none : ∀ serial ∈ ([] : Table).map Row.serial, serial ∈ [] := by simp
    exact run_guarded run numbered none lossless.fresh
  · intro guarded
    obtain ⟨later, serials⟩ := guarded_serials guarded numbered
    constructor
    · have same : log.filterMap serialOf = firstSerials.take t.length := by
        rw [← later.serials, serials]
        rfl
      rw [same]
      exact firstSerials_nodup.sublist (List.take_sublist _ _)
    · intro exchange member serial issued
      obtain ⟨row, held, rfl, describes⟩ :=
        guarded_stored guarded numbered exchange member serial issued
      exact held.describes describes

end

namespace Registrations

/-- A key whose signatures are all zero. -/
scoped instance scheme : Ed25519 :=
  .table ⟨List.replicate 32 0, List.length_replicate⟩ fun _ => none

scoped instance serde : Serde := .table []

def app : AppState where
  ca := { signingKey := () }
  caNid := "urn:nps:ca:example.org:root"

def subject (n : Nat) : Subject where
  nid := s!"urn:nps:agent:example.org:a{n}"
  entityType := "agent"
  pubKey := "ed25519:00"
  capabilities := []
  scope := []
  metadata := none

def request (n : Nat) : Request :=
  .registerAgent { nid := some (subject n).nid, pubKey := (subject n).pubKey }

def cert (n : Nat) (serial : String) : Fields :=
  issueCert () app.caNid (subject n).nid (subject n).pubKey [] [] 30 serial none 0

def record (n : Nat) (serial : String) : InsertRec where
  nid := (subject n).nid
  entityType := "agent"
  serial := serial
  pubKey := (subject n).pubKey
  capabilities := []
  scope := []
  issuedBy := app.caNid
  issuedAt := certText (cert n serial) "issued_at"
  expiresAt := certText (cert n serial) "expires_at"
  metadata := none

def response (n : Nat) (serial : String) : Response :=
  ⟨201, document [
    ("nid", .string (subject n).nid), ("serial", .string serial),
    ("issued_at", .string (certText (cert n serial) "issued_at")),
    ("expires_at", .string (certText (cert n serial) "expires_at")),
    ("ident_frame", .object (cert n serial))]⟩

theorem registers {n : Nat} {serial : String} {s : Table}
    (fresh : ∀ row ∈ s, ¬ CaDb.Active (subject n).nid row)
    (next : CaDb.nextSerial (s.map Row.serial) = some serial) :
    Step app s (request n, some (response n serial)) (CaDb.insert (record n serial) s).2 := by
  apply runs_getActive.mpr
  refine ⟨none, fresh, ?_⟩
  apply runs_nextSerial.mpr
  rw [next]
  apply runs_now.mpr
  refine ⟨0, ?_⟩
  apply runs_insert.mpr
  exact .done _ _

def serialAt (s : Table) : String := (CaDb.nextSerial (s.map Row.serial)).getD ""

def table : Nat → Table
  | 0 => []
  | n + 1 => (CaDb.insert (record n (serialAt (table n))) (table n)).2

def exchange (n : Nat) : Exchange := (request n, some (response n (serialAt (table n))))

theorem steps : ∀ n < 11, Step app (table n) (exchange n) (table (n + 1)) := by
  have ready : ∀ n < 11, (∀ row ∈ table n, ¬ CaDb.Active (subject n).nid row) ∧
      CaDb.nextSerial ((table n).map Row.serial) = some (serialAt (table n)) := by
    decide +kernel
  intro n below
  exact registers (ready n below).1 (ready n below).2

theorem lossless_ten : Lossless ((List.range 10).map exchange) (table 10) := by
  have run : Run (Step app) [] ((List.range 10).map exchange) (table 10) :=
    @Run.chain _ _ _ table exchange 10 fun n below => steps n (Nat.lt_succ_of_lt below)
  have room : ∀ n < 10, (table n).length < 10 := by decide +kernel
  apply (lossless_iff run).mpr
  exact @Run.chain _ _ _ table exchange 10 fun n below =>
    ⟨.inr (room n below), steps n (Nat.lt_succ_of_lt below)⟩

/-- The eleventh certificate has the serial of the tenth, and there is no row for it. -/
theorem eleventh_lost : Run (Step app) [] ((List.range 11).map exchange) (table 11) ∧
    ¬ Lossless ((List.range 11).map exchange) (table 11) ∧
    (response 10 (serialAt (table 10))).status = 201 ∧
    ∀ row ∈ table 11, row.nid ≠ (subject 10).nid := by
  refine ⟨@Run.chain _ _ _ table exchange 11 steps, ?_, rfl, by decide +kernel⟩
  intro lossless
  have repeated : ¬ (((List.range 11).map exchange).filterMap serialOf).Nodup := by
    decide +kernel
  exact repeated lossless.fresh

end Registrations
end Nps.CaServer
