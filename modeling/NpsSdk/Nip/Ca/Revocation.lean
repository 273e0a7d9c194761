import NpsSdk.Nip.Ca.World

/-! Revocation under interleaved calls. A revocation marks one record, the latest live one
of its NID, and a renewal saves another record some steps after it looked for a revocation;
what a revocation then lasts for depends on the records it left live. -/
namespace Nps.Nip.Ca
open Interaction Interaction.Prog Transition

namespace InMemoryNipCaStore

def Live (nid : String) (record : NipCertRecord) : Prop :=
  record.nid = nid ∧ record.revokedAt = none

instance (nid : String) (record : NipCertRecord) : Decidable (Live nid record) :=
  inferInstanceAs (Decidable (_ ∧ _))

def live (nid : String) (store : InMemoryNipCaStore) : List NipCertRecord :=
  store.records.filter fun record => decide (Live nid record)

def LatestRevoked (nid : String) (store : InMemoryNipCaStore) : Prop :=
  ∃ record, store.getByNid nid = some record ∧ record.revokedAt ≠ none

def mark (reason : String) (revokedAt : Instant) (record : NipCertRecord) : NipCertRecord :=
  { record with revokedAt := some revokedAt, revokeReason := some reason }

theorem markRevoked_split {nid reason : String} {revokedAt : Instant}
    {records marked : List NipCertRecord}
    (found : markRevoked nid reason revokedAt records = some marked) :
    ∃ before record after, records = before ++ record :: after ∧ (∀ r ∈ before, ¬ Live nid r) ∧
      Live nid record ∧ marked = before ++ mark reason revokedAt record :: after := by
  induction records generalizing marked with
  | nil => cases found
  | cons record rest ih =>
    simp only [markRevoked] at found
    split_ifs at found with first
    · cases found
      exact ⟨[], record, rest, rfl, by simp, first, rfl⟩
    · obtain ⟨others, tail, same⟩ := Option.map_eq_some_iff.mp found
      obtain ⟨before, live, after, rfl, dead, alive, rfl⟩ := ih tail
      exact ⟨record :: before, live, after, rfl, List.forall_mem_cons.mpr ⟨first, dead⟩, alive,
        same.symm⟩

section
variable {store : InMemoryNipCaStore} {nid other reason : String} {revokedAt : Instant}

theorem revoke_true (marked : (store.revoke nid reason revokedAt).1 = true) :
    ∃ before record after, store.records = before ++ record :: after ∧ Live nid record ∧
      (∀ r ∈ after, ¬ Live nid r) ∧
      (store.revoke nid reason revokedAt).2.records =
        before ++ mark reason revokedAt record :: after := by
  unfold revoke at marked ⊢
  cases found : markRevoked nid reason revokedAt store.records.reverse with
  | none => simp [found] at marked
  | some records =>
    obtain ⟨after, record, before, split, dead, alive, rfl⟩ := markRevoked_split found
    refine ⟨before.reverse, record, after.reverse, ?_, alive, by simpa using dead, by simp⟩
    rw [← store.records.reverse_reverse, split]
    simp

theorem revoke_false (missed : (store.revoke nid reason revokedAt).1 = false) :
    (store.revoke nid reason revokedAt).2 = store := by
  unfold revoke at missed ⊢
  split at missed
  · cases missed
  · rfl

theorem revoke_live (marked : (store.revoke nid reason revokedAt).1 = true) :
    live nid (store.revoke nid reason revokedAt).2 = (live nid store).dropLast := by
  obtain ⟨before, record, after, records, alive, dead, result⟩ := revoke_true marked
  have none : after.filter (fun r => decide (Live nid r)) = [] := by
    simpa using dead
  have marked : ¬ Live nid (mark reason revokedAt record) := by
    simp [Live, mark]
  simp only [live, records, result, List.filter_append, List.filter_cons, alive, marked, none,
    decide_true, decide_false, Bool.false_eq_true, if_true, if_false, List.append_nil,
    List.dropLast_concat]

theorem revoke_latest (marked : (store.revoke nid reason revokedAt).1 = true) :
    LatestRevoked nid (store.revoke nid reason revokedAt).2 := by
  obtain ⟨before, record, after, records, alive, dead, result⟩ := revoke_true marked
  unfold LatestRevoked getByNid
  rw [result]
  cases later : after.reverse.find? (·.nid == nid) with
  | none => exact ⟨mark reason revokedAt record, by simp [later, mark, alive.1], by simp [mark]⟩
  | some latest =>
    refine ⟨latest, by simp [later], fun live => ?_⟩
    have member : latest ∈ after := by simpa using List.mem_of_find?_eq_some later
    exact dead latest member ⟨by simpa using List.find?_some later, live⟩

theorem revoke_other (different : other ≠ nid) :
    live other (store.revoke nid reason revokedAt).2 = live other store ∧
      (store.revoke nid reason revokedAt).2.getByNid other = store.getByNid other := by
  cases marked : (store.revoke nid reason revokedAt).1 with
  | false => rw [revoke_false marked]; exact ⟨rfl, rfl⟩
  | true =>
    obtain ⟨before, record, after, records, alive, -, result⟩ := revoke_true marked
    have foreign : ¬ record.nid = other := fun same => different (same.symm.trans alive.1)
    constructor
    · simp [live, records, result, Live, mark, foreign]
    · simp [getByNid, records, result, mark, foreign]

end
end InMemoryNipCaStore
open InMemoryNipCaStore

def NipCertRecord.issued (record : NipCertRecord) : NipCertRecord :=
  { record with revokedAt := none, revokeReason := none }

def CaState.issued (s : CaState) : List NipCertRecord :=
  s.certs.records.map NipCertRecord.issued

theorem mem_issued {s : CaState} {record : NipCertRecord} (member : record ∈ s.certs.records) :
    record.issued ∈ s.issued :=
  List.mem_map_of_mem member

section
variable [Sha256] {s t : CaState} {op : CaOp} {answer : op.Answer}

theorem exec_issued (step : exec op s answer t) :
    t.issued = s.issued ++ (saved op answer).map NipCertRecord.issued := by
  by_cases revokes : ∃ nid reason revokedAt, op = .revoke nid reason revokedAt
  · obtain ⟨nid, reason, revokedAt, rfl⟩ := revokes
    obtain ⟨-, rfl⟩ := step
    unfold CaState.issued
    cases marked : (s.certs.revoke nid reason revokedAt).1 with
    | false =>
      dsimp only
      rw [revoke_false marked]
      exact (List.append_nil _).symm
    | true =>
      obtain ⟨before, record, after, records, -, -, result⟩ := revoke_true marked
      dsimp only
      rw [result, records, List.map_append, List.map_append, List.map_cons, List.map_cons]
      exact (List.append_nil _).symm
  · rw [CaState.issued, exec_records (fun nid reason revokedAt same =>
      revokes ⟨nid, reason, revokedAt, same⟩) step, List.map_append]
    rfl

/-- A revoked NID stays revoked as long as nothing is saved under it. -/
theorem InMemoryNipCaStore.LatestRevoked.kept {nid : String} (revoked : LatestRevoked nid s.certs)
    (spared : ∀ record ∈ saved op answer, record.nid ≠ nid) (step : exec op s answer t) :
    LatestRevoked nid t.certs := by
  by_cases revokes : ∃ target reason revokedAt, op = .revoke target reason revokedAt
  · obtain ⟨target, reason, revokedAt, rfl⟩ := revokes
    obtain ⟨-, rfl⟩ := step
    cases marked : (s.certs.revoke target reason revokedAt).1 with
    | false =>
      dsimp only
      rwa [revoke_false marked]
    | true =>
      by_cases same : nid = target
      · subst same
        exact revoke_latest marked
      · have found : (s.certs.revoke target reason revokedAt).2.getByNid nid = s.certs.getByNid nid :=
          (revoke_other same).2
        unfold LatestRevoked
        rwa [found]
  · obtain ⟨record, found, marked⟩ := revoked
    have records := exec_records (fun target reason revokedAt same =>
      revokes ⟨target, reason, revokedAt, same⟩) step
    refine ⟨record, ?_, marked⟩
    have none : ((saved op answer).reverse.find? (·.nid == nid)) = none := by
      simpa using spared
    unfold getByNid at found ⊢
    rw [records, List.reverse_append, List.find?_append, none, found]
    rfl

end

inductive Call where
  | issue (call : IssuingCall)
  | revoke (nid reason : String)

inductive Reply where
  | issued (result : Except NipCaError IdentFrame)
  | revoked (result : Except NipCaError RevokeFrame)

abbrev CaPool := Pool CaOp.Answer CaState Call Reply

/-- No call is between its look-up of the NID and its save. -/
def Quiet (nid : String) (pool : CaPool) : Prop :=
  ∀ (i : Nat) call p, pool.threads[i]? = some (.issue call, p) → call.Looks → ¬ Claims nid p

/-- The latest record is revoked, those still live have expired, and no call may add another. -/
structure Withdrawn (nid : String) (pool : CaPool) : Prop where
  latest : LatestRevoked nid pool.shared.certs
  expired : ∀ record ∈ live nid pool.shared.certs, record.expiresAt < pool.shared.clock
  quiet : Quiet nid pool

/-- A call that marks a record of the NID that it revokes comes between no other call's look-up of
that NID and its save, and finds at most the latest live record unexpired; and a session, whose NID
is random, is not saved under a revoked NID. -/
def Orderly (pool : CaPool) : Event CaOp.Answer Call → Prop
  | .act i (.revoke nid _ _) _ => live nid pool.shared.certs ≠ [] →
      (∃ reason p, pool.threads[i]? = some (.revoke nid reason, p)) → Quiet nid pool ∧
        ∀ record ∈ (live nid pool.shared.certs).dropLast, record.expiresAt < pool.shared.clock
  | .act i (.save record) _ =>
      (∃ groupNid key params p,
        pool.threads[i]? = some (.issue (.issueSession groupNid key params), p)) →
      ¬ LatestRevoked record.nid pool.shared.certs
  | _ => True

section
variable [Sha256]

/-- What is live of a NID stays expired as long as nothing is saved under it. -/
theorem expired_kept {nid : String} {s t : CaState} {op : CaOp} {answer : op.Answer}
    (expired : ∀ record ∈ live nid s.certs, record.expiresAt < s.clock)
    (spared : ∀ record ∈ saved op answer, record.nid ≠ nid) (step : exec op s answer t) :
    ∀ record ∈ live nid t.certs, record.expiresAt < t.clock := by
  cases op with
  | save record =>
    obtain ⟨same, rfl⟩ := step
    cases answer with
    | error e =>
      dsimp only
      rwa [save_error same.symm]
    | ok u =>
      have different : record.nid ≠ nid := spared record (List.mem_singleton_self _)
      simpa [live, save_ok same.symm, Live, different] using expired
  | revoke target reason revokedAt =>
    obtain ⟨rfl, rfl⟩ := step
    by_cases same : nid = target
    · subst same
      cases marked : (s.certs.revoke nid reason revokedAt).1 with
      | false =>
        dsimp only
        rwa [revoke_false marked]
      | true =>
        intro record member
        rw [revoke_live marked] at member
        exact expired record (List.dropLast_subset _ member)
    · have others : live nid (s.certs.revoke target reason revokedAt).2 = live nid s.certs :=
        (revoke_other same).1
      dsimp only
      rwa [others]
  | now =>
    obtain ⟨later, rfl⟩ := step
    exact fun record member => lt_of_lt_of_le (expired record member) later
  | createToken label expiresAt =>
    obtain ⟨-, -, now, later, -, rfl⟩ := step
    exact fun record member => lt_of_lt_of_le (expired record member) later
  | validateAndConsume token =>
    obtain ⟨now, later, -, rfl⟩ := step
    exact fun record member => lt_of_lt_of_le (expired record member) later
  | randomBytes | enqueue => cases step; exact expired
  | _ => obtain ⟨-, rfl⟩ := step; exact expired

def Stored (frame : IdentFrame) (s : CaState) : Prop :=
  ∃ record ∈ s.certs.records, record.nid = frame.nid ∧ frame.serial = some record.serial

omit [Sha256] in
theorem stored_iff {frame : IdentFrame} {s : CaState} :
    Stored frame s ↔ ∃ record ∈ s.issued, record.nid = frame.nid ∧ frame.serial = some record.serial := by
  constructor
  · rintro ⟨record, member, nid, serial⟩
    exact ⟨record.issued, mem_issued member, nid, serial⟩
  · rintro ⟨issued, member, nid, serial⟩
    obtain ⟨record, stored, rfl⟩ := List.mem_map.mp member
    exact ⟨record, stored, nid, serial⟩

theorem Stored.kept {frame : IdentFrame} {s t : CaState} {op : CaOp} {answer : op.Answer}
    (stored : Stored frame s) (step : exec op s answer t) : Stored frame t := by
  obtain ⟨record, member, same⟩ := stored_iff.mp stored
  refine stored_iff.mpr ⟨record, ?_, same⟩
  rw [exec_issued step]
  exact List.mem_append_left _ member

theorem Withdrawn.not_valid [TimeText] {nid : String} {pool : CaPool} {t : CaState}
    (withdrawn : Withdrawn nid pool) {result : NipVerifyResult}
    (runs : Runs exec (NipCaService.verify nid) pool.shared result t) : result.valid = false := by
  obtain ⟨record, found, revoked⟩ := withdrawn.latest
  obtain ⟨answer, s', ⟨rfl, rfl⟩, runs⟩ := runs_call.mp runs
  rw [found] at runs
  cases mark : record.revokedAt with
  | none => exact absurd mark revoked
  | some revokedAt =>
    obtain ⟨number, serial⟩ := record
    cases mark
    obtain ⟨rfl, -⟩ := runs_done.mp runs
    rfl

theorem Withdrawn.listed {nid : String} {pool : CaPool} {t : CaState}
    (withdrawn : Withdrawn nid pool) {crl : List NipCertRecord}
    (runs : Runs exec NipCaService.getCrl pool.shared crl t) :
    ∀ record ∈ pool.shared.certs.records, record.nid = nid → pool.shared.clock ≤ record.expiresAt →
      record ∈ crl := by
  intro record member same unexpired
  obtain ⟨answer, s', ⟨rfl, rfl⟩, runs⟩ := runs_call.mp runs
  obtain ⟨rfl, -⟩ := runs_done.mp runs
  refine List.mem_filter.mpr ⟨member, ?_⟩
  by_contra live
  have live : record.revokedAt = none := by simpa [NipCertRecord.isRevoked] using live
  have expired := withdrawn.expired record (List.mem_filter.mpr ⟨member, decide_eq_true ⟨same, live⟩⟩)
  exact absurd unexpired (not_le.mpr expired)

end

def Marks (nid : String) : (op : CaOp) → op.Answer → Reply → Prop
  | .revoke target _ _, answer, _ => target = nid ∧ answer = true
  | _, _, _ => False

def IsRevocation (reply : Reply) : Prop := ∃ frame, reply = .revoked (.ok frame)

section
variable [Ed25519] [Serde] [TimeText] [X509.CertificateLibrary] (ca : NipCaService)

def Call.program : Call → CaProg Reply
  | .issue issuing => (issuing.program ca).map .issued
  | .revoke nid reason => (ca.revoke nid reason).map .revoked

theorem revoke_owes (nid reason : String) :
    Owes (Marks nid) (fun reply => ¬ IsRevocation reply) (Call.program ca (.revoke nid reason)) := by
  have failed (e : NipCaError) : ¬ IsRevocation (.revoked (.error e)) := by
    rintro ⟨frame, same⟩
    cases same
  intro existing
  cases existing with
  | none => exact .inl (failed _)
  | some record =>
    intro now marked
    cases marked with
    | false => exact .inl (.inl (.inl (failed _)))
    | true => exact .of_free (fun _ => .inr ⟨rfl, rfl⟩) _

omit [Ed25519] [Serde] [TimeText] [X509.CertificateLibrary] in
theorem saves_nothing_revokeChildren (now : Instant) (children : List NipCertRecord) :
    Only (fun op => ∀ record, op ≠ .save record) (NipCaService.revokeChildren now children) := by
  induction children with
  | nil => trivial
  | cons child rest ih =>
    unfold NipCaService.revokeChildren
    split
    · exact ih
    · exact .ask (fun _ same => by cases same) fun _ => ih

omit [Serde] [X509.CertificateLibrary] in
theorem saves_nothing_revoke (nid reason : String) :
    Only (fun op => ∀ record, op ≠ .save record) (ca.revoke nid reason) := by
  refine .ask (fun _ same => by cases same) fun record => ?_
  split
  · trivial
  refine .ask (fun _ same => by cases same) fun now => .ask (fun _ same => by cases same) fun marked => ?_
  split
  · refine .bind ?_ fun _ => trivial
    unfold NipCaService.cascade
    split
    · exact .ask (fun _ same => by cases same) fun children => saves_nothing_revokeChildren now children
    · trivial
  · trivial

end

section
variable [Ed25519] [Serde] (ca : NipCaService)

def Holding (s : CaState) : Call → CaProg Reply → Prop
  | .issue issuing, p => (∃ reply, p = .done reply) ∨ ∃ seen q, p = q.map .issued ∧
      SavesLast ca (issuing.MaySave ca) seen q ∧
      ∀ nid record, seen = some (nid, some record) → record.nid = nid ∧ record.issued ∈ s.issued
  | .revoke _ _, p => Only (fun op => ∀ record, op ≠ .save record) p

theorem holding_program [TimeText] [X509.CertificateLibrary] (s : CaState) (caller : Call) :
    Holding ca s caller (Call.program ca caller) := by
  cases caller with
  | revoke nid reason => exact (saves_nothing_revoke ca nid reason).map
  | issue call => exact .inr ⟨none, _, rfl, call.savesLast ca, fun _ _ same => by cases same⟩

variable {ca} {s t : CaState} {caller : Call} {op : CaOp} {answer : op.Answer}

theorem Holding.waits [Sha256] {p : CaProg Reply} (holding : Holding ca s caller p)
    (step : exec op s answer t) : Holding ca t caller p := by
  cases caller with
  | revoke nid reason => exact holding
  | issue call =>
    refine holding.imp_right ?_
    rintro ⟨seen, q, same, saves, known⟩
    refine ⟨seen, q, same, saves, fun nid record here => ?_⟩
    obtain ⟨named, issued⟩ := known nid record here
    rw [exec_issued step]
    exact ⟨named, List.mem_append_left _ issued⟩

theorem Holding.acts [Sha256] {next : op.Answer → CaProg Reply}
    (holding : Holding ca s caller (.call op next)) (step : exec op s answer t) :
    Holding ca t caller (next answer) := by
  cases caller with
  | revoke nid reason => exact holding.2 answer
  | issue call =>
    rcases holding with ⟨reply, finished⟩ | ⟨seen, q, same, saves, known⟩
    · cases finished
    cases q with
    | done result => cases same
    | call op next =>
      cases same
      have kept : ∀ nid record, seen = some (nid, some record) →
          record.nid = nid ∧ record.issued ∈ t.issued := by
        intro nid record here
        obtain ⟨named, issued⟩ := known nid record here
        rw [exec_issued step]
        exact ⟨named, List.mem_append_left _ issued⟩
      cases op with
      | save record =>
        obtain ⟨result, last⟩ := saves.ends answer
        exact .inl ⟨_, congrArg (Prog.map Reply.issued) last⟩
      | getByNid nid =>
        obtain ⟨rfl, rfl⟩ := step
        refine .inr ⟨_, _, rfl, saves.2 _, fun nid record here => ?_⟩
        have pairs := Prod.mk.inj (Option.some.inj here)
        obtain ⟨member, named⟩ := getByNid_some pairs.2
        rw [pairs.1] at named
        exact ⟨named, mem_issued member⟩
      | _ => exact .inr ⟨seen, _, rfl, saves.2 answer, kept⟩

theorem Holding.saves {record : NipCertRecord} {next : Except StoreError Unit → CaProg Reply}
    (holding : Holding ca s caller (.call (.save record) next)) :
    ∃ call seen, caller = .issue call ∧ call.MaySave ca seen record ∧
      ∀ nid record, seen = some (nid, some record) → record.nid = nid ∧ record.issued ∈ s.issued := by
  cases caller with
  | revoke nid reason => exact absurd rfl (holding.1 record)
  | issue call =>
    rcases holding with ⟨reply, finished⟩ | ⟨seen, q, same, saves, known⟩
    · cases finished
    cases q with
    | done result => cases same
    | call op next =>
      cases same
      exact ⟨call, seen, rfl, saves.1, known⟩

theorem Holding.found {call : IssuingCall} {nid : String} {found : Option NipCertRecord}
    {next : Option NipCertRecord → CaProg Reply}
    (holding : Holding ca s (.issue call) (.call (.getByNid nid) next)) (looks : call.Looks)
    (claims : Claims nid (next found)) : ∀ record, found = some record → record.revokedAt = none := by
  rcases holding with ⟨reply, finished⟩ | ⟨seen, q, same, saves, -⟩
  · cases finished
  cases q with
  | done result => cases same
  | call op next =>
    cases same
    obtain ⟨found, -, same, -, live⟩ :=
      IssuingCall.claims looks (saves.2 found) (claims_map.mp claims)
    cases same
    exact live

/-- A frame is returned for the record that was just saved. -/
theorem Holding.frame [Sha256] {call : IssuingCall} {next : op.Answer → CaProg Reply}
    {frame : IdentFrame} (holding : Holding ca s (.issue call) (.call op next))
    (last : next answer = .done (.issued (.ok frame))) (step : exec op s answer t) :
    ∃ seen record, call.MaySave ca seen record ∧ Claims record.nid (.call op next) ∧
      frame.nid = record.nid ∧ Stored frame t := by
  rcases holding with ⟨reply, finished⟩ | ⟨seen, q, same, saves, -⟩
  · cases finished
  cases q with
  | done result => cases same
  | call op next =>
    cases same
    have last : (next answer).map Reply.issued = .done (.issued (.ok frame)) := last
    cases rest : next answer with
    | call op' next' =>
      rw [rest] at last
      cases last
    | done result =>
      rw [rest] at last
      cases last
      cases op with
      | save record =>
        obtain ⟨may, ⟨frame', taken, nid, serial, -⟩, refused⟩ := saves
        cases answer with
        | error e =>
          obtain ⟨e', error⟩ := refused e
          cases rest.symm.trans error
        | ok =>
          cases rest.symm.trans taken
          obtain ⟨accepted, rfl⟩ := step
          refine ⟨seen, record, may, .inl ⟨record, rfl, rfl⟩, nid, record, ?_, nid.symm, serial⟩
          rw [save_ok accepted.symm]
          exact List.mem_append_right _ (List.mem_singleton_self _)
      | _ =>
        have none := saves.2 answer
        rw [rest] at none
        exact absurd ⟨frame, rfl⟩ none

end

section
variable [Ed25519] [Serde] [TimeText] [X509.CertificateLibrary] (ca : NipCaService)

theorem issue_ne_frame (call : IssuingCall) (frame : IdentFrame) :
    Call.program ca (.issue call) ≠ .done (.issued (.ok frame)) := by
  intro same
  have saves := call.savesLast ca
  change (call.program ca).map Reply.issued = _ at same
  cases program : call.program ca with
  | call op next =>
    rw [program] at same
    cases same
  | done result =>
    rw [program] at same saves
    cases same
    exact saves ⟨frame, rfl⟩

variable [Sha256]

def system : System CaOp.Answer CaState Call Reply where
  program := Call.program ca
  exec := exec

abbrev OrderlyStep := Guarded Orderly (system ca).Step

def Calls (pool : CaPool) : Prop :=
  ∀ (i : Nat) caller p, pool.threads[i]? = some (caller, p) → Holding ca pool.shared caller p

variable {ca} {pool after : CaPool} {event : Event CaOp.Answer Call} {nid : String}

theorem Calls.step (calls : Calls ca pool) (step : (system ca).Step pool event after) :
    Calls ca after := by
  intro i caller p found
  rcases step.threadAt found with old | ⟨op, next, answer, -, acted, exec, rfl⟩ | ⟨-, rfl⟩
  · cases step with
    | start call => exact calls i caller p old
    | act acted exec => exact (calls i caller p old).waits exec
  · exact (calls i caller _ acted).acts exec
  · exact holding_program ca _ caller

theorem Withdrawn.step (withdrawn : Withdrawn nid pool) (calls : Calls ca pool)
    (step : OrderlyStep ca pool event after) : Withdrawn nid after := by
  obtain ⟨orderly, step⟩ := step
  cases step with
  | start call =>
    refine ⟨withdrawn.latest, withdrawn.expired, fun i call p found looks claims => ?_⟩
    rcases getElem?_concat found with old | ⟨-, same⟩
    · exact withdrawn.quiet i call p old looks claims
    · cases same
      obtain ⟨found, -, none, -⟩ := IssuingCall.claims looks (call.savesLast ca) (claims_map.mp claims)
      cases none
  | @act thread caller op next answer shared acted exec =>
    have spared : ∀ record ∈ saved op answer, record.nid ≠ nid := by
      intro record member
      cases op with
      | save added =>
        cases answer with
        | error e => cases member
        | ok =>
          cases List.mem_singleton.mp member
          rintro rfl
          obtain ⟨call, seen, rfl, -⟩ := (calls _ _ _ acted).saves
          cases call with
          | issueSession groupNid key params =>
            exact orderly ⟨groupNid, key, params, _, acted⟩ withdrawn.latest
          | _ => exact withdrawn.quiet _ _ _ acted trivial (.inl ⟨record, rfl, rfl⟩)
      | _ => cases member
    refine ⟨withdrawn.latest.kept spared exec, expired_kept withdrawn.expired spared exec, ?_⟩
    intro i call p found looks claims
    rcases getElem?_set_append found with ⟨-, old⟩ | ⟨rfl, same⟩ | ⟨-, -, new⟩
    · exact withdrawn.quiet i call p old looks claims
    · cases same
      by_cases asks : op = .getByNid nid
      · subst asks
        obtain ⟨record, here, revoked⟩ := withdrawn.latest
        exact revoked ((calls _ _ _ acted).found looks claims record (exec.1.trans here))
      · exact withdrawn.quiet _ _ _ acted looks (claims.of_next asks)
    · cases new

/-- The call's own mark withdraws its NID. -/
theorem withdrawn_of_mark {i : Nat} {reason reason' : String} {revokedAt : Instant} {p : CaProg Reply}
    (acted : pool.threads[i]? = some (.revoke nid reason, p))
    (step : OrderlyStep ca pool (.act i (.revoke nid reason' revokedAt) true) after) :
    Withdrawn nid after := by
  obtain ⟨orderly, step⟩ := step
  cases step with
  | @act _ caller op next _ shared found exec =>
    obtain ⟨marked, rfl⟩ := exec
    have alive : live nid pool.shared.certs ≠ [] := by
      obtain ⟨before, record, after, records, alive, -⟩ := revoke_true marked.symm
      refine List.ne_nil_of_mem (List.mem_filter.mpr ⟨?_, decide_eq_true alive⟩)
      rw [records]
      exact List.mem_append_right _ List.mem_cons_self
    obtain ⟨quiet, expired⟩ := orderly alive ⟨reason, p, acted⟩
    refine ⟨revoke_latest marked.symm, fun record member => ?_, fun j call q there => ?_⟩
    · dsimp only at member
      rw [revoke_live marked.symm] at member
      exact expired record member
    · rcases getElem?_set_append there with ⟨-, old⟩ | ⟨rfl, same⟩ | ⟨-, -, new⟩
      · exact quiet j call q old
      · cases same
        cases acted.symm.trans found
      · cases new

/-- What the calls that revoke have brought about or still have to, and what those that issue have
stored. -/
structure Revoking (ca : NipCaService) (pool : CaPool) : Prop where
  calls : Calls ca pool
  revoked : ∀ (i : Nat) nid reason p, pool.threads[i]? = some (.revoke nid reason, p) →
    Withdrawn nid pool ∨ Owes (Marks nid) (fun reply => ¬ IsRevocation reply) p
  stored : ∀ (i : Nat) call frame,
    pool.threads[i]? = some (.issue call, .done (.issued (.ok frame))) → Stored frame pool.shared

theorem Revoking.step (revoking : Revoking ca pool) (step : OrderlyStep ca pool event after) :
    Revoking ca after := by
  refine ⟨revoking.calls.step step.2, fun i nid reason p found => ?_, fun i call frame found => ?_⟩
  · rcases step.2.threadAt found with old | ⟨op, next, answer, rfl, acted, exec, rfl⟩ | ⟨-, rfl⟩
    · exact (revoking.revoked i nid reason p old).imp_left fun withdrawn =>
        withdrawn.step revoking.calls step
    · rcases revoking.revoked i nid reason _ acted with withdrawn | owes
      · exact .inl (withdrawn.step revoking.calls step)
      by_cases marks : ∃ reply, Marks nid op answer reply
      · left
        obtain ⟨reply, marks⟩ := marks
        cases op <;> try exact marks.elim
        case revoke target reason' revokedAt =>
          obtain ⟨rfl, rfl⟩ := marks
          exact withdrawn_of_mark acted step
      · right
        refine (owes answer).mono ?_
        rintro reply (unpaid | paid)
        · exact unpaid
        · exact absurd ⟨reply, paid⟩ marks
    · exact .inr (revoke_owes ca nid reason)
  · rcases step.2.threadAt found with old | ⟨op, next, answer, rfl, acted, exec, last⟩ | ⟨-, fresh⟩
    · have before := revoking.stored i call frame old
      obtain ⟨-, step⟩ := step
      cases step with
      | start call => exact before
      | act acted exec => exact before.kept exec
    · obtain ⟨-, -, -, -, -, stored⟩ := (revoking.calls i _ _ acted).frame last.symm exec
      exact stored
    · exact absurd fresh.symm (issue_ne_frame ca call frame)

/-- From the state of `t` on, up to `u`: the NID does not verify, no renewal of it returns a
frame, its unexpired serials are all on the revocation list, and issued frames have records. -/
structure Permanent (nid : String) (t u : CaPool) : Prop where
  notValid : ∀ result s, Runs exec (NipCaService.verify nid) u.shared result s → result.valid = false
  noRenewal : ∀ (i : Nat) frame,
    u.threads[i]? = some (.issue (.renew nid), .done (.issued (.ok frame))) →
    t.threads[i]? = some (.issue (.renew nid), .done (.issued (.ok frame)))
  listed : ∀ crl s, Runs exec NipCaService.getCrl u.shared crl s →
    ∀ record ∈ u.shared.certs.records, record.nid = nid → u.shared.clock ≤ record.expiresAt →
    record ∈ crl
  recorded : ∀ call frame, (.issue call, .done (.issued (.ok frame))) ∈ u.threads →
    Stored frame u.shared

structure Renewing (nid : String) (t u : CaPool) : Prop where
  withdrawn : Withdrawn nid u
  frames : ∀ (i : Nat) frame,
    u.threads[i]? = some (.issue (.renew nid), .done (.issued (.ok frame))) →
    t.threads[i]? = some (.issue (.renew nid), .done (.issued (.ok frame)))

theorem Renewing.step {t : CaPool} (renewing : Renewing nid t pool) (calls : Calls ca pool)
    (step : OrderlyStep ca pool event after) : Renewing nid t after := by
  refine ⟨renewing.withdrawn.step calls step, fun i frame found => ?_⟩
  rcases step.2.threadAt found with old | ⟨op, next, answer, rfl, acted, exec, last⟩ | ⟨-, fresh⟩
  · exact renewing.frames i frame old
  · -- the frame would need a save under the withdrawn NID
    obtain ⟨seen, record, ⟨old, -, -, named, -⟩, claims, -⟩ :=
      (calls i _ _ acted).frame last.symm exec
    exact absurd (named ▸ claims) (renewing.withdrawn.quiet i _ _ acted trivial)
  · exact absurd fresh.symm (issue_ne_frame ca _ frame)

/-- In an orderly run, a revocation that has returned is permanent. -/
theorem revocation_permanent {start : CaState} {t u : CaPool}
    {before after : List (Event CaOp.Answer Call)}
    (reached : Run (OrderlyStep ca) ⟨start, []⟩ before t) {nid reason : String} {frame : RevokeFrame}
    (returned : (.revoke nid reason, .done (.revoked (.ok frame))) ∈ t.threads)
    (continued : Run (OrderlyStep ca) t after u) : Permanent nid t u := by
  obtain ⟨i, position⟩ := List.mem_iff_getElem?.mp returned
  have initial : Revoking ca ⟨start, []⟩ := by
    refine ⟨?_, ?_, ?_⟩
    · intro i caller p found
      cases found
    · intro i nid reason p found
      cases found
    · intro i call frame found
      cases found
  have revoking : Revoking ca t := reached.invariant (fun holds step => holds.step step) initial
  have withdrawn : Withdrawn nid t := by
    rcases revoking.revoked i _ _ _ position with withdrawn | owes
    · exact withdrawn
    · exact absurd ⟨frame, rfl⟩ owes
  obtain ⟨later, renewing⟩ : Revoking ca u ∧ Renewing nid t u :=
    continued.invariant (P := fun pool => Revoking ca pool ∧ Renewing nid t pool)
      (fun holds step => ⟨holds.1.step step, holds.2.step holds.1.calls step⟩)
      ⟨revoking, withdrawn, fun _ _ => id⟩
  refine ⟨fun result s => renewing.withdrawn.not_valid, renewing.frames,
    fun crl s => renewing.withdrawn.listed, fun call frame member => ?_⟩
  obtain ⟨j, found⟩ := List.mem_iff_getElem?.mp member
  exact later.stored j call frame found

end

namespace Renewed
open Sample

def record : NipCertRecord where
  nid := nid
  entityType := "agent"
  serial := "0x1"
  pubKey := ca.getCaPublicKey
  capabilities := ["nwp:query"]
  scopeJson := "\x7b\x7d"
  issuedBy := ca.opts.caNid
  issuedAt := 0
  expiresAt := Duration.days 30

def renewal : Call := .issue (.renew nid)

def revocation : Call := .revoke nid "key_compromise"

def played (day : Int) (moves : List (Move Call)) (pool : CaPool) :
    List (Event CaOp.Answer Call) × CaPool :=
  (system ca).play (handler (Duration.days day)) moves pool

theorem run_played (day : Int) (moves : List (Move Call)) (pool : CaPool) :
    Run (system ca).Step pool (played day moves pool).1 (played day moves pool).2 :=
  System.run_play (handler_faithful _) moves pool

def registered : CaPool := (played 0 [.start (.issue registration), .run 0 4] ⟨{}, []⟩).2
def renewed : CaPool := (played 25 [.start renewal, .run 1 4] registered).2

def early : CaPool := (played 25 [.start revocation, .run 2 3] renewed).2

theorem early_reply : ∃ frame, (revocation, .done (.revoked (.ok frame))) ∈ early.threads :=
  ⟨_, List.mem_of_getElem? (rfl : early.threads[2]? = _)⟩

/-- The first certificate is unexpired when the revocation has returned, and not on the list. -/
theorem renewed_unlisted : ∃ (u : CaPool) (events : List (Event CaOp.Answer Call))
    (frame : RevokeFrame), Run (system ca).Step ⟨{}, []⟩ events u ∧
      (revocation, .done (.revoked (.ok frame))) ∈ u.threads ∧ ¬ Permanent nid u u := by
  obtain ⟨frame, reply⟩ := early_reply
  refine ⟨early, _, frame, ((run_played 0 _ _).trans (run_played 25 _ _)).trans (run_played 25 _ _),
    reply, fun permanent => ?_⟩
  have crl : Runs exec NipCaService.getCrl early.shared early.shared.certs.getRevoked early.shared :=
    .call ⟨rfl, rfl⟩ (.done _ _)
  have listed := permanent.listed _ _ crl record
  exact absurd (listed (by decide +kernel) rfl (by decide +kernel)) (by decide +kernel)

def other : Call := .issue (.register "agent" "a2" "ed25519:other" ["nwp:query"] "\x7b\x7d" none)
def waiting : CaPool := (played 25 [.start other, .run 2 2] renewed).2

/-- Revoked when the first certificate has expired. -/
def withdrawal : List (Move Call) := [.start revocation, .run 3 3]
def withdrawn : CaPool := (played 31 withdrawal waiting).2

/-- The other registration saves; a renewal and a registration are refused; what is left is revoked. -/
def continuation : List (Move Call) :=
  [.run 2 2, .start renewal, .run 4 4, .start (.issue registration), .run 5 4, .start revocation,
    .run 6 3]
def final : CaPool := (played 31 continuation withdrawn).2

def spares (nid : String) : Call × CaProg Reply → Bool
  | (.issue (.register entityType identifier _ _ _ _), .call _ _) =>
    ca.buildNid entityType identifier != nid
  | (.issue _, .call _ _) => false
  | _ => true

def orderly (pool : CaPool) : Event CaOp.Answer Call → Bool
  | .act _ (.revoke nid _ _) _ => pool.threads.all (spares nid) &&
      (live nid pool.shared.certs).dropLast.all fun record =>
        decide (record.expiresAt < pool.shared.clock)
  | .act i (.save _) _ => match pool.threads[i]? with
    | some (.issue (.issueSession _ _ _), _) => false
    | _ => true
  | _ => true

theorem quiet_of_spares {pool : CaPool} {nid : String} (calls : Calls ca pool)
    (spared : pool.threads.all (spares nid) = true) : Quiet nid pool := by
  intro i call p found looks claims
  have spares := List.all_eq_true.mp spared _ (List.mem_of_getElem? found)
  rcases calls i _ p found with ⟨reply, rfl⟩ | ⟨seen, q, rfl, saves, -⟩
  · exact claims
  cases q with
  | done result => exact claims
  | call op next =>
    cases call with
    | register =>
      obtain ⟨last, record, may, same, -⟩ := saves.claims (claims_map.mp claims)
      exact bne_iff_ne.mp spares (may.2.nid.symm.trans same)
    | _ => cases spares

theorem orderly_sound {pool : CaPool} {event : Event CaOp.Answer Call} (calls : Calls ca pool)
    (met : orderly pool event = true) : Orderly pool event := by
  cases event with
  | start call => trivial
  | act i op answer =>
    cases op <;> try trivial
    case revoke nid reason revokedAt =>
      obtain ⟨spared, expired⟩ := Bool.and_eq_true_iff.mp met
      refine fun _ _ => ⟨quiet_of_spares calls spared, fun record member => ?_⟩
      exact of_decide_eq_true (List.all_eq_true.mp expired record member)
    case save record =>
      rintro ⟨groupNid, key, params, p, found⟩
      simp [orderly, found] at met

theorem run_orderly {day : Int} {moves : List (Move Call)} {pool : CaPool} (calls : Calls ca pool)
    (met : (system ca).playMeets (handler (Duration.days day)) orderly moves pool = true) :
    Run (OrderlyStep ca) pool (played day moves pool).1 (played day moves pool).2 := by
  have sound (pool : CaPool) (event : Event CaOp.Answer Call) (met : orderly pool event = true) :
      orderly pool event = true := met
  have checked : Run (Guarded (fun pool event => orderly pool event = true) (system ca).Step) pool
      (played day moves pool).1 (played day moves pool).2 :=
    System.run_play_guarded (handler_faithful _) sound moves pool met
  exact checked.mono_of (fun calls step => Calls.step calls step.2)
    (fun calls step => ⟨orderly_sound calls step.1, step.2⟩) calls

theorem withdrawn_reply : ∃ frame, (revocation, .done (.revoked (.ok frame))) ∈ withdrawn.threads :=
  ⟨_, List.mem_of_getElem? (rfl : withdrawn.threads[3]? = _)⟩

/-- Both certificates are revoked in the end, and the other one stands. -/
theorem final_records : final.shared.certs.records.map (fun record => (record.nid, record.isRevoked)) =
    [(nid, true), (nid, true), ("urn:nps:agent:example.org:a2", false)] := by
  decide +kernel

theorem revocation_permanent_renewed : Permanent nid withdrawn final ∧
    final.shared.certs.records.map (fun record => (record.nid, record.isRevoked)) =
      [(nid, true), (nid, true), ("urn:nps:agent:example.org:a2", false)] := by
  have idle : Calls ca ⟨{}, []⟩ := by
    intro i caller p found
    cases found
  have kept {pool after : CaPool} {events : List (Event CaOp.Answer Call)} (calls : Calls ca pool)
      (run : Run (OrderlyStep ca) pool events after) : Calls ca after :=
    run.invariant (fun calls step => Calls.step calls step.2) calls
  have first := run_orderly idle (by decide +kernel :
    (system ca).playMeets (handler (Duration.days 0)) orderly
      [.start (.issue registration), .run 0 4] ⟨{}, []⟩ = true)
  have second := run_orderly (kept idle first) (by decide +kernel :
    (system ca).playMeets (handler (Duration.days 25)) orderly
      [.start renewal, .run 1 4] registered = true)
  have third := run_orderly (kept idle (first.trans second)) (by decide +kernel :
    (system ca).playMeets (handler (Duration.days 25)) orderly [.start other, .run 2 2] renewed = true)
  have reached := (first.trans second).trans third
  have revoked := run_orderly (kept idle reached) (by decide +kernel :
    (system ca).playMeets (handler (Duration.days 31)) orderly withdrawal waiting = true)
  have continued := run_orderly (kept idle (reached.trans revoked)) (by decide +kernel :
    (system ca).playMeets (handler (Duration.days 31)) orderly continuation withdrawn = true)
  obtain ⟨frame, reply⟩ := withdrawn_reply
  exact ⟨revocation_permanent (reached.trans revoked) reply continued, final_records⟩

end Renewed
end Nps.Nip.Ca
