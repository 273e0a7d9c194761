import NpsSdk.Nip.Ca.Revocation
import NpsSdk.Nip.Verifier

/-! Sessions within their groups. A session is issued for no more than its group has, but a renewal
knows nothing of groups: what it saves under a session NID stands on its own. -/
namespace Nps.Nip.Ca
open Interaction Interaction.Prog Transition InMemoryNipCaStore Json

structure ScopeReading where
  within : String → String → Prop
  refl : ∀ scope, within scope scope

/-- Read as the paths that the verifier lets through. -/
def ScopeReading.paths [Serde] : ScopeReading where
  within scope other := ∀ path, permits scope path → permits other path
  refl _ _ := id
where
  permits (scope path : String) : Prop :=
    ∃ value, Serde.fromStr scope = .ok value ∧
      checkScope { nid := "", pubKey := "", scope := some value } path = .ok ()

theorem buildNid_ne_empty [Ed25519] (ca : NipCaService) (entityType identifier : String) :
    ca.buildNid entityType identifier ≠ "" := by
  intro empty
  simp only [NipCaService.buildNid, String.append_eq_empty_iff] at empty
  exact absurd empty.1.1.1.1.1 (by decide)

def UnderSession (nid : String) (s : CaState) : Prop :=
  ∃ record ∈ s.certs.records, record.nid = nid ∧ record.nidRole = some roleSession

/-- A NID gets further records by renewals only, and sessions and revoked NIDs get none; a session
that asks for a scope of its own keeps to its group's. -/
def Proper (reading : ScopeReading) (s : CaState) (caller : Call) : (op : CaOp) → op.Answer → Prop
  | .save record, answer => answer = .ok () → match caller with
    | .issue (.renew nid) => ¬ UnderSession nid s ∧ ¬ LatestRevoked nid s.certs
    | .issue (.issueSession groupNid _ params) => s.certs.getByNid record.nid = none ∧
      ∀ scope, params.scopeJson = some scope → ∀ group ∈ s.certs.records, group.nid = groupNid →
        reading.within scope group.scopeJson
    | _ => s.certs.getByNid record.nid = none
  | _, _ => True

section
variable [Ed25519] [Serde] (ca : NipCaService) (reading : ScopeReading)

/-- What is known of all that was issued. -/
structure Containing (issued : List NipCertRecord) : Prop where
  alike : ∀ record ∈ issued, ∀ other ∈ issued, other.nid = record.nid →
    other.capabilities = record.capabilities ∧ other.scopeJson = record.scopeJson
  single : ∀ record ∈ issued, record.nidRole = some roleSession → ∀ other ∈ issued,
    other.nid = record.nid → other = record
  contained : ∀ record ∈ issued, record.nidRole = some roleSession →
    ∃ group ∈ issued, group.nidRole = some roleGroup ∧ SessionOf ca reading.within group record
  named : ∀ record ∈ issued, record.nid ≠ ""

variable {ca reading} {issued : List NipCertRecord} {record : NipCertRecord}

theorem Containing.nil : Containing ca reading [] := by
  refine ⟨?_, ?_, ?_, ?_⟩ <;>
  · intro record member
    cases member

theorem Containing.add (containing : Containing ca reading issued)
    (alike : ∀ old ∈ issued, old.nid = record.nid →
      old.capabilities = record.capabilities ∧ old.scopeJson = record.scopeJson)
    (apart : ∀ old ∈ issued, old.nid = record.nid →
      old.nidRole ≠ some roleSession ∧ record.nidRole ≠ some roleSession)
    (contained : record.nidRole = some roleSession →
      ∃ group ∈ issued, group.nidRole = some roleGroup ∧ SessionOf ca reading.within group record)
    (named : record.nid ≠ "") : Containing ca reading (issued ++ [record]) := by
  refine ⟨?alike, ?single, ?contained, ?named⟩
  case alike =>
    intro one first other second nid
    rcases List.mem_append.mp first with first | first <;>
      rcases List.mem_append.mp second with second | second
    · exact containing.alike one first other second nid
    · cases List.mem_singleton.mp second
      obtain ⟨capabilities, scope⟩ := alike one first nid.symm
      exact ⟨capabilities.symm, scope.symm⟩
    · cases List.mem_singleton.mp first
      exact alike other second nid
    · cases List.mem_singleton.mp first
      cases List.mem_singleton.mp second
      exact ⟨rfl, rfl⟩
  case single =>
    intro one first session other second nid
    rcases List.mem_append.mp first with first | first <;>
      rcases List.mem_append.mp second with second | second
    · exact containing.single one first session other second nid
    · cases List.mem_singleton.mp second
      exact absurd session (apart one first nid.symm).1
    · cases List.mem_singleton.mp first
      exact absurd session (apart other second nid).2
    · cases List.mem_singleton.mp first
      exact List.mem_singleton.mp second
  case contained =>
    intro one first session
    have known : ∃ group ∈ issued, group.nidRole = some roleGroup ∧
        SessionOf ca reading.within group one := by
      rcases List.mem_append.mp first with first | first
      · exact containing.contained one first session
      · cases List.mem_singleton.mp first
        exact contained session
    obtain ⟨group, member, role, session⟩ := known
    exact ⟨group, List.mem_append_left _ member, role, session⟩
  case named =>
    intro one first
    rcases List.mem_append.mp first with first | first
    · exact containing.named one first
    · cases List.mem_singleton.mp first
      exact named

theorem Containing.fresh (containing : Containing ca reading issued)
    (new : ∀ old ∈ issued, old.nid ≠ record.nid)
    (contained : record.nidRole = some roleSession →
      ∃ group ∈ issued, group.nidRole = some roleGroup ∧ SessionOf ca reading.within group record)
    (named : record.nid ≠ "") : Containing ca reading (issued ++ [record]) :=
  containing.add (fun old member same => absurd same (new old member))
    (fun old member same => absurd same (new old member)) contained named

theorem Containing.again (containing : Containing ca reading issued) {old : NipCertRecord}
    (member : old ∈ issued) (nid : record.nid = old.nid)
    (capabilities : record.capabilities = old.capabilities) (scope : record.scopeJson = old.scopeJson)
    (role : record.nidRole = none)
    (free : ∀ other ∈ issued, other.nid = record.nid → other.nidRole ≠ some roleSession) :
    Containing ca reading (issued ++ [record]) := by
  have plain : record.nidRole ≠ some roleSession := by
    rw [role]
    exact nofun
  refine containing.add (fun other listed same => ?_)
    (fun other listed same => ⟨free other listed same, plain⟩) (fun session => absurd session plain) ?_
  · rw [capabilities, scope]
    exact containing.alike old member other listed (same.trans nid)
  · rw [nid]
    exact containing.named old member

end

def LatestExpired (nid : String) (s : CaState) : Prop :=
  ∃ record, s.certs.getByNid nid = some record ∧ record.expiresAt < s.clock

section
variable [Ed25519] [Serde] (ca : NipCaService) (reading : ScopeReading)

/-- A session record, within all records of its group. -/
structure Contained (records : List NipCertRecord) (record : NipCertRecord) : Prop where
  role : record.nidRole = some roleSession
  parent : ∃ group ∈ records, record.parentNid = some group.nid ∧ group.nidRole = some roleGroup ∧
    HasLineage ca group record
  capabilities : ∀ group ∈ records, record.parentNid = some group.nid →
    record.capabilities ⊆ group.capabilities
  scope : ∀ group ∈ records, record.parentNid = some group.nid →
    reading.within record.scopeJson group.scopeJson
  lifetime : record.expiresAt - record.issuedAt ≤ ca.opts.sessionMaxValidity

/-- Every record under a session NID is contained, and no session of a group verifies any more once
the group is revoked, or while it is expired. -/
structure Containment [TimeText] [Sha256] (s t : CaState) : Prop where
  contained : ∀ record ∈ t.certs.records, UnderSession record.nid t →
    Contained ca reading t.certs.records record
  ended : ∀ groupNid, LatestRevoked groupNid s.certs ∨ LatestExpired groupNid t →
    ∀ session ∈ t.certs.records, session.nidRole = some roleSession →
      session.parentNid = some groupNid →
      ∀ result u, Runs exec (NipCaService.verify session.nid) t result u → result.valid = false

variable {ca reading}

theorem Containing.contains {s : CaState} (containing : Containing ca reading s.issued)
    {record : NipCertRecord} (member : record ∈ s.certs.records)
    (under : UnderSession record.nid s) : Contained ca reading s.certs.records record := by
  obtain ⟨session, listed, nid, role⟩ := under
  have role' : record.issued.nidRole = some roleSession := by
    rw [containing.single _ (mem_issued listed) role _ (mem_issued member) nid.symm]
    exact role
  obtain ⟨group, issued, grouped, within⟩ := containing.contained _ (mem_issued member) role'
  obtain ⟨found, there, rfl⟩ := List.mem_map.mp issued
  have same (other : NipCertRecord) (here : other ∈ s.certs.records)
      (parent : record.parentNid = some other.nid) :
      other.capabilities = found.capabilities ∧ other.scopeJson = found.scopeJson := by
    have nids : some other.nid = some found.nid := parent.symm.trans within.parent
    exact containing.alike found.issued issued other.issued (mem_issued here) (Option.some.inj nids)
  refine ⟨role', ⟨found, there, within.parent, grouped, within.lineage⟩, ?_, ?_, within.lifetime⟩
  · intro other here parent
    rw [(same other here parent).1]
    exact within.capabilities
  · intro other here parent
    rw [(same other here parent).2]
    exact within.scope

end

/-- The parent is looked up after the session, and is revoked or expired. -/
theorem verify_ended [TimeText] [Sha256] {s t : CaState} {nid groupNid : String}
    {record : NipCertRecord} {result : NipVerifyResult} (found : s.certs.getByNid nid = some record)
    (parent : record.parentNid = some groupNid) (named : groupNid ≠ "")
    (ended : LatestRevoked groupNid s.certs ∨ LatestExpired groupNid s)
    (runs : Runs exec (NipCaService.verify nid) s result t) : result.valid = false := by
  unfold NipCaService.verify at runs
  rw [runs_getByNid, found] at runs
  dsimp only at runs
  split at runs
  · cases runs
    rfl
  obtain ⟨now, later, runs⟩ := runs_now.mp runs
  split_ifs at runs with expired
  · cases runs
    rfl
  split at runs
  · rename_i none
    cases parent.symm.trans none
  · rename_i empty
    cases parent.symm.trans empty
    exact absurd rfl named
  · rename_i parentNid _ here
    cases parent.symm.trans here
    unfold NipCaService.verifyParent at runs
    rw [runs_getByNid] at runs
    dsimp only at runs
    split at runs
    · cases runs
      rfl
    rename_i group there
    split at runs
    · cases runs
      rfl
    rename_i live
    rcases ended with ⟨revoked, same, marked⟩ | ⟨past, same, before⟩
    · cases there.symm.trans same
      exact absurd live marked
    · cases there.symm.trans same
      obtain ⟨checked, after, runs⟩ := runs_now.mp runs
      split_ifs at runs with expired
      · cases runs
        rfl
      · exact absurd (lt_of_lt_of_le before (later.trans after)) expired

theorem fresh_issued {s : CaState} {nid : String} (free : s.certs.getByNid nid = none) :
    ∀ old ∈ s.issued, old.nid ≠ nid := by
  intro old issued
  obtain ⟨record, member, rfl⟩ := List.mem_map.mp issued
  exact getByNid_eq_none.mp free record member

section
variable [Ed25519] [Serde] {ca : NipCaService} {reading : ScopeReading}

/-- What a call saves in a proper step keeps to the groups. -/
theorem Containing.save {s : CaState} {call : IssuingCall} {seen : Lookup}
    {record : NipCertRecord} (containing : Containing ca reading s.issued)
    (known : ∀ nid record, seen = some (nid, some record) →
      record.nid = nid ∧ record.issued ∈ s.issued)
    (may : call.MaySave ca seen record)
    (proper : Proper reading s (.issue call) (.save record) (.ok ())) :
    Containing ca reading (s.issued ++ [record.issued]) := by
  have proper := proper rfl
  have built {entityType identifier : String} (nid : record.nid = ca.buildNid entityType identifier) :
      record.issued.nid ≠ "" := by
    change record.nid ≠ ""
    rw [nid]
    exact buildNid_ne_empty ca _ _
  cases call with
  | issueSession groupNid sessionPubKey params =>
    obtain ⟨free, keeps⟩ := proper
    obtain ⟨group, same, grouped, session⟩ := may
    obtain ⟨nid, issued⟩ := known groupNid group same
    have session := session nid
    refine containing.fresh (fresh_issued free) (fun _ => ⟨group.issued, issued, grouped, ?_⟩) ?_
    · have within : reading.within record.scopeJson group.scopeJson := by
        obtain ⟨listed, member, same⟩ := List.mem_map.mp issued
        rw [session.scope]
        cases given : params.scopeJson with
        | none => exact reading.refl _
        | some scope =>
          have listedNid : listed.issued.nid = group.issued.nid := congrArg _ same
          have listedScope : listed.issued.scopeJson = group.issued.scopeJson := congrArg _ same
          change reading.within scope group.issued.scopeJson
          rw [← listedScope]
          exact keeps scope given listed member (listedNid.trans nid)
      exact ⟨session.role, session.parent, session.lineage, session.capabilities, within,
        session.lifetime⟩
    · obtain ⟨sessionId, purpose, named, -⟩ := session.lineage
      exact built named
  | renew nid =>
    obtain ⟨plain, -⟩ := proper
    obtain ⟨old, same, -, named, capabilities, scope, role⟩ := may
    obtain ⟨nids, issued⟩ := known nid old same
    refine containing.again issued (named.trans nids.symm) capabilities scope role ?_
    intro other listed here session
    obtain ⟨stored, member, rfl⟩ := List.mem_map.mp listed
    exact plain ⟨stored, member, here.trans named, session⟩
  | registerGroup =>
    obtain ⟨-, role, identifier, nid⟩ := may
    refine containing.fresh (fresh_issued proper) (fun session => ?_) ?_
    · exact absurd (role.symm.trans session) (by decide)
    · exact built nid
  | register | registerX509 =>
    obtain ⟨-, certifies⟩ := may
    refine containing.fresh (fresh_issued proper) (fun session => ?_) ?_
    · cases certifies.role.symm.trans session
    · exact built certifies.nid

variable [TimeText] [X509.CertificateLibrary] [Sha256]

variable (ca reading) in
abbrev ProperStep := (system ca).GuardedStep (Proper reading)

/-- The invariant of a run: what was issued, and what every call has in hand. -/
structure Contains (ca : NipCaService) (reading : ScopeReading) (pool : CaPool) : Prop where
  issued : Containing ca reading pool.shared.issued
  calls : Calls ca pool

theorem Contains.step {pool after : CaPool} {event : Event CaOp.Answer Call}
    (contains : Contains ca reading pool) (step : ProperStep ca reading pool event after) :
    Contains ca reading after := by
  refine ⟨?_, contains.calls.step step.2⟩
  obtain ⟨proper, step⟩ := step
  cases step with
  | start call => exact contains.issued
  | @act thread caller op next answer shared found exec =>
    dsimp only
    rw [exec_issued exec]
    cases op with
    | save record =>
      cases answer with
      | error e => exact (List.append_nil _).symm ▸ contains.issued
      | ok =>
        obtain ⟨call, seen, rfl, may, known⟩ := (contains.calls _ _ _ found).saves
        exact contains.issued.save known may (proper _ _ found)
    | _ => exact (List.append_nil _).symm ▸ contains.issued

/-- In a proper step nothing is saved under a revoked NID. -/
theorem revoked_step {pool after : CaPool} {event : Event CaOp.Answer Call} {nid : String}
    (contains : Contains ca reading pool) (step : ProperStep ca reading pool event after)
    (revoked : LatestRevoked nid pool.shared.certs) : LatestRevoked nid after.shared.certs := by
  obtain ⟨proper, step⟩ := step
  cases step with
  | start call => exact revoked
  | @act thread caller op next answer shared found exec =>
    refine InMemoryNipCaStore.LatestRevoked.kept revoked (fun record member => ?_) exec
    cases op with
    | save added =>
      cases answer with
      | error e => cases member
      | ok =>
        cases List.mem_singleton.mp member
        rintro rfl
        have proper := proper _ _ found rfl
        obtain ⟨call, seen, rfl, may, -⟩ := (contains.calls _ _ _ found).saves
        have taken : pool.shared.certs.getByNid record.nid ≠ none := by
          obtain ⟨latest, here, -⟩ := revoked
          rw [here]
          exact nofun
        cases call with
        | renew nid =>
          obtain ⟨old, -, -, named, -⟩ := may
          exact proper.2 (named ▸ revoked)
        | issueSession groupNid sessionPubKey params => exact taken proper.1
        | _ => exact taken proper
    | _ => cases member

/-- In a run of proper steps, sessions stay within their groups and end with them. -/
theorem session_containment {start : CaState} (empty : start.certs.records = [])
    {s t : CaPool} {before after : List (Event CaOp.Answer Call)}
    (reached : Run (ProperStep ca reading) ⟨start, []⟩ before s)
    (continued : Run (ProperStep ca reading) s after t) :
    Containment ca reading s.shared t.shared := by
  have initial : Contains ca reading ⟨start, []⟩ := by
    have none : start.issued = [] := by
      unfold CaState.issued
      rw [empty]
      rfl
    refine ⟨?_, fun i caller p found => by cases found⟩
    dsimp only
    rw [none]
    exact .nil
  have here : Contains ca reading s := reached.invariant (fun holds step => holds.step step) initial
  have there : Contains ca reading t := continued.invariant (fun holds step => holds.step step) here
  refine ⟨fun record member under => there.issued.contains member under, ?_⟩
  intro groupNid ended session member role parent result u runs
  have lasts (revoked : LatestRevoked groupNid s.shared.certs) :
      Contains ca reading t ∧ LatestRevoked groupNid t.shared.certs :=
    continued.invariant (P := fun pool => Contains ca reading pool ∧
        LatestRevoked groupNid pool.shared.certs)
      (fun holds step => ⟨holds.1.step step, revoked_step holds.1 step holds.2⟩) ⟨here, revoked⟩
  obtain ⟨record, found⟩ : ∃ record, t.shared.certs.getByNid session.nid = some record := by
    refine Option.ne_none_iff_exists'.mp fun none => ?_
    exact getByNid_eq_none.mp none session member rfl
  obtain ⟨listed, nid⟩ := getByNid_some found
  have same : record.issued = session.issued :=
    there.issued.single _ (mem_issued member) role _ (mem_issued listed) nid
  have named : groupNid ≠ "" := by
    obtain ⟨group, issued, -, within⟩ := there.issued.contained _ (mem_issued member) role
    have nids : some group.nid = some groupNid := within.parent.symm.trans parent
    rw [← Option.some.inj nids]
    exact there.issued.named group issued
  have parent' : record.issued.parentNid = some groupNid := by
    rw [same]
    exact parent
  exact verify_ended found parent' named (ended.imp_left fun revoked => (lasts revoked).2) runs

end

namespace OneGroup
open Sample

def groupNid : String := "urn:nps:agent:example.org:group-a"

def sessionNid : String := "urn:nps:agent:example.org:session-0-0000000000000000"

def group : Call :=
  .issue (.registerGroup (some "group-a") ca.getCaPublicKey ["nwp:query"] "\x7b\x7d" (some "owner")
    none none)

def session : Call := .issue (.issueSession groupNid ca.getCaPublicKey {})

def issued : List (Move Call) := [.start group, .run 0 4, .start session, .run 1 7]

def revoked : List (Move Call) := issued ++ [.start (.revoke groupNid "cessation"), .run 2 5]

def renewed : List (Move Call) := issued ++ [.start (.issue (.renew sessionNid)), .run 2 4]

def played (moves : List (Move Call)) : List (Event CaOp.Answer Call) × CaPool :=
  (system ca).play (handler 0) moves ⟨{}, []⟩

def proper (pool : CaPool) : Event CaOp.Answer Call → Bool
  | .act thread (.save record) _ =>
    (pool.shared.certs.getByNid record.nid).isNone && match pool.threads[thread]? with
      | some (.issue (.renew _), _) => false
      | some (.issue (.issueSession _ _ params), _) => params.scopeJson.isNone
      | _ => true
  | _ => true

theorem proper_sound (pool : CaPool) (event : Event CaOp.Answer Call)
    (met : proper pool event = true) : Permits (Proper ScopeReading.paths) pool event := by
  cases event with
  | start call => trivial
  | act thread op answer =>
    intro caller p found
    cases op <;> try trivial
    case save record =>
      intro accepted
      simp only [proper, found, Bool.and_eq_true, Option.isNone_iff_eq_none] at met
      obtain ⟨free, keeps⟩ := met
      cases caller with
      | revoke nid reason => exact free
      | issue call =>
        cases call with
        | renew nid => cases keeps
        | issueSession groupNid sessionPubKey params =>
          refine ⟨free, fun scope given => ?_⟩
          cases given.symm.trans (Option.isNone_iff_eq_none.mp keeps)
        | _ => exact free

def later : List (Move Call) :=
  [.start session, .run 3 7, .start (.issue (.renew sessionNid)), .run 4 4,
    .start (.issue registration), .run 5 4]

def ended : List (Event CaOp.Answer Call) × CaPool :=
  (system ca).play (handler 0) later (played revoked).2

theorem ended_nids : ended.2.shared.certs.records.map (·.nid) = [groupNid, sessionNid, nid] := by
  decide +kernel

theorem revoked_containment : ∃ events pool events' later,
    Run (ProperStep ca ScopeReading.paths) ⟨{}, []⟩ events pool ∧
      Run (ProperStep ca ScopeReading.paths) pool events' later ∧
      LatestRevoked groupNid pool.shared.certs ∧
      Containment ca ScopeReading.paths pool.shared later.shared ∧
      later.shared.certs.records.map (·.nid) = [groupNid, sessionNid, nid] := by
  have run : Run (ProperStep ca ScopeReading.paths) ⟨{}, []⟩ (played revoked).1
      (played revoked).2 :=
    System.run_play_guarded (handler_faithful 0) proper_sound revoked ⟨{}, []⟩ (by decide +kernel)
  have met : (system ca).playMeets (handler 0) proper later (played revoked).2 = true := by
    decide +kernel
  have continued : Run (ProperStep ca ScopeReading.paths) (played revoked).2 ended.1 ended.2 :=
    System.run_play_guarded (handler_faithful 0) proper_sound later _ met
  have group : ∃ record, (played revoked).2.shared.certs.getByNid groupNid = some record ∧
      record.revokedAt ≠ none := ⟨_, rfl, nofun⟩
  exact ⟨_, _, _, _, run, continued, group, session_containment rfl run continued, ended_nids⟩

theorem renewed_records : (played renewed).2.shared.certs.records.map
    (fun record => (record.nid, record.nidRole)) =
      [(groupNid, some "group"), (sessionNid, some "session"), (sessionNid, none)] := by
  decide +kernel

/-- The renewed session is no session any more. -/
theorem renewed_uncontained : ∃ events pool, Run (system ca).Step ⟨{}, []⟩ events pool ∧
    ∀ reading, ¬ Containment ca reading pool.shared pool.shared := by
  have run : Run (system ca).Step ⟨{}, []⟩ (played renewed).1 (played renewed).2 :=
    System.run_play (handler_faithful 0) renewed _
  refine ⟨_, _, run, fun reading containment => ?_⟩
  have listed (role : Option String) (member : (sessionNid, role) ∈
      [(groupNid, some "group"), (sessionNid, some "session"), (sessionNid, none)]) :
      ∃ record ∈ (played renewed).2.shared.certs.records,
        record.nid = sessionNid ∧ record.nidRole = role := by
    rw [← renewed_records] at member
    obtain ⟨record, stored, same⟩ := List.mem_map.mp member
    exact ⟨record, stored, congrArg Prod.fst same, congrArg Prod.snd same⟩
  obtain ⟨first, stored, nid, role⟩ := listed (some "session") (by simp)
  obtain ⟨second, stored', nid', role'⟩ := listed none (by simp)
  have under : UnderSession second.nid (played renewed).2.shared :=
    ⟨first, stored, nid.trans nid'.symm, role⟩
  cases role'.symm.trans (containment.contained second stored' under).role

end OneGroup
end Nps.Nip.Ca
