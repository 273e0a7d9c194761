import NpsSdk.Nip.Ca.World

/-! Registrations of one NID side by side. A registration looks its NID up and saves its record some
steps later, and the store takes every record whose serial is new. -/
namespace Nps.Nip.Ca
open Interaction Interaction.Prog Transition

/-- Registering a NID, as an agent, as a node or as a group. -/
inductive IssuingCall.Registers : IssuingCall → Prop where
  | register {entityType identifier pubKey : String} {capabilities : List String}
      {scopeJson : String} {metadataJson : Option String} :
      Registers (.register entityType identifier pubKey capabilities scopeJson metadataJson)
  | registerX509 {entityType identifier pubKey : String} {capabilities : List String}
      {scopeJson : String} {assuranceLevel : Option AssuranceLevel} {metadataJson : Option String} :
      Registers (.registerX509 entityType identifier pubKey capabilities scopeJson assuranceLevel
        metadataJson)
  | registerGroup {identifier : Option String} {pubKey : String} {capabilities : List String}
      {scopeJson : String} {ownerUserId ownerKeyId metadataJson : Option String} :
      Registers (.registerGroup identifier pubKey capabilities scopeJson ownerUserId ownerKeyId
        metadataJson)

abbrev Registration := { call : IssuingCall // call.Registers }

section
variable [Ed25519] [Serde] [TimeText] [X509.CertificateLibrary] [Sha256] (ca : NipCaService)

def registrations : System CaOp.Answer CaState Registration (Except NipCaError IdentFrame) where
  program call := call.1.program ca
  exec := exec

abbrev RegistrationPool := Pool CaOp.Answer CaState Registration (Except NipCaError IdentFrame)

/-- A call that looks up a NID which no record has comes between no other call's look-up of that NID
and its save. -/
def Unclaimed (pool : RegistrationPool) : Event CaOp.Answer Registration → Prop
  | .act _ (.getByNid nid) _ => pool.shared.certs.getByNid nid = none →
      ∀ (i : Nat) call p, pool.threads[i]? = some (call, p) → ¬ Claims nid p
  | _ => True

omit [TimeText] [X509.CertificateLibrary] [Sha256] in
theorem Registration.looked {ca : NipCaService} (call : Registration) {seen : Lookup}
    {p : CaProg (Except NipCaError IdentFrame)} {nid : String}
    (saves : SavesLast ca (call.1.MaySave ca) seen p) (claims : Claims nid p) :
    seen = some (nid, none) := by
  obtain ⟨call, registers⟩ := call
  have looks : call.Looks := by cases registers <;> trivial
  obtain ⟨found, record, rfl, may, -⟩ := IssuingCall.claims looks saves claims
  cases registers <;> cases may.1 <;> rfl

/-- Two calls that succeeded registered different NIDs, and no NID was certified for two keys. -/
structure RegisteredOnce (start : CaState) (pool : RegistrationPool) : Prop where
  calls : ∀ (i j : Nat) first second frame other,
    pool.threads[i]? = some (first, .done (.ok frame)) →
    pool.threads[j]? = some (second, .done (.ok other)) → frame.nid = other.nid → i = j
  keys : ∃ added, pool.shared.certs.records = start.certs.records ++ added ∧
    ∀ record ∈ added, ∀ other ∈ added, record.nid = other.nid → record.pubKey = other.pubKey

/-- Every call has ended, or may save one record. -/
def Careful (pool : RegistrationPool) : Prop :=
  ∀ (i : Nat) call p, pool.threads[i]? = some (call, p) →
    (∃ result, p = .done result) ∨ ∃ seen, SavesLast ca (call.1.MaySave ca) seen p

/-- What the calls have added to the store, and what they have still to do. -/
structure Registering (start : CaState) (pool : RegistrationPool) : Prop where
  careful : Careful ca pool
  added : ∃ added, pool.shared.certs.records = start.certs.records ++ added ∧
    (added.map (·.nid)).Nodup
  stored : ∀ (i : Nat) call frame, pool.threads[i]? = some (call, .done (.ok frame)) →
    ∃ record ∈ pool.shared.certs.records, record.nid = frame.nid
  free : ∀ (i : Nat) call p nid, pool.threads[i]? = some (call, p) → Claims nid p →
    pool.shared.certs.getByNid nid = none
  alone : ∀ (i j : Nat) first second p q nid, pool.threads[i]? = some (first, p) →
    pool.threads[j]? = some (second, q) → Claims nid p → Claims nid q → i = j
  calls : ∀ (i j : Nat) first second frame other,
    pool.threads[i]? = some (first, .done (.ok frame)) →
    pool.threads[j]? = some (second, .done (.ok other)) → frame.nid = other.nid → i = j

section Step
variable {ca} {start : CaState} {pool after : RegistrationPool} {event : Event CaOp.Answer Registration}

/-- What an event adds to the store. -/
def savedBy : Event CaOp.Answer Registration → List NipCertRecord
  | .start _ => []
  | .act _ op answer => saved op answer

omit [TimeText] [X509.CertificateLibrary] [Sha256] in
theorem Careful.acting (careful : Careful ca pool) {i : Nat} {call : Registration}
    {op : CaOp} {next : op.Answer → CaProg (Except NipCaError IdentFrame)}
    (found : pool.threads[i]? = some (call, .call op next)) :
    ∃ seen, SavesLast ca (call.1.MaySave ca) seen (.call op next) := by
  rcases careful i call _ found with ⟨result, finished⟩ | saves
  · cases finished
  · exact saves

theorem Careful.step (careful : Careful ca pool) (step : (registrations ca).Step pool event after) :
    Careful ca after := by
  intro i call p found
  rcases step.threadAt found with old | ⟨op, next, answer, -, acted, -, rfl⟩ | ⟨-, rfl⟩
  · exact careful i call p old
  · obtain ⟨seen, saves⟩ := careful.acting acted
    exact saves.next answer
  · exact .inr ⟨none, call.1.savesLast ca⟩

theorem Registering.records (registering : Registering ca start pool)
    (step : (registrations ca).Step pool event after) :
    after.shared.certs.records = pool.shared.certs.records ++ savedBy event := by
  cases step with
  | start call => exact (List.append_nil _).symm
  | act found exec =>
    refine exec_records ?_ exec
    rintro nid reason revokedAt rfl
    obtain ⟨seen, saves⟩ := registering.careful.acting found
    exact saves.1

theorem Registering.saves (registering : Registering ca start pool)
    (step : (registrations ca).Step pool event after) {record : NipCertRecord}
    (member : record ∈ savedBy event) :
    pool.shared.certs.getByNid record.nid = none ∧ ∃ i call p,
      event = .act i (.save record) (.ok ()) ∧ pool.threads[i]? = some (call, p) ∧
        Claims record.nid p := by
  cases step with
  | start call => cases member
  | @act thread caller op next answer shared found exec =>
    cases op with
    | save fresh =>
      cases answer with
      | error e => cases member
      | ok =>
        cases List.mem_singleton.mp member
        have claims : Claims record.nid (.call (.save record) next) := .inl ⟨record, rfl, rfl⟩
        exact ⟨registering.free _ _ _ _ found claims, thread, caller, _, rfl, found, claims⟩
    | _ => cases member

/-- A call that claims a NID claimed it before, or has just looked for it in vain. -/
theorem Registering.claimed (registering : Registering ca start pool)
    (step : (registrations ca).Step pool event after) {i : Nat} {call : Registration}
    {p : CaProg (Except NipCaError IdentFrame)} {nid : String}
    (found : after.threads[i]? = some (call, p)) (claims : Claims nid p) :
    ((∃ q, pool.threads[i]? = some (call, q) ∧ Claims nid q) ∧
      ∀ record ∈ savedBy event, record.nid ≠ nid) ∨
    ∃ answer, event = .act i (.getByNid nid) answer ∧ pool.shared.certs.getByNid nid = none := by
  cases step with
  | start fresh =>
    rcases getElem?_concat found with old | ⟨-, same⟩
    · exact .inl ⟨⟨p, old, claims⟩, List.forall_mem_nil _⟩
    · cases same
      cases call.looked (call.1.savesLast ca) claims
  | @act thread caller op next answer shared acted exec =>
    rcases getElem?_set_append found with ⟨other, old⟩ | ⟨rfl, same⟩ | ⟨-, -, new⟩
    · refine .inl ⟨⟨p, old, claims⟩, fun record member same => ?_⟩
      have step : (registrations ca).Step pool (.act thread op answer) _ := .act acted exec
      obtain ⟨-, k, holder, q, here, holds, claims'⟩ := registering.saves step member
      cases here
      exact other (registering.alone i thread _ _ _ _ nid old holds claims (same ▸ claims'))
    · cases same
      obtain ⟨seen, saves⟩ := registering.careful.acting acted
      by_cases looks : op = .getByNid nid
      · subst looks
        obtain ⟨here, -⟩ := exec
        cases call.looked (saves.2 answer) claims
        exact .inr ⟨none, rfl, here.symm⟩
      · refine .inl ⟨⟨_, acted, claims.of_next looks⟩, fun record member => ?_⟩
        cases op with
        | save fresh =>
          obtain ⟨result, last⟩ := saves.ends answer
          rw [last] at claims
          exact claims.elim
        | _ => cases member
    · cases new

/-- A thread that has a frame had it before, or has just saved the record of it. -/
theorem Registering.frame_at (registering : Registering ca start pool)
    (step : (registrations ca).Step pool event after) {i : Nat} {call : Registration}
    {frame : IdentFrame} (found : after.threads[i]? = some (call, .done (.ok frame))) :
    pool.threads[i]? = some (call, .done (.ok frame)) ∨
      ∃ record, event = .act i (.save record) (.ok ()) ∧ record.nid = frame.nid := by
  rcases step.threadAt found with old | ⟨op, next, answer, rfl, acted, -, last⟩ | ⟨-, fresh⟩
  · exact .inl old
  · right
    obtain ⟨seen, saves⟩ := registering.careful.acting acted
    have all : Issues ca (fun _ => True) (.call op _) := saves.issues fun _ _ _ => trivial
    have issues := all answer
    rcases issues with ⟨result, finished, saves⟩ | later
    · cases finished.symm.trans last.symm
      have saves := saves ⟨frame, rfl⟩
      cases op with
      | save record =>
        cases answer with
        | error e => exact saves.elim
        | ok => exact ⟨record, rfl, saves.2.1.symm⟩
      | _ => exact saves.elim
    · rw [← last] at later
      exact absurd ⟨frame, rfl⟩ later
  · have issues : Issues ca call.1.Named ((registrations ca).program call) := call.1.issues ca
    rw [← fresh] at issues
    exact absurd ⟨frame, rfl⟩ issues

variable (ca) in
/-- Whether a call cannot save under the NID any more, or not at all. -/
def spares (nid : String) (thread : Registration × CaProg (Except NipCaError IdentFrame)) : Bool :=
  match thread with
  | (_, .done _) => true
  | (_, .call (.getByNid target) _) => target == nid
  | (⟨.register entityType identifier _ _ _ _, _⟩, _) => ca.buildNid entityType identifier != nid
  | _ => false

omit [TimeText] [X509.CertificateLibrary] [Sha256] in
theorem Careful.spared (careful : Careful ca pool) {nid : String}
    (spared : pool.threads.all (spares ca nid) = true) {i : Nat} {call : Registration}
    {p : CaProg (Except NipCaError IdentFrame)} (found : pool.threads[i]? = some (call, p)) :
    ¬ Claims nid p := by
  intro claims
  have spares := List.all_eq_true.mp spared _ (List.mem_of_getElem? found)
  rcases careful i call p found with ⟨result, rfl⟩ | ⟨seen, saves⟩
  · exact claims
  obtain ⟨last, record, may, same, -⟩ := saves.claims claims
  cases p with
  | done result => exact claims
  | call op next =>
    by_cases looks : ∃ target, op = .getByNid target
    · obtain ⟨target, rfl⟩ := looks
      rcases claims with ⟨record, impossible, -⟩ | ⟨other, -⟩
      · cases impossible
      · exact other (congrArg _ (beq_iff_eq.mp spares))
    · obtain ⟨call, registers⟩ := call
      cases op <;> first
        | exact looks ⟨_, rfl⟩
        | cases registers with
          | register => exact bne_iff_ne.mp spares (may.2.nid.symm.trans same)
          | _ => cases spares

theorem Registering.step (registering : Registering ca start pool)
    (step : Guarded Unclaimed (registrations ca).Step pool event after) :
    Registering ca start after := by
  obtain ⟨unclaimed, step⟩ := step
  have records := registering.records step
  have fresh : ∀ record ∈ savedBy event, ∀ old ∈ pool.shared.certs.records, old.nid ≠ record.nid :=
    fun record member => InMemoryNipCaStore.getByNid_eq_none.mp (registering.saves step member).1
  refine ⟨registering.careful.step step, ?added, ?stored, ?free, ?alone, ?calls⟩
  case added =>
    obtain ⟨before, same, distinct⟩ := registering.added
    refine ⟨before ++ savedBy event, by rw [records, same, List.append_assoc], ?_⟩
    rw [List.map_append]
    refine List.nodup_append.mpr ⟨distinct, ?_, ?_⟩
    · cases event with
      | start call => exact List.nodup_nil
      | act thread op answer => exact saved_nodup
    · intro nid first nid' second
      obtain ⟨old, listed, rfl⟩ := List.mem_map.mp first
      obtain ⟨record, member, rfl⟩ := List.mem_map.mp second
      exact fresh record member old (by rw [same]; exact List.mem_append_right _ listed)
  case stored =>
    intro i call frame found
    rw [records]
    rcases registering.frame_at step found with old | ⟨record, rfl, nid⟩
    · obtain ⟨record, member, nid⟩ := registering.stored i call frame old
      exact ⟨record, List.mem_append_left _ member, nid⟩
    · exact ⟨record, List.mem_append_right _ (List.mem_singleton_self _), nid⟩
  case free =>
    intro i call p nid found claims
    have kept (free : pool.shared.certs.getByNid nid = none)
        (spared : ∀ record ∈ savedBy event, record.nid ≠ nid) :
        after.shared.certs.getByNid nid = none := by
      rw [InMemoryNipCaStore.getByNid_eq_none, records]
      intro record member
      rcases List.mem_append.mp member with old | new
      · exact InMemoryNipCaStore.getByNid_eq_none.mp free record old
      · exact spared record new
    rcases registering.claimed step found claims with ⟨⟨q, old, claimed⟩, spared⟩ | ⟨answer, rfl, free⟩
    · exact kept (registering.free i call q nid old claimed) spared
    · exact kept free (List.forall_mem_nil _)
  case alone =>
    intro i j first second p q nid atFirst atSecond claims claims'
    rcases registering.claimed step atFirst claims with ⟨⟨p', old, claimed⟩, -⟩ | ⟨answer, same, free⟩
    · rcases registering.claimed step atSecond claims' with
        ⟨⟨q', old', claimed'⟩, -⟩ | ⟨answer, same, free⟩
      · exact registering.alone i j first second p' q' nid old old' claimed claimed'
      · subst same
        exact absurd claimed (unclaimed free i first p' old)
    · rcases registering.claimed step atSecond claims' with
        ⟨⟨q', old', claimed'⟩, -⟩ | ⟨answer', same', -⟩
      · subst same
        exact absurd claimed' (unclaimed free j second q' old')
      · cases same.symm.trans same'
        rfl
  case calls =>
    have apart {i : Nat} {call : Registration} {frame : IdentFrame} {j : Nat} {record : NipCertRecord}
        (old : pool.threads[i]? = some (call, .done (.ok frame)))
        (same : event = .act j (.save record) (.ok ())) : frame.nid ≠ record.nid := by
      intro nid
      obtain ⟨stored, member, named⟩ := registering.stored i call frame old
      subst same
      exact fresh record (List.mem_singleton_self _) stored member (named.trans nid)
    intro i j first second frame other atFirst atSecond nid
    rcases registering.frame_at step atFirst with old | ⟨record, same, named⟩
    · rcases registering.frame_at step atSecond with old' | ⟨record, same, named⟩
      · exact registering.calls i j first second frame other old old' nid
      · exact absurd (nid.trans named.symm) (apart old same)
    · rcases registering.frame_at step atSecond with old | ⟨record', same', -⟩
      · exact absurd (nid.symm.trans named.symm) (apart old same)
      · cases same.symm.trans same'
        rfl

end Step

variable {ca}

/-- Where no look-up comes between another call's look-up of the same NID and its save, a NID is
registered once. -/
theorem registered_once {start : CaState} {events : List (Event CaOp.Answer Registration)}
    {pool : RegistrationPool}
    (run : Run (Guarded Unclaimed (registrations ca).Step) ⟨start, []⟩ events pool) :
    RegisteredOnce start pool := by
  have initial : Registering ca start ⟨start, []⟩ := by
    refine ⟨?_, ⟨[], (List.append_nil _).symm, List.nodup_nil⟩, ?_, ?_, ?_, ?_⟩
    · intro i call p found
      cases found
    · intro i call frame found
      cases found
    · intro i call p nid found
      cases found
    · intro i j first second p q nid found
      cases found
    · intro i j first second frame other found
      cases found
  have registering := run.invariant (fun registering step => registering.step step) initial
  obtain ⟨added, records, distinct⟩ := registering.added
  refine ⟨registering.calls, added, records, fun record member other listed nid => ?_⟩
  rw [List.inj_on_of_nodup_map distinct member listed nid]

end

namespace TwoKeys
open Sample

def first : Registration := ⟨registration, .register⟩
def third : Registration :=
  ⟨.register "agent" "a2" "ed25519:third" ["nwp:query"] "\x7b\x7d" none, .register⟩
def second : Registration :=
  ⟨.register "agent" "a1" "ed25519:other" ["nwp:query"] "\x7b\x7d" none, .register⟩

def otherNid : String := "urn:nps:agent:example.org:a2"

/-- Another NID is registered while the first call is at work, and the first one asked for again. -/
def apart : List (Move Registration) :=
  [.start first, .run 0 2, .start third, .run 1 4, .run 0 2, .start second, .run 2 4]

/-- Both calls look the NID up before either saves. -/
def together : List (Move Registration) :=
  [.start first, .start second, .run 0 1, .run 1 1, .run 0 3, .run 1 3]

def played (moves : List (Move Registration)) :
    List (Event CaOp.Answer Registration) × RegistrationPool :=
  (registrations ca).play (handler 0) moves ⟨{}, []⟩

def frameAt (i : Nat) (pool : RegistrationPool) : Option IdentFrame :=
  match pool.threads[i]? with
  | some (_, .done (.ok frame)) => some frame
  | _ => none

theorem frameAt_some {i : Nat} {pool : RegistrationPool} {frame : IdentFrame}
    (found : frameAt i pool = some frame) :
    ∃ call, pool.threads[i]? = some (call, .done (.ok frame)) := by
  unfold frameAt at found
  split at found
  · rename_i call frame' here
    cases found
    exact ⟨call, here⟩
  · cases found

def unclaimed (pool : RegistrationPool) : Event CaOp.Answer Registration → Bool
  | .act _ (.getByNid nid) _ => (pool.shared.certs.getByNid nid).isSome ||
      pool.threads.all (spares ca nid)
  | _ => true

theorem unclaimed_sound {pool : RegistrationPool} {event : Event CaOp.Answer Registration}
    (careful : Careful ca pool) (met : unclaimed pool event = true) : Unclaimed pool event := by
  cases event with
  | start call => trivial
  | act thread op answer =>
    cases op with
    | getByNid nid =>
      intro free i call p found
      rcases Bool.or_eq_true_iff.mp met with taken | spared
      · rw [free] at taken
        cases taken
      · exact careful.spared spared found
    | _ => trivial

/-- The first two calls are certified, the third is refused. -/
theorem apart_registered_once : ∃ events pool,
    Run (Guarded Unclaimed (registrations ca).Step) ⟨{}, []⟩ events pool ∧
      RegisteredOnce {} pool ∧ pool.shared.certs.records.map (·.nid) = [otherNid, nid] := by
  have met : (registrations ca).playMeets (handler 0) unclaimed apart ⟨{}, []⟩ = true := by
    decide +kernel
  have sound (pool : RegistrationPool) (event : Event CaOp.Answer Registration)
      (met : unclaimed pool event = true) : unclaimed pool event = true := met
  have checked : Run (Guarded (fun pool event => unclaimed pool event = true)
      (registrations ca).Step) ⟨{}, []⟩ (played apart).1 (played apart).2 :=
    System.run_play_guarded (handler_faithful 0) sound apart ⟨{}, []⟩ met
  have idle : Careful ca ⟨{}, []⟩ := by
    intro i call p found
    cases found
  have run : Run (Guarded Unclaimed (registrations ca).Step) ⟨{}, []⟩ (played apart).1
      (played apart).2 :=
    checked.mono_of (fun careful step => Careful.step careful step.2)
      (fun careful step => ⟨unclaimed_sound careful step.1, step.2⟩) idle
  exact ⟨_, _, run, registered_once run, by decide +kernel⟩

/-- Both calls get a frame. -/
theorem together_twice : ∃ events pool, Run (registrations ca).Step ⟨{}, []⟩ events pool ∧
    ¬ RegisteredOnce {} pool := by
  have run : Run (registrations ca).Step ⟨{}, []⟩ (played together).1 (played together).2 :=
    System.run_play (handler_faithful 0) together _
  have nids : ∀ i < 2, (frameAt i (played together).2).map (·.nid) = some nid := by
    decide +kernel
  refine ⟨_, _, run, fun once => ?_⟩
  obtain ⟨frame, found, same⟩ := Option.map_eq_some_iff.mp (nids 0 Nat.zero_lt_two)
  obtain ⟨other, found', same'⟩ := Option.map_eq_some_iff.mp (nids 1 Nat.one_lt_two)
  obtain ⟨call, here⟩ := frameAt_some found
  obtain ⟨call', there⟩ := frameAt_some found'
  cases once.calls 0 1 call call' frame other here there (same.trans same'.symm)

end TwoKeys
end Nps.Nip.Ca
