import NpsSdk.Lib.JsonSame
import NpsSdk.Lib.Transition
import NpsSdk.Ndp.CanonicalForm

/-! What the announcements that reach a registry make of it, in any run and in any order. -/
namespace Nps.Ndp
open Json Transition

structure Call where
  frame : Value
  signatureValid : Bool
  receivedAt : Int

/-- A call, and its outcome when it returns. -/
structure Event where
  call : Call
  outcome : Option NdpRegistryAdmission

theorem rejected_quiet (code : String) : ∀ admission ∈ some (reject code),
    admission.decision = .rejected ∨ admission.decision = .duplicate := by
  intro admission member
  cases Option.mem_some_iff.mp member
  exact .inl rfl

theorem duplicate_quiet : ∀ admission ∈ some (accepted .duplicate),
    admission.decision = .rejected ∨ admission.decision = .duplicate := by
  intro admission member
  cases Option.mem_some_iff.mp member
  exact .inr rfl

section
variable [Nip.TimeText] [Nip.Sha256]

namespace NdpRegistryProfile

def next (registry : NdpRegistryProfile) (call : Call) :
    Option NdpRegistryAdmission × NdpRegistryProfile :=
  match registry.applyAnnounce call.frame call.signatureValid call.receivedAt with
  | .ok (admission, after) => (some admission, after)
  | .error _ => (none, registry)

def Step (registry : NdpRegistryProfile) (event : Event) (after : NdpRegistryProfile) : Prop :=
  registry.next event.call = (event.outcome, after)

theorem step_next (registry : NdpRegistryProfile) (call : Call) :
    registry.Step ⟨call, (registry.next call).1⟩ (registry.next call).2 := rfl

end NdpRegistryProfile

omit [Nip.Sha256] in
theorem readAnnounce_spec {securityProfile : String} {frame : Value} {announced : Announced}
    (read : readAnnounce securityProfile frame = some announced) :
    frame.asObject = some announced.object ∧
      stringValue announced.object "nid" = some announced.nid ∧
      timeValue announced.object "timestamp" = some announced.timestamp ∧
      numberValue announced.object "ttl" = some announced.ttl := by
  unfold readAnnounce at read
  simp only [Option.bind_eq_bind, Option.bind_eq_some_iff] at read
  obtain ⟨object, isObject, nid, hasNid, timestamp, hasTime, sequence, -, ttl, hasTtl, read⟩ := read
  split at read
  · cases read
    exact ⟨isObject, hasNid, hasTime, (Option.filter_eq_some_iff.mp hasTtl).1⟩
  · cases read

/-- An announcement that has passed every check that does not depend on the state. -/
structure Sound (securityProfile : String) (call : Call) (announced : Announced) (digest : String) :
    Prop where
  signed : call.signatureValid = true
  read : readAnnounce securityProfile call.frame = some announced
  timely : skewed securityProfile call.receivedAt announced.timestamp = .ok false
  digested : ∃ canonical, canonicalAnnounceJson call.frame = .ok canonical ∧
    digest = Hex.encode (Nip.Sha256.digest (Text.utf8 canonical))

def Fresh (call : Call) (announced : Announced) (digest : String) (entry : Entry) : Prop :=
  freshnessDeadline announced.object = some entry.expiresAt ∧ call.receivedAt < entry.expiresAt ∧
    entry.frame = call.frame ∧ entry.signedDigest = digest

/-- Everything that an announcement can do. -/
inductive Applied (registry : NdpRegistryProfile) (call : Call) :
    Option NdpRegistryAdmission → NdpRegistryProfile → Prop where
  | kept {outcome : Option NdpRegistryAdmission}
      (quiet : ∀ admission ∈ outcome, admission.decision = .rejected ∨ admission.decision = .duplicate) :
      Applied registry call outcome registry
  | refreshed {announced : Announced} {digest : String} {current entry : Entry}
      (sound : Sound registry.securityProfile call announced digest)
      (highest : registry.sequences.lookup announced.nid = some announced.sequence)
      (held : registry.entries.lookup announced.nid = some current)
      (body : current.signedDigest = digest)
      (beat : sameLiveness current.frame call.frame = false)
      (fresh : Fresh call announced digest entry) :
      Applied registry call (some (accepted .refreshed))
        { registry with entries := registry.entries.insert announced.nid entry }
  | removed {announced : Announced} {digest : String}
      (sound : Sound registry.securityProfile call announced digest)
      (above : ∀ highest, registry.sequences.lookup announced.nid = some highest →
        highest < announced.sequence)
      (ended : announced.ttl = 0) :
      Applied registry call (some (accepted .removed))
        { registry with
          sequences := registry.sequences.insert announced.nid announced.sequence
          entries := registry.entries.erase announced.nid }
  | accepted {announced : Announced} {digest : String} {entry : Entry}
      (sound : Sound registry.securityProfile call announced digest)
      (above : ∀ highest, registry.sequences.lookup announced.nid = some highest →
        highest < announced.sequence)
      (lasting : announced.ttl ≠ 0)
      (fresh : Fresh call announced digest entry) :
      Applied registry call (some (accepted .accepted))
        { registry with
          sequences := registry.sequences.insert announced.nid announced.sequence
          entries := registry.entries.insert announced.nid entry }

section
variable {registry : NdpRegistryProfile} {call : Call} {announced : Announced} {digest : String}

theorem repeated_spec (sound : Sound registry.securityProfile call announced digest)
    (highest : registry.sequences.lookup announced.nid = some announced.sequence) :
    Applied registry call
      (some (registry.repeated call.frame announced digest call.receivedAt).1)
      (registry.repeated call.frame announced digest call.receivedAt).2 := by
  unfold NdpRegistryProfile.repeated
  split
  · exact .kept duplicate_quiet
  · rename_i current held
    split
    · exact .kept (rejected_quiet _)
    · rename_i body
      split
      · exact .kept duplicate_quiet
      · rename_i beat
        split
        · exact .kept (rejected_quiet _)
        · rename_i expiresAt deadline
          split
          · exact .kept (rejected_quiet _)
          · rename_i late
            exact .refreshed sound highest held (not_not.mp body) (Bool.eq_false_of_not_eq_true beat)
              ⟨deadline, not_le.mp late, rfl, rfl⟩

theorem advanced_spec (sound : Sound registry.securityProfile call announced digest)
    (above : ∀ highest, registry.sequences.lookup announced.nid = some highest →
      highest < announced.sequence) :
    Applied registry call
      (some (registry.advanced call.frame announced digest call.receivedAt).1)
      (registry.advanced call.frame announced digest call.receivedAt).2 := by
  unfold NdpRegistryProfile.advanced
  split
  · rename_i ended
    exact .removed sound above ended
  · rename_i lasting
    split
    · exact .kept (rejected_quiet _)
    · rename_i expiresAt deadline
      split
      · exact .kept (rejected_quiet _)
      · rename_i late
        exact .accepted sound above lasting ⟨deadline, not_le.mp late, rfl, rfl⟩

theorem sequenced_spec (sound : Sound registry.securityProfile call announced digest) :
    Applied registry call
      (some (registry.sequenced call.frame announced digest call.receivedAt).1)
      (registry.sequenced call.frame announced digest call.receivedAt).2 := by
  unfold NdpRegistryProfile.sequenced
  split
  · rename_i unknown
    refine advanced_spec sound fun highest found => ?_
    rw [unknown] at found
    cases found
  · rename_i highest known
    split
    · exact .kept (rejected_quiet _)
    · split
      · rename_i equal
        exact repeated_spec sound (equal ▸ known)
      · rename_i low different
        refine advanced_spec sound fun other found => ?_
        cases Option.some.inj (known.symm.trans found)
        omega

theorem next_spec (registry : NdpRegistryProfile) (call : Call) :
    Applied registry call (registry.next call).1 (registry.next call).2 := by
  unfold NdpRegistryProfile.next NdpRegistryProfile.applyAnnounce
  by_cases signed : call.signatureValid = false
  · rw [if_pos signed]
    exact .kept (rejected_quiet _)
  rw [if_neg signed]
  cases read : readAnnounce registry.securityProfile call.frame with
  | none => exact .kept (rejected_quiet _)
  | some announced =>
    dsimp only
    cases timely : skewed registry.securityProfile call.receivedAt announced.timestamp with
    | error panic => exact .kept fun admission member => by cases member
    | ok late =>
      cases late with
      | true => exact .kept (rejected_quiet _)
      | false =>
        dsimp only
        cases canonical : canonicalAnnounceJson call.frame with
        | error message => exact .kept (rejected_quiet _)
        | ok text =>
          exact sequenced_spec
            ⟨Bool.eq_true_of_not_eq_false signed, read, timely, text, canonical, rfl⟩

end

theorem applied_of_step {registry after : NdpRegistryProfile} {event : Event}
    (step : registry.Step event after) : Applied registry event.call event.outcome after := by
  have spec := next_spec registry event.call
  rwa [show registry.next event.call = (event.outcome, after) from step] at spec

/-- The frame of an entry was accepted or refreshed, under the sequence that is the highest of its
node, and the entry expires when that frame says. -/
structure Carried (registry : NdpRegistryProfile) (nid : String) (entry : Entry) (event : Event) :
    Prop where
  outcome : event.outcome = some (accepted .accepted) ∨ event.outcome = some (accepted .refreshed)
  announced : ∃ announced digest, Sound registry.securityProfile event.call announced digest ∧
    announced.nid = nid ∧ registry.sequences.lookup nid = some announced.sequence ∧
    Fresh event.call announced digest entry

def Stored (state : NdpRegistryProfile × List Event) : Prop :=
  ∀ nid entry, state.1.entries.lookup nid = some entry →
    ∃ event ∈ state.2, Carried state.1 nid entry event

/-- The node has no entry, unless a higher sequence has been accepted. -/
def Absent (nid : String) (sequence : Nat) (state : NdpRegistryProfile × List Event) : Prop :=
  (state.1.entries.lookup nid = none ∧
      ∃ highest, state.1.sequences.lookup nid = some highest ∧ sequence ≤ highest) ∨
    ∃ event ∈ state.2, event.outcome = some (accepted .accepted) ∧
      ∃ announced digest, Sound state.1.securityProfile event.call announced digest ∧
        announced.nid = nid ∧ sequence < announced.sequence

namespace Applied
variable {registry after : NdpRegistryProfile} {call : Call} {outcome : Option NdpRegistryAdmission}

theorem securityProfile (applied : Applied registry call outcome after) :
    after.securityProfile = registry.securityProfile := by
  cases applied <;> rfl

theorem sequences (applied : Applied registry call outcome after) {nid : String} {highest : Nat}
    (known : registry.sequences.lookup nid = some highest) :
    ∃ later, after.sequences.lookup nid = some later ∧ highest ≤ later := by
  have raised {announced : Announced} (above : ∀ highest,
      registry.sequences.lookup announced.nid = some highest → highest < announced.sequence) :
      ∃ later, (registry.sequences.insert announced.nid announced.sequence).lookup nid = some later ∧
        highest ≤ later := by
    rw [AList.lookup_insert_if]
    split
    · rename_i same
      exact ⟨_, rfl, (above highest (same ▸ known)).le⟩
    · exact ⟨highest, known, le_refl _⟩
  cases applied with
  | kept => exact ⟨highest, known, le_refl _⟩
  | refreshed => exact ⟨highest, known, le_refl _⟩
  | removed sound above => exact raised above
  | accepted sound above => exact raised above

theorem quiet (applied : Applied registry call outcome after) {admission : NdpRegistryAdmission}
    (said : outcome = some admission)
    (quiet : admission.decision = .rejected ∨ admission.decision = .duplicate) : after = registry := by
  cases applied with
  | kept => rfl
  | refreshed =>
    cases Option.some.inj said
    rcases quiet with rejected | duplicate
    · cases rejected
    · cases duplicate
  | removed =>
    cases Option.some.inj said
    rcases quiet with rejected | duplicate
    · cases rejected
    · cases duplicate
  | accepted =>
    cases Option.some.inj said
    rcases quiet with rejected | duplicate
    · cases rejected
    · cases duplicate

theorem removal (applied : Applied registry call outcome after)
    (removed : outcome = some (Ndp.accepted .removed)) :
    ∃ announced digest, Sound registry.securityProfile call announced digest ∧ announced.ttl = 0 ∧
      after.entries.lookup announced.nid = none ∧
      after.sequences.lookup announced.nid = some announced.sequence := by
  cases applied with
  | kept quiet => cases quiet _ removed <;> contradiction
  | refreshed => cases removed
  | accepted => cases removed
  | removed sound above ended =>
    exact ⟨_, _, sound, ended, AList.lookup_erase _ _, AList.lookup_insert _⟩

end Applied

theorem Carried.kept {registry after : NdpRegistryProfile} {nid : String} {entry : Entry}
    {event : Event} (carried : Carried registry nid entry event)
    (profile : after.securityProfile = registry.securityProfile)
    (sequence : after.sequences.lookup nid = registry.sequences.lookup nid) :
    Carried after nid entry event := by
  obtain ⟨outcome, announced, digest, sound, named, highest, fresh⟩ := carried
  exact ⟨outcome, announced, digest, profile ▸ sound, named, sequence ▸ highest, fresh⟩

theorem stored_step {state after : NdpRegistryProfile × List Event} {event : Event}
    (stored : Stored state) (step : Recorded NdpRegistryProfile.Step state event after) :
    Stored after := by
  obtain ⟨step, history⟩ := step
  obtain ⟨registry, events⟩ := state
  obtain ⟨registry', events'⟩ := after
  cases history
  have applied := applied_of_step step
  intro nid entry found
  obtain ⟨call, outcome⟩ := event
  have older {old : Entry} (held : registry.entries.lookup nid = some old)
      (sequence : registry'.sequences.lookup nid = registry.sequences.lookup nid) :
      ∃ event ∈ events ++ [⟨call, outcome⟩], Carried registry' nid old event := by
    obtain ⟨event, member, carried⟩ := stored nid old held
    exact ⟨event, List.mem_append_left _ member, carried.kept applied.securityProfile sequence⟩
  have newer (carried : Carried registry' nid entry ⟨call, outcome⟩) :
      ∃ event ∈ events ++ [⟨call, outcome⟩], Carried registry' nid entry event :=
    ⟨_, List.mem_append_right _ List.mem_cons_self, carried⟩
  cases applied with
  | kept => exact older found rfl
  | @refreshed announced digest current made sound highest held body beat fresh =>
    by_cases same : nid = announced.nid
    · subst same
      rw [AList.lookup_insert] at found
      cases found
      exact newer ⟨.inr rfl, announced, digest, sound, rfl, highest, fresh⟩
    · rw [AList.lookup_insert_ne same] at found
      exact older found rfl
  | @removed announced digest sound above ended =>
    by_cases same : nid = announced.nid
    · subst same
      rw [AList.lookup_erase] at found
      cases found
    · rw [AList.lookup_erase_ne same] at found
      exact older found (AList.lookup_insert_ne same)
  | @accepted announced digest made sound above lasting fresh =>
    by_cases same : nid = announced.nid
    · subst same
      rw [AList.lookup_insert] at found
      cases found
      exact newer ⟨.inl rfl, announced, digest, sound, rfl, AList.lookup_insert _, fresh⟩
    · rw [AList.lookup_insert_ne same] at found
      exact older found (AList.lookup_insert_ne same)

theorem absent_step {nid : String} {sequence : Nat} {state after : NdpRegistryProfile × List Event}
    {event : Event} (absent : Absent nid sequence state)
    (step : Recorded NdpRegistryProfile.Step state event after) : Absent nid sequence after := by
  obtain ⟨step, history⟩ := step
  obtain ⟨registry, events⟩ := state
  obtain ⟨registry', events'⟩ := after
  cases history
  have applied := applied_of_step step
  obtain ⟨call, outcome⟩ := event
  rcases absent with ⟨missing, highest, known, reached⟩ | ⟨event, member, accepted, announced, digest, sound, rest⟩
  · obtain ⟨later, known', raised⟩ := applied.sequences known
    have still (none_ : registry'.entries.lookup nid = none) :
        Absent nid sequence (registry', events ++ [⟨call, outcome⟩]) :=
      .inl ⟨none_, later, known', reached.trans raised⟩
    cases applied with
    | kept => exact still missing
    | @refreshed announced digest current made sound highest held =>
      refine still ?_
      rw [AList.lookup_insert_ne]
      · exact missing
      · rintro rfl
        cases missing.symm.trans held
    | @removed announced digest sound above ended =>
      refine still ?_
      rw [AList.lookup_erase_if]
      split
      · rfl
      · exact missing
    | @accepted announced digest made sound above lasting fresh =>
      by_cases same : nid = announced.nid
      · subst same
        have higher := above highest known
        exact .inr ⟨_, List.mem_append_right _ List.mem_cons_self, rfl, announced, digest, sound, rfl,
          lt_of_le_of_lt reached higher⟩
      · exact still ((AList.lookup_insert_ne same).trans missing)
  · exact .inr ⟨event, List.mem_append_left _ member, accepted, announced, digest,
      applied.securityProfile ▸ sound, rest⟩

section
variable {registry t : NdpRegistryProfile} {events : List Event}

theorem profile_run (run : Run NdpRegistryProfile.Step registry events t) :
    t.securityProfile = registry.securityProfile := by
  refine run.invariant (fun {s e u} same step => ?_) rfl
    (P := fun s => s.securityProfile = registry.securityProfile)
  exact (applied_of_step step).securityProfile.trans same

theorem sequences_run (run : Run NdpRegistryProfile.Step registry events t) {nid : String}
    {highest : Nat} (known : registry.sequences.lookup nid = some highest) :
    ∃ raised, t.sequences.lookup nid = some raised ∧ highest ≤ raised := by
  refine run.invariant (P := fun s => ∃ raised, s.sequences.lookup nid = some raised ∧ highest ≤ raised)
    (fun {s e u} holds step => ?_) ⟨highest, known, le_refl _⟩
  obtain ⟨raised, found, above⟩ := holds
  obtain ⟨higher, found', above'⟩ := (applied_of_step step).sequences found
  exact ⟨higher, found', above.trans above'⟩

theorem stored_run {securityProfile : String}
    (run : Run NdpRegistryProfile.Step (.new securityProfile) events t) : Stored (t, events) := by
  have recorded := run.recorded []
  rw [List.nil_append] at recorded
  exact recorded.invariant stored_step fun nid entry found => by cases found

theorem absent_run (run : Run NdpRegistryProfile.Step registry events t) {nid : String} {sequence : Nat}
    (missing : registry.entries.lookup nid = none)
    (highest : registry.sequences.lookup nid = some sequence) : Absent nid sequence (t, events) := by
  have recorded := run.recorded []
  rw [List.nil_append] at recorded
  exact recorded.invariant absent_step (.inl ⟨missing, sequence, highest, le_refl _⟩)

end
end
end Nps.Ndp
