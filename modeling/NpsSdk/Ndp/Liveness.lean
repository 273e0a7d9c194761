import NpsSdk.Ndp.RegistryAdmission

/-! How long an announcement keeps its node live. The deadline is counted from a beat that nobody
signs and that no check compares with the clock. -/
namespace Nps.Ndp
open Json Transition

section
variable [Nip.TimeText] [Nip.Sha256]

/-- The beat is not from the future, but for the tolerance of clocks. -/
def Credible (call : Call) (announced : Announced) : Prop :=
  ∀ seen, timeValue announced.object "last_seen" = some seen → seen ≤ call.receivedAt + 300

/-- A fresh announcement that would be stored has a credible beat, and if it would take the place of
an entry under its own sequence, it does not expire before it. -/
def Timely (registry : NdpRegistryProfile) (call : Call) : Prop :=
  ∀ announced digest entry, Sound registry.securityProfile call announced digest →
    Fresh call announced digest entry →
    ((∀ highest, registry.sequences.lookup announced.nid = some highest → highest < announced.sequence) →
      announced.ttl ≠ 0 → Credible call announced) ∧
    ∀ current, registry.sequences.lookup announced.nid = some announced.sequence →
      registry.entries.lookup announced.nid = some current → current.signedDigest = digest →
      sameLiveness current.frame call.frame = false →
      Credible call announced ∧ current.expiresAt ≤ entry.expiresAt

def TimelyStep : NdpRegistryProfile → Event → NdpRegistryProfile → Prop :=
  Guarded (fun registry event => Timely registry event.call) NdpRegistryProfile.Step

/-- The entry was received in time and expires in time. -/
structure Received (entry : Entry) (event : Event) : Prop where
  frame : event.call.frame = entry.frame
  outcome : event.outcome = some (accepted .accepted) ∨ event.outcome = some (accepted .refreshed)
  bounded : ∃ object ttl, entry.frame.asObject = some object ∧ numberValue object "ttl" = some ttl ∧
    entry.expiresAt ≤ event.call.receivedAt + ttl + 300

def Bounded (state : NdpRegistryProfile × List Event) : Prop :=
  ∀ nid entry, state.1.entries.lookup nid = some entry → ∃ event ∈ state.2, Received entry event

omit [Nip.TimeText] [Nip.Sha256] in
theorem skewed_near {securityProfile : String} {receivedAt timestamp : Int}
    (shared : securityProfile ≠ "local-dev")
    (timely : skewed securityProfile receivedAt timestamp = .ok false) :
    timestamp ≤ receivedAt + 300 := by
  rw [skewed, if_neg shared] at timely
  split at timely
  · have near := of_decide_eq_false (Except.ok.inj timely)
    have := neg_abs_le (receivedAt - timestamp)
    omega
  · cases timely

/-- With a credible beat the deadline is at most the lifetime and the tolerance away. -/
theorem deadline_bounded {securityProfile : String} {call : Call} {announced : Announced}
    {digest : String} {entry : Entry} (shared : securityProfile ≠ "local-dev")
    (sound : Sound securityProfile call announced digest) (fresh : Fresh call announced digest entry)
    (credible : Credible call announced) :
    entry.expiresAt ≤ call.receivedAt + announced.ttl + 300 := by
  obtain ⟨isObject, -, time, ttl⟩ := readAnnounce_spec sound.read
  obtain ⟨deadline, -⟩ := fresh
  obtain ⟨source, beat, deadline⟩ := Option.bind_eq_some_iff.mp deadline
  obtain ⟨lifetime, counted, deadline⟩ := Option.bind_eq_some_iff.mp deadline
  have late : source ≤ call.receivedAt + 300 := by
    cases seen : timeValue announced.object "last_seen" with
    | some last =>
      rw [seen] at beat
      cases Option.some.inj beat
      exact credible _ seen
    | none =>
      rw [seen, time] at beat
      cases Option.some.inj beat
      exact skewed_near shared sound.timely
  have lasts : lifetime = announced.ttl := by
    rw [ttl] at counted
    exact (Option.some.inj (Option.filter_eq_some_iff.mp counted).1).symm
  have sum := Option.some.inj (Option.filter_eq_some_iff.mp deadline).1
  omega

theorem bounded_step {state after : NdpRegistryProfile × List Event} {event : Event}
    (shared : state.1.securityProfile ≠ "local-dev") (bounded : Bounded state)
    (step : Recorded TimelyStep state event after) : Bounded after := by
  obtain ⟨⟨timely, step⟩, history⟩ := step
  obtain ⟨registry, events⟩ := state
  obtain ⟨registry', events'⟩ := after
  cases history
  have applied := applied_of_step step
  obtain ⟨call, outcome⟩ := event
  intro nid entry found
  have older (held : registry.entries.lookup nid = some entry) :
      ∃ event ∈ events ++ [⟨call, outcome⟩], Received entry event := by
    obtain ⟨event, member, received⟩ := bounded nid entry held
    exact ⟨event, List.mem_append_left _ member, received⟩
  have newer {announced : Announced} {digest : String}
      (sound : Sound registry.securityProfile call announced digest)
      (fresh : Fresh call announced digest entry) (credible : Credible call announced)
      (stored : outcome = some (accepted .accepted) ∨ outcome = some (accepted .refreshed)) :
      ∃ event ∈ events ++ [⟨call, outcome⟩], Received entry event := by
    obtain ⟨isObject, -, -, ttl⟩ := readAnnounce_spec sound.read
    have frame : call.frame = entry.frame := fresh.2.2.1.symm
    exact ⟨_, List.mem_append_right _ List.mem_cons_self, frame, stored, announced.object, announced.ttl,
      frame ▸ isObject, ttl, deadline_bounded shared sound fresh credible⟩
  cases applied with
  | kept => exact older found
  | @refreshed announced digest current made sound highest held body beat fresh =>
    rw [AList.lookup_insert_if] at found
    split at found
    · cases found
      obtain ⟨credible, -⟩ := (timely announced digest _ sound fresh).2 current highest held body beat
      exact newer sound fresh credible (.inr rfl)
    · exact older found
  | removed =>
    rw [AList.lookup_erase_if] at found
    split at found
    · cases found
    · exact older found
  | @accepted announced digest made sound above lasting fresh =>
    rw [AList.lookup_insert_if] at found
    split at found
    · cases found
      have credible := (timely announced digest _ sound fresh).1 above lasting
      exact newer sound fresh credible (.inl rfl)
    · exact older found

/-- A refresh under the condition moves no deadline backwards. -/
theorem refresh_forward {registry after : NdpRegistryProfile} {call : Call}
    {outcome : Option NdpRegistryAdmission} (timely : Timely registry call)
    (applied : Applied registry call outcome after) (refreshed : outcome = some (accepted .refreshed))
    {nid : String} {before : Entry} (held : registry.entries.lookup nid = some before) :
    ∃ later, after.entries.lookup nid = some later ∧ before.expiresAt ≤ later.expiresAt := by
  cases applied with
  | kept quiet => cases quiet _ refreshed <;> contradiction
  | removed => cases refreshed
  | accepted => cases refreshed
  | @refreshed announced digest current made sound highest known body beat fresh =>
    rw [AList.lookup_insert_if]
    split
    · rename_i same
      subst same
      cases Option.some.inj (known.symm.trans held)
      exact ⟨made, rfl, ((timely announced digest made sound fresh).2 _ highest known body beat).2⟩
    · exact ⟨before, held, le_refl _⟩

/-- In a registry that is not a local one, in every run whose announcements are timely, the deadline of
an entry is never later than the receipt of its frame by more than its lifetime and the tolerance of
clocks, and a refresh moves no deadline backwards. -/
theorem liveness_bounded {securityProfile : String} (shared : securityProfile ≠ "local-dev")
    {events : List Event} {t : NdpRegistryProfile}
    (run : Run TimelyStep (.new securityProfile) events t) :
    (∀ nid entry, t.entries.lookup nid = some entry → ∃ event ∈ events, Received entry event) ∧
    ∀ event u, TimelyStep t event u → event.outcome = some (accepted .refreshed) →
      ∀ nid before, t.entries.lookup nid = some before →
        ∃ later, u.entries.lookup nid = some later ∧ before.expiresAt ≤ later.expiresAt := by
  constructor
  · have recorded := run.recorded []
    rw [List.nil_append] at recorded
    have both : (t, events).1.securityProfile = securityProfile ∧ Bounded (t, events) := by
      refine recorded.invariant
        (P := fun state => state.1.securityProfile = securityProfile ∧ Bounded state)
        (fun {s e u} holds step => ⟨?_, bounded_step (holds.1 ▸ shared) holds.2 step⟩)
        ⟨rfl, fun nid entry found => by cases found⟩
      exact (applied_of_step step.1.2).securityProfile.trans holds.1
    exact both.2
  · intro event u step refreshed nid before held
    exact refresh_forward step.1 (applied_of_step step.2) refreshed held

end

namespace FarBeat

abbrev clock : Nip.TimeText :=
  .table [(0, "1970-01-01T00:00:00Z"), (Nip.Duration.seconds 100, "1970-01-01T00:01:40Z"),
    (Nip.Duration.seconds 1000000, "1970-01-12T13:46:40Z")]

abbrev hash : Nip.Sha256 := ⟨fun _ => []⟩

def signedFields : Fields := [("graph_seq", integer 1), ("nid", .string "urn:nps:node:example.com:a"),
  ("timestamp", .string "1970-01-01T00:00:00Z"), ("ttl", integer 300)]

def beating (beat : String) : Fields := insert "last_seen" (.string beat) signedFields

/-- One announcement with the beat that a relay has added. -/
def beat (text : String) (receivedAt : Int) : Call := ⟨.object (beating text), true, receivedAt⟩

def first : Call := beat "1970-01-01T00:00:00Z" 10

def again : Call := beat "1970-01-01T00:01:40Z" 110

def relayed : Call := beat "1970-01-12T13:46:40Z" 10

theorem beat_timely {text : String} {receivedAt : Int} {registry : NdpRegistryProfile} (seen : Int)
    (parsed : letI := clock; timeValue (beating text) "last_seen" = some seen)
    (deadline : letI := clock; freshnessDeadline (beating text) = some (seen + 300))
    (near : seen ≤ receivedAt + 300)
    (held : ∀ current, registry.entries.lookup "urn:nps:node:example.com:a" = some current →
      current.expiresAt ≤ seen + 300) :
    letI := clock
    letI := hash
    Timely registry (beat text receivedAt) := by
  let _ := clock
  let _ := hash
  intro announced digest entry sound fresh
  obtain ⟨object, nid, -, -⟩ := readAnnounce_spec sound.read
  have object : announced.object = beating text := (Option.some.inj object).symm
  have credible : Credible (beat text receivedAt) announced := by
    intro late found
    rw [object] at found
    exact Option.some.inj (parsed.symm.trans found) ▸ near
  refine ⟨fun _ _ => credible, fun current _ known _ _ => ⟨credible, ?_⟩⟩
  rw [object] at nid
  have nid : announced.nid = "urn:nps:node:example.com:a" := (Option.some.inj nid).symm
  have expires := fresh.1
  rw [object] at expires
  rw [← Option.some.inj (deadline.symm.trans expires)]
  exact held current (nid ▸ known)

/-- The second beat comes later than the first and keeps the node live for longer. -/
theorem again_bounded :
    letI := clock
    letI := hash
    ∃ one two t u, Run TimelyStep (.new "production") [one, two] u ∧
      Run TimelyStep (.new "production") [one] t ∧ TimelyStep t two u ∧
      one.call = first ∧ two.call = again ∧ two.outcome = some (accepted .refreshed) ∧
      (∃ before later, t.entries.lookup "urn:nps:node:example.com:a" = some before ∧
        u.entries.lookup "urn:nps:node:example.com:a" = some later ∧ before.expiresAt = 300 ∧
        before.expiresAt ≤ later.expiresAt) ∧
      ∀ nid entry, u.entries.lookup nid = some entry → ∃ event ∈ [one, two], Received entry event := by
  let _ := clock
  let _ := hash
  have stored : (((NdpRegistryProfile.new "production").next first).2.entries.lookup
      "urn:nps:node:example.com:a").map Entry.expiresAt = some 300 := by
    decide +kernel
  obtain ⟨before, found, expires⟩ := Option.map_eq_some_iff.mp stored
  have one : TimelyStep (.new "production") _ _ :=
    ⟨beat_timely 0 (by decide +kernel) (by decide +kernel) (by decide)
      (fun _ held => by cases held), NdpRegistryProfile.step_next (.new "production") first⟩
  have two : TimelyStep ((NdpRegistryProfile.new "production").next first).2 _ _ :=
    ⟨beat_timely 100 (by decide +kernel) (by decide +kernel) (by decide) (by
      intro current held
      cases Option.some.inj (found.symm.trans held)
      rw [expires]
      decide), NdpRegistryProfile.step_next _ again⟩
  have refreshed : (((NdpRegistryProfile.new "production").next first).2.next again).1 =
      some (accepted .refreshed) := by
    decide +kernel
  have both := Run.next one (.single two)
  obtain ⟨later, kept, forward⟩ := (liveness_bounded (by decide) (.single one)).2 _ _ two refreshed _
    before found
  exact ⟨_, _, _, _, both, .single one, two, rfl, rfl, refreshed,
    ⟨before, later, found, kept, expires, forward⟩, (liveness_bounded (by decide) both).1⟩

theorem relayed_unbounded : ¬ ∀ [Nip.TimeText] [Nip.Sha256] (securityProfile : String)
    (events : List Event) (t : NdpRegistryProfile), securityProfile ≠ "local-dev" →
    Run NdpRegistryProfile.Step (.new securityProfile) events t →
    (events.map fun event => event.call.receivedAt).Pairwise (· ≤ ·) →
    ∀ nid entry, t.entries.lookup nid = some entry → ∃ event ∈ events, Received entry event := by
  intro claimed
  let _ := clock
  let _ := hash
  have stored : (((NdpRegistryProfile.new "production").next relayed).2.entries.lookup
      "urn:nps:node:example.com:a").map Entry.expiresAt = some 1000300 := by
    decide +kernel
  obtain ⟨entry, found, expires⟩ := Option.map_eq_some_iff.mp stored
  have step := NdpRegistryProfile.step_next (.new "production") relayed
  obtain ⟨event, member, received⟩ := claimed "production" _ _ (by decide) (.single step)
    (List.pairwise_singleton _ _) _ entry found
  cases List.mem_singleton.mp member
  obtain ⟨object, ttl, isObject, lifetime, bound⟩ := received.bounded
  rw [← received.frame] at isObject
  cases Option.some.inj isObject
  have lasts : ttl = 300 := (Option.some.inj (lifetime.symm.trans rfl))
  rw [expires, lasts] at bound
  exact absurd bound (by decide)

end FarBeat
end Nps.Ndp
