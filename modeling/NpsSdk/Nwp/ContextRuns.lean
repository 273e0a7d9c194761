import NpsSdk.Lib.Transition
import NpsSdk.Nwp.ContextInvariant

/-! Runs of the context store: calls of any number of owners, one after the other under its
lock, at times of a clock that does not go back. -/
namespace Nps.Nwp.LlmContext
open Nip (Instant Sha256)
open Outcome Transition

inductive Call where
  | reserve (request : MutationRequest) (newReservationId : StoreResult String)
  | commit (reservation : Reservation) (assistant : Message) (factory : Nat → StoreResult String)
  | abort (reservation : Reservation) (errorCode : Option String)
  | release (owner : Owner) (contextId : String) (baseVersion : Nat) (idempotency : String)
  | status (owner : Owner) (contextId idempotency : Option String)
  | snapshot (owner : Owner) (contextId : String)
  | sweepExpired

inductive Answer where
  | reserved (result : StoreResult Reservation)
  | committed (result : StoreResult Receipt)
  | aborted (result : StoreResult Unit)
  | released (result : StoreResult Receipt)
  | status (result : StoreResult Status)
  | snapshot (result : StoreResult Snapshot)
  | swept (result : StoreResult Nat)

section Performing
variable [Sha256] [Rfc3339]

def Call.perform (options : StoreOptions) (s : StoreState) (now : Instant) :
    Call → Answer × StoreState
  | reserve request newReservationId =>
    (s.reserve options now request newReservationId).map .reserved id
  | commit reservation assistant factory =>
    (s.commit options now reservation assistant factory).map .committed id
  | abort reservation errorCode => (s.abort options now reservation errorCode).map .aborted id
  | release owner contextId baseVersion idempotency =>
    (s.release options now owner contextId baseVersion idempotency).map .released id
  | status owner contextId idempotency =>
    (s.status options now owner contextId idempotency).map .status id
  | snapshot owner contextId => (s.snapshot options now owner contextId).map .snapshot id
  | sweepExpired => (s.sweepExpired options now).map .swept id

/-- The store with the last time of the clock and the reservation ids given out so far. -/
structure World where
  store : StoreState := {}
  clock : Instant
  issued : List String := []

structure Event where
  now : Instant
  call : Call
  answer : Answer

def Answer.reservationId : Answer → Option String
  | reserved (.ok reservation) => some reservation.reservationId
  | _ => none

/-- The clock goes on, the call is performed, and a reservation id given out is a new one. -/
structure Step (options : StoreOptions) (w : World) (event : Event) (after : World) : Prop where
  clock : w.clock ≤ event.now ∧ after.clock = event.now
  performed : event.call.perform options w.store event.now = (event.answer, after.store)
  fresh : ∀ id ∈ event.answer.reservationId, id ∉ w.issued
  issued : after.issued = event.answer.reservationId.toList ++ w.issued

def Reachable (options : StoreOptions) (w : World) : Prop :=
  ∃ start events, Run (Step options) { clock := start } events w

end Performing

def Older (s after : StoreState) : Prop :=
  ∀ contextId entry, after.contexts.lookup contextId = some entry →
    ∃ before, s.contexts.lookup contextId = some before ∧ before.version ≤ entry.version

/-- A call makes at most one change, or two that add no context. -/
inductive Operates (options : StoreOptions) (now : Instant) (fresh : String → Prop)
    (s after : StoreState) : Prop where
  | none : after = s → Operates options now fresh s after
  | one : Change options now fresh s after → Operates options now fresh s after
  | two {middle : StoreState} : Change options now fresh s middle → Older s middle →
      Change options now fresh middle after → Older middle after →
      Operates options now fresh s after

section Changes
variable {options : StoreOptions} {now : Instant} {fresh : String → Prop} {s after : StoreState}

theorem Older.trans {middle : StoreState} (first : Older s middle) (second : Older middle after) :
    Older s after := by
  intro contextId entry there
  obtain ⟨between, found, older⟩ := second contextId entry there
  obtain ⟨before, origin, oldest⟩ := first contextId between found
  exact ⟨before, origin, oldest.trans older⟩

theorem older_swept : Older s (s.swept options now) := by
  intro contextId entry there
  obtain ⟨before, found, rfl⟩ := StoreState.swept_origin there
  exact ⟨before, found, Nat.le_of_eq ContextEntry.expire_version.symm⟩

theorem older_install {data : ReservationData} (admitted : Admitted options s data) :
    Older s (s.install options now data) := by
  intro contextId entry there
  rw [Consistent.install_contexts admitted] at there
  split at there
  · obtain ⟨before, found, rfl⟩ := Option.map_eq_some_iff.mp there
    exact ⟨before, found, Nat.le_refl _⟩
  · exact ⟨entry, there, Nat.le_refl _⟩

theorem older_insert {contextId : String} {before entry : ContextEntry}
    {idempotency : Assoc IdempotencyKey IdempotencyEntry}
    {reservations : Assoc String ReservationData}
    (there : s.contexts.lookup contextId = some before) (later : before.version ≤ entry.version) :
    Older s ⟨s.contexts.insert contextId entry, idempotency, reservations⟩ := by
  intro other found after
  rw [AList.lookup_insert_if] at after
  split at after
  · rename_i same
    subst same
    cases after
    exact ⟨before, there, later⟩
  · exact ⟨found, after, Nat.le_refl _⟩

theorem older_abandon {data : ReservationData} {outcome : IdempotencyEntry} :
    Older s ((s.clearReservation data).settle data outcome) := by
  intro contextId entry after
  change (s.clearReservation data).contexts.lookup contextId = some entry at after
  rw [Consistent.clearReservation_contexts] at after
  obtain ⟨before, found, rfl⟩ := Option.map_eq_some_iff.mp after
  refine ⟨before, found, ?_⟩
  split <;> exact Nat.le_refl _

/-- No change makes a context younger that it does not add. -/
theorem Change.versions (change : Change options now fresh s after) {contextId : String}
    {before entry : ContextEntry} (there : s.contexts.lookup contextId = some before)
    (found : after.contexts.lookup contextId = some entry) : before.version ≤ entry.version := by
  have of_older (older : Older s after) : before.version ≤ entry.version := by
    obtain ⟨original, same, le⟩ := older contextId entry found
    cases there.symm.trans same
    exact le
  cases change with
  | sweep => exact of_older older_swept
  | install admitted unused new => exact of_older (older_install admitted)
  | create expiry assistant live adds free ended =>
    change (s.contexts.insert _ _).lookup contextId = some entry at found
    rw [AList.lookup_insert_if, if_neg] at found
    · cases there.symm.trans found
      exact Nat.le_refl _
    · rintro rfl
      cases free.symm.trans there
  | mutate expiry assistant live mutates named origin ended =>
    refine of_older (older_insert origin ?_)
    rw [(StoreState.mutatedEntry_spec _ _ expiry assistant).1]
    exact Nat.le_succ _
  | abandon live ended => exact of_older older_abandon
  | release origin idle unclaimed ended => exact of_older (older_insert origin (Nat.le_succ _))

/-- A live reservation was live before or is new. -/
theorem Change.live (change : Change options now fresh s after) {r : String}
    {data : ReservationData} (live : after.reservations.lookup r = some data) :
    s.reservations.lookup r = some data ∨ fresh r := by
  have of_erase {closed : String} (live : (s.reservations.erase closed).lookup r = some data) :
      s.reservations.lookup r = some data := by
    rw [AList.lookup_erase_if] at live
    split at live
    · cases live
    · exact live
  cases change with
  | sweep => exact .inl live
  | install admitted unused new =>
    change (s.reservations.insert _ _).lookup r = some data at live
    rw [AList.lookup_insert_if] at live
    split at live
    · rename_i same
      exact .inr (same ▸ new)
    · exact .inl live
  | create => exact .inl (of_erase live)
  | mutate => exact .inl (of_erase live)
  | abandon =>
    rw [Consistent.clearReservation_eq] at live
    exact .inl (of_erase live)
  | release => exact .inl live

/-- The claim of a reservation that stays live stays as it is. -/
theorem Change.claim (change : Change options now fresh s after) (consistent : Consistent options s)
    {r : String} {data : ReservationData} {outcome : IdempotencyEntry}
    (live : s.reservations.lookup r = some data)
    (still : (after.reservations.lookup r).isSome)
    (claim : s.idempotency.lookup (completeKey data.request) = some outcome) :
    after.idempotency.lookup (completeKey data.request) = some outcome := by
  obtain ⟨busyOutcome, found, busy⟩ := consistent.claimed r data live
  cases found.symm.trans claim
  have of_settle {closed : ReservationData} {other : IdempotencyEntry}
      (there : s.reservations.lookup closed.reservationId = some closed)
      (still : ((s.reservations.erase closed.reservationId).lookup r).isSome) :
      (s.idempotency.insert (completeKey closed.request) other).lookup (completeKey data.request) =
        some outcome := by
    rw [AList.lookup_insert_if, if_neg]
    · exact claim
    · intro same
      have ends := consistent.sole _ _ _ _ live there same
      rw [ends, AList.lookup_erase] at still
      cases still
  cases change with
  | sweep => exact StoreState.swept_kept claim (IdempotencyEntry.kept_busy busy)
  | install admitted unused new =>
    change (s.idempotency.insert _ _).lookup _ = some outcome
    rw [AList.lookup_insert_if, if_neg]
    · exact claim
    · intro same
      rw [same, admitted.free] at claim
      cases claim
  | create expiry assistant there => exact of_settle there still
  | mutate expiry assistant there => exact of_settle there still
  | abandon there ended =>
    rw [Consistent.clearReservation_eq] at still ⊢
    exact of_settle there still
  | release there idle unclaimed ended =>
    change (s.idempotency.insert _ _).lookup _ = some outcome
    rw [AList.lookup_insert_if, if_neg]
    · exact claim
    · intro same
      rw [same, unclaimed] at claim
      cases claim

/-- An outcome that is not busy stays until its time. -/
theorem Change.outcome (change : Change options now fresh s after)
    (consistent : Consistent options s) {key : IdempotencyKey} {outcome : IdempotencyEntry}
    (found : s.idempotency.lookup key = some outcome) (ended : outcome.state ≠ .busy) :
    after.idempotency.lookup key = some outcome ∨ outcome.retainUntil ≤ now := by
  have of_insert {other : IdempotencyKey} {claim : IdempotencyEntry}
      (different : key ≠ other) : (s.idempotency.insert other claim).lookup key = some outcome := by
    rw [AList.lookup_insert_if, if_neg different]
    exact found
  have of_settle {closed : ReservationData}
      (there : s.reservations.lookup closed.reservationId = some closed) :
      key ≠ completeKey closed.request := by
    rintro rfl
    obtain ⟨claim, claimed, busy⟩ := consistent.claimed _ _ there
    cases found.symm.trans claimed
    exact ended busy
  cases change with
  | sweep =>
    by_cases kept : outcome.kept now = true
    · exact .inl (StoreState.swept_kept found kept)
    · refine .inr ?_
      simp only [IdempotencyEntry.kept, ended, decide_false, Bool.false_or, decide_eq_true_eq] at kept
      exact Int.not_lt.mp kept
  | install admitted unused new =>
    refine .inl (of_insert ?_)
    rintro rfl
    cases admitted.free.symm.trans found
  | create expiry assistant there => exact .inl (of_insert (of_settle there))
  | mutate expiry assistant there => exact .inl (of_insert (of_settle there))
  | abandon there =>
    rw [Consistent.clearReservation_eq]
    exact .inl (of_insert (of_settle there))
  | release there idle unclaimed =>
    refine .inl (of_insert ?_)
    rintro rfl
    cases unclaimed.symm.trans found

end Changes

section Calls
variable {options : StoreOptions} {now : Instant} {fresh : String → Prop} {s after : StoreState}

theorem Operates.preserves {P : StoreState → Prop} (operates : Operates options now fresh s after)
    (kept : ∀ {s t}, P s → Change options now fresh s t → P t) (initial : P s) : P after := by
  cases operates with
  | none same => exact same ▸ initial
  | one change => exact kept initial change
  | two first _ second _ => exact kept (kept initial first) second

theorem Operates.versions (operates : Operates options now fresh s after) {contextId : String}
    {before entry : ContextEntry} (there : s.contexts.lookup contextId = some before)
    (found : after.contexts.lookup contextId = some entry) : before.version ≤ entry.version := by
  cases operates with
  | none same =>
    subst same
    cases there.symm.trans found
    exact Nat.le_refl _
  | one change => exact change.versions there found
  | two _ first _ second =>
    obtain ⟨original, same, le⟩ := (first.trans second) contextId entry found
    cases there.symm.trans same
    exact le

theorem Operates.consistent (operates : Operates options now fresh s after)
    (consistent : Consistent options s) : Consistent options after :=
  operates.preserves (fun before change => before.change change) consistent

theorem Operates.live (operates : Operates options now fresh s after) {r : String}
    {data : ReservationData} (live : after.reservations.lookup r = some data) :
    s.reservations.lookup r = some data ∨ fresh r := by
  cases operates with
  | none same => exact .inl (same ▸ live)
  | one change => exact change.live live
  | two first _ second _ =>
    rcases second.live live with between | given
    · exact first.live between
    · exact .inr given

theorem Operates.claim (operates : Operates options now fresh s after)
    (consistent : Consistent options s) {r : String} {data : ReservationData}
    {outcome : IdempotencyEntry} (old : ¬ fresh r) (live : s.reservations.lookup r = some data)
    (still : (after.reservations.lookup r).isSome)
    (claim : s.idempotency.lookup (completeKey data.request) = some outcome) :
    after.idempotency.lookup (completeKey data.request) = some outcome := by
  cases operates with
  | none same => exact same ▸ claim
  | one change => exact change.claim consistent live still claim
  | two first _ second _ =>
    obtain ⟨last, there⟩ := Option.isSome_iff_exists.mp still
    have between := (second.live there).resolve_right old
    cases live.symm.trans ((first.live between).resolve_right old)
    have kept := first.claim consistent live (Option.isSome_iff_exists.mpr ⟨_, between⟩) claim
    exact second.claim (consistent.change first) between still kept

theorem Operates.outcome (operates : Operates options now fresh s after)
    (consistent : Consistent options s) {key : IdempotencyKey} {outcome : IdempotencyEntry}
    (found : s.idempotency.lookup key = some outcome) (ended : outcome.state ≠ .busy) :
    after.idempotency.lookup key = some outcome ∨ outcome.retainUntil ≤ now := by
  cases operates with
  | none same => exact .inl (same ▸ found)
  | one change => exact change.outcome consistent found ended
  | two first _ second _ =>
    rcases first.outcome consistent found ended with between | past
    · exact second.outcome (consistent.change first) between ended
    · exact .inr past

variable [Sha256] [Rfc3339]

theorem Call.perform_operates (call : Call)
    (unused : ∀ r, fresh r → s.reservations.lookup r = none)
    (new : ∀ id ∈ (call.perform options s now).1.reservationId, fresh id) :
    Operates options now fresh s (call.perform options s now).2 := by
  cases call with
  | reserve request newReservationId =>
    rcases s.reserve_cases options now request newReservationId
      with ⟨e, same⟩ | ⟨data, same, -, admitted⟩
    · simp only [perform, same]
      exact .one (.sweep s)
    · have given := new data.reservationId (by simp only [perform, same]; rfl)
      simp only [perform, same]
      exact .two (.sweep s) older_swept (.install admitted (unused _ given) given)
        (older_install admitted)
  | commit reservation assistant factory =>
    rcases s.commit_cases options now reservation assistant factory
      with ⟨e, same⟩ | ⟨data, -, live, ⟨e, same⟩ | ⟨receipt, later, same, committed⟩⟩
    · simp only [perform, same]
      exact .none rfl
    · simp only [perform, same]
      exact .none rfl
    · simp only [perform, same]
      cases committed with
      | created expiry adds free named ended retained =>
        exact .one (.create expiry assistant live adds free ended)
      | mutated expiry mutates named there ended retained =>
        exact .one (.mutate expiry assistant live mutates named there ended)
  | abort reservation errorCode =>
    rcases s.abort_cases options now reservation errorCode
      with ⟨e, same⟩ | ⟨data, outcome, same, -, live, ended⟩
    · simp only [perform, same]
      exact .none rfl
    · simp only [perform, same]
      exact .two (.abandon live ended) older_abandon (.sweep _) older_swept
  | release owner contextId baseVersion idempotency =>
    have released := s.release_cases options now owner contextId baseVersion idempotency
    simp only [perform]
    generalize s.release options now owner contextId baseVersion idempotency = result at released ⊢
    cases released with
    | refused e => exact .one (.sweep s)
    | replayed valid retained => exact .one (.sweep s)
    | carriedOut valid unclaimed there owned idle version named later =>
      exact .two (.sweep s) older_swept (.release there idle unclaimed rfl)
        (older_insert there (Nat.le_succ _))
  | status owner contextId idempotency => exact .one (.sweep s)
  | snapshot owner contextId => exact .one (.sweep s)
  | sweepExpired => exact .one (.sweep s)

end Calls

/-- The maps agree, and live reservations have ids that were given out. -/
structure Sound (options : StoreOptions) (w : World) : Prop where
  consistent : Consistent options w.store
  issued : ∀ r data, w.store.reservations.lookup r = some data → r ∈ w.issued

/-- An id given out is never given out again, so its reservation stays the same or ends. -/
structure Keeps (w after : World) : Prop where
  clock : w.clock ≤ after.clock
  issued : ∀ r ∈ w.issued, r ∈ after.issued
  live : ∀ r ∈ w.issued, ∀ data, after.store.reservations.lookup r = some data →
    w.store.reservations.lookup r = some data

theorem Keeps.refl (w : World) : Keeps w w := ⟨Int.le_refl _, fun _ => id, fun _ _ _ => id⟩

theorem Keeps.trans {w after later : World} (first : Keeps w after) (second : Keeps after later) : Keeps w later where
  clock := first.clock.trans second.clock
  issued r old := second.issued r (first.issued r old)
  live r old data live := first.live r old data (second.live r (first.issued r old) data live)

section Runs
variable [Sha256] [Rfc3339] {options : StoreOptions} {w after : World} {event : Event}
  {events : List Event}

theorem Step.operates (step : Step options w event after) (sound : Sound options w) :
    Operates options event.now (· ∈ event.answer.reservationId) w.store after.store := by
  have performed : after.store = (event.call.perform options w.store event.now).2 := by
    rw [step.performed]
  rw [performed]
  apply Call.perform_operates
  · intro r given
    cases live : w.store.reservations.lookup r with
    | none => rfl
    | some data => exact absurd (sound.issued r data live) (step.fresh r given)
  · intro id given
    rwa [step.performed] at given

theorem Step.sound (step : Step options w event after) (sound : Sound options w) :
    Sound options after := by
  have operates := step.operates sound
  refine ⟨operates.consistent sound.consistent, fun r data live => ?_⟩
  rw [step.issued, List.mem_append, Option.mem_toList]
  rcases operates.live live with before | given
  · exact .inr (sound.issued r data before)
  · exact .inl given

theorem Step.keeps (step : Step options w event after) (sound : Sound options w) :
    Keeps w after := by
  refine ⟨step.clock.2 ▸ step.clock.1, fun r old => ?_, fun r old data live => ?_⟩
  · rw [step.issued]
    exact List.mem_append_right _ old
  · exact ((step.operates sound).live live).resolve_right fun given => step.fresh r given old

theorem run_sound (run : Run (Step options) w events after) (sound : Sound options w) :
    Sound options after := run.invariant (fun before step => step.sound before) sound

theorem run_keeps (run : Run (Step options) w events after) (sound : Sound options w) :
    Keeps w after := by
  induction run with
  | refl w => exact .refl w
  | next step rest ih => exact (step.keeps sound).trans (ih (step.sound sound))

theorem Reachable.sound (reachable : Reachable options w) : Sound options w := by
  obtain ⟨start, events, run⟩ := reachable
  refine run_sound run ⟨.empty, fun r data live => ?_⟩
  cases (AList.lookup_empty r).symm.trans live

theorem Reachable.step (reachable : Reachable options w) (step : Step options w event after) :
    Reachable options after := by
  obtain ⟨start, events, run⟩ := reachable
  exact ⟨start, events ++ [event], run.trans (.single step)⟩

theorem Reachable.run (reachable : Reachable options w) (run : Run (Step options) w events after) :
    Reachable options after := by
  obtain ⟨start, earlier, before⟩ := reachable
  exact ⟨start, earlier ++ events, before.trans run⟩

end Runs
end Nps.Nwp.LlmContext
