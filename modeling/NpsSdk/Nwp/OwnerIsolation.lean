import NpsSdk.Nwp.ContextLaws

/-! What one owner's calls do to another's contexts, and what they tell of them. -/
namespace Nps.Nwp.LlmContext
open Nip (Instant Sha256)
open Outcome Transition

section Callers
variable [Sha256] [Rfc3339]

def Made (options : StoreOptions) (w : World) (owner : Owner) (reservation : Reservation) : Prop :=
  ∃ earlier now request reserved events, Reachable options earlier ∧
    Reserves options earlier now request reservation reserved ∧ request.owner = owner ∧
    Run (Step options) reserved events w

/-- A commit and an abort are calls of the owner that made the reservation. -/
def Call.By (options : StoreOptions) (w : World) (owner : Owner) : Call → Prop
  | reserve request _ => request.owner = owner
  | commit reservation _ _ => Made options w owner reservation
  | abort reservation _ => Made options w owner reservation
  | release caller _ _ _ => caller = owner
  | status caller _ _ => caller = owner
  | snapshot caller _ => caller = owner
  | sweepExpired => False

theorem Made.owner {options : StoreOptions} {w : World} {owner : Owner} {reservation : Reservation}
    (made : Made options w owner reservation) {data : ReservationData}
    (identity : data.reservationId = reservation.reservationId)
    (live : w.store.reservations.lookup data.reservationId = some data) :
    data.request.owner = owner := by
  obtain ⟨earlier, now, request, reserved, events, reachable, reserves, owned, run⟩ := made
  have asked := (reserves.holds reachable run (identity ▸ live)).1
  rw [asked, owned]

end Callers

/-- What is the owner's in the store is as it was. -/
structure SameFor (owner : Owner) (s after : StoreState) : Prop where
  contexts : s.contexts.AgreeOn (fun entry => entry.owner = owner) after.contexts
  reservations : s.reservations.AgreeOn (fun data => data.request.owner = owner) after.reservations
  outcomes : ∀ key, key.owner = owner → after.idempotency.lookup key = s.idempotency.lookup key
  quota : after.live owner = s.live owner ∧ after.pending owner = s.pending owner

/-- An entry that differs at most in the version, binding and transcript of an owner's context. -/
structure Blurs (owner : Owner) (entry other : ContextEntry) : Prop where
  owned : entry.owner ≠ owner → other = entry
  rest : other = { entry with
    version := other.version
    binding := other.binding
    bindingFingerprint := other.bindingFingerprint
    transcript := other.transcript }

/-- The stores differ at most in the versions, bindings and transcripts of an owner's contexts. -/
structure Blurred (owner : Owner) (s t : StoreState) : Prop where
  contexts : ∀ contextId,
    Option.Rel (Blurs owner) (s.contexts.lookup contextId) (t.contexts.lookup contextId)
  idempotency : ∀ key, t.idempotency.lookup key = s.idempotency.lookup key
  reservations : ∀ r, t.reservations.lookup r = s.reservations.lookup r

namespace SameFor
variable {owner : Owner} {s after later : StoreState} {options : StoreOptions} {now : Instant}
  {data : ReservationData}

theorem of_maps
    (contexts : s.contexts.AgreeOn (fun entry => entry.owner = owner) after.contexts)
    (reservations : s.reservations.AgreeOn (fun data => data.request.owner = owner) after.reservations)
    (outcomes : ∀ key, key.owner = owner → after.idempotency.lookup key = s.idempotency.lookup key) :
    SameFor owner s after := by
  refine ⟨contexts, reservations, outcomes, ?_, ?_⟩
  · exact (contexts.count fun entry counted => counted.1).symm
  · exact (reservations.count fun data counted => counted.1).symm

theorem refl (owner : Owner) (s : StoreState) : SameFor owner s s :=
  of_maps (.refl _) (.refl _) fun _ _ => rfl

theorem swept (same : SameFor owner s after) :
    SameFor owner (s.swept options now) (after.swept options now) := by
  refine of_maps ?_ same.reservations fun key owned => ?_
  · refine (same.contexts.mapValues fun entry owned => ?_).retain
    rwa [ContextEntry.expire_owner] at owned
  · rw [StoreState.swept_idempotency, StoreState.swept_idempotency, same.outcomes key owned]

theorem outcomes_insert {key written : IdempotencyKey} {outcome : IdempotencyEntry}
    (other : written.owner ≠ owner) (owned : key.owner = owner) :
    (s.idempotency.insert written outcome).lookup key = s.idempotency.lookup key := by
  refine AList.lookup_insert_ne ?_
  rintro rfl
  exact other owned

theorem install (admitted : Admitted options s data)
    (unused : s.reservations.lookup data.reservationId = none) (other : data.request.owner ≠ owner) :
    SameFor owner s (s.install options now data) := by
  refine of_maps (fun contextId entry owned => ?_) (.insert ?_ other) fun key owned => ?_
  · rw [Consistent.install_contexts admitted]
    split
    · rename_i named
      have based := admitted.based ?_
      · obtain ⟨base, before, based⟩ := based
        cases named.2.symm.trans based.named
        rw [based.there]
        constructor
        · rintro ⟨⟩
          exact absurd (based.owner.symm.trans owned) other
        · rintro ⟨⟩
          exact absurd (based.owner.symm.trans owned) other
      · intro create
        exact not_adds_of_mutates named.1 (.inl create)
    · exact Iff.rfl
  · intro value there
    cases unused.symm.trans there
  · exact outcomes_insert other owned

theorem settle {contexts : Assoc String ContextEntry} {outcome : IdempotencyEntry}
    (agree : s.contexts.AgreeOn (fun entry => entry.owner = owner) contexts)
    (live : s.reservations.lookup data.reservationId = some data) (other : data.request.owner ≠ owner) :
    SameFor owner s (StoreState.settle { s with contexts := contexts } data outcome) := by
  refine of_maps agree (.erase fun value there => ?_) fun key owned => ?_
  · cases live.symm.trans there
    exact other
  · exact outcomes_insert other owned

theorem committed [Rfc3339] (consistent : Consistent options s)
    (live : s.reservations.lookup data.reservationId = some data) (other : data.request.owner ≠ owner)
    {assistant : Message} {receipt : Receipt}
    (committed : StoreState.Committed s options now assistant data receipt after) :
    SameFor owner s after := by
  cases committed with
  | created expiry adds free named ended retained =>
    refine settle (.insert (fun value there => ?_) other) live other
    cases free.symm.trans there
  | @mutated contextId entry _ _ expiry mutates named there ended retained =>
    obtain ⟨held, original, same, found, reserved⟩ := consistent.held _ data live mutates
    cases named.symm.trans same
    cases there.symm.trans found
    have owned := (consistent.holds live there reserved).2.2.owner
    refine settle (.insert (fun value looked => ?_) ?_) live other
    · cases there.symm.trans looked
      exact owned ▸ other
    · rw [(StoreState.mutatedEntry_spec data entry expiry assistant).2.2.2, owned]
      exact other

/-- The reservation is taken off its own context only. -/
theorem abandoned (consistent : Consistent options s)
    (live : s.reservations.lookup data.reservationId = some data) (other : data.request.owner ≠ owner)
    {outcome : IdempotencyEntry} : SameFor owner s ((s.clearReservation data).settle data outcome) := by
  rw [Consistent.clearReservation_eq]
  refine settle (fun contextId entry owned => ?_) live other
  rw [Consistent.clearReservation_contexts, Option.map_eq_some_iff]
  -- The context that it is noted on is of the owner that made it.
  have unmarked {before : ContextEntry} (there : s.contexts.lookup contextId = some before)
      (mine : before.owner = owner) :
      ¬ (data.request.contextId = some contextId ∧ before.reservationId = some data.reservationId) := by
    rintro ⟨-, marked⟩
    have owns := (consistent.holds live there marked).2.2.owner
    exact other (owns.symm.trans mine)
  constructor
  · intro there
    exact ⟨entry, there, if_neg (unmarked there owned)⟩
  · rintro ⟨before, there, rfl⟩
    have mine : before.owner = owner := by
      split at owned <;> exact owned
    rw [if_neg (unmarked there mine)]
    exact there

end SameFor

section Writing
variable [Sha256] [Rfc3339] {options : StoreOptions} {w after : World} {event : Event}
  {caller owner : Owner}

/-- A call leaves alone what is another owner's, but for what it sweeps. -/
theorem Step.untouched (reachable : Reachable options w) (step : Step options w event after)
    (by_ : event.call.By options w caller) (apart : caller ≠ owner) :
    SameFor owner w.store after.store ∨
      SameFor owner (w.store.swept options event.now) after.store := by
  have sound := reachable.sound
  obtain ⟨now, call, answer⟩ := event
  have performed := congrArg Prod.snd step.performed
  cases call with
  | reserve request newReservationId =>
    right
    rcases w.store.reserve_cases options now request newReservationId
      with ⟨e, same⟩ | ⟨data, same, asked, admitted⟩
    · simp only [Call.perform, same, Prod.map, id] at performed
      exact performed ▸ SameFor.refl owner _
    · have told := congrArg Prod.fst step.performed
      simp only [Call.perform, same, Prod.map, id] at performed told
      rw [← performed]
      refine SameFor.install admitted ?_ ?_
      · have new := step.fresh data.reservationId (by rw [← told]; rfl)
        by_contra used
        obtain ⟨other, there⟩ := Option.ne_none_iff_exists'.mp used
        exact new (sound.issued _ _ there)
      · rw [asked, by_]
        exact apart
  | commit reservation assistant factory =>
    left
    rcases w.store.commit_cases options now reservation assistant factory
      with ⟨e, same⟩ | ⟨data, identity, live, ⟨e, same⟩ | ⟨receipt, later, same, committed⟩⟩
    · simp only [Call.perform, same, Prod.map, id] at performed
      exact performed ▸ SameFor.refl owner _
    · simp only [Call.perform, same, Prod.map, id] at performed
      exact performed ▸ SameFor.refl owner _
    · simp only [Call.perform, same, Prod.map, id] at performed
      rw [← performed]
      refine SameFor.committed sound.consistent live ?_ committed
      rw [Made.owner by_ identity live]
      exact apart
  | abort reservation errorCode =>
    rcases w.store.abort_cases options now reservation errorCode
      with ⟨e, same⟩ | ⟨data, outcome, same, identity, live, ended⟩
    · left
      simp only [Call.perform, same, Prod.map, id] at performed
      exact performed ▸ SameFor.refl owner _
    · right
      simp only [Call.perform, same, Prod.map, id] at performed
      rw [← performed]
      refine (SameFor.abandoned sound.consistent live ?_).swept
      rw [Made.owner by_ identity live]
      exact apart
  | release releaser contextId baseVersion key =>
    right
    obtain rfl : releaser = caller := by_
    have released := w.store.release_cases options now releaser contextId baseVersion key
    simp only [Call.perform, Prod.map, id] at performed
    rw [← performed]
    generalize w.store.release options now releaser contextId baseVersion key = result at released ⊢
    cases released with
    | refused e => exact SameFor.refl owner _
    | replayed valid retained => exact SameFor.refl owner _
    | carriedOut valid unclaimed there owned idle version named later =>
      refine SameFor.of_maps (.insert (fun value looked => ?_) ?_) (.refl _) fun other mine => ?_
      · cases there.symm.trans looked
        exact owned ▸ apart
      · exact owned ▸ apart
      · exact SameFor.outcomes_insert apart mine
  | status asker contextId idempotency =>
    right
    have swept : w.store.swept options now = after.store := performed
    exact swept ▸ SameFor.refl owner _
  | snapshot asker contextId =>
    right
    have swept : w.store.swept options now = after.store := performed
    exact swept ▸ SameFor.refl owner _
  | sweepExpired => exact False.elim by_

end Writing

namespace Blurs
variable {owner : Owner} {entry other : ContextEntry} {options : StoreOptions} {now : Instant}

theorem owner_eq (blurs : Blurs owner entry other) : other.owner = entry.owner := by
  rw [blurs.rest]

theorem expire (blurs : Blurs owner entry other) :
    Blurs owner (entry.expire options now) (other.expire options now) := by
  constructor
  · intro apart
    rw [ContextEntry.expire_owner] at apart
    rw [blurs.owned apart]
  · rw [blurs.rest]
    unfold ContextEntry.expire ContextEntry.lapsed
    dsimp only
    split <;> rfl

theorem kept (blurs : Blurs owner entry other) : other.kept now = entry.kept now := by
  rw [blurs.rest]
  rfl

end Blurs

namespace Blurred
variable {owner caller : Owner} {s t : StoreState} {options : StoreOptions} {now : Instant}

theorem there_iff (blurred : Blurred owner s t) (contextId : String) :
    (t.contexts.lookup contextId).isSome = (s.contexts.lookup contextId).isSome := by
  have rel := blurred.contexts contextId
  generalize s.contexts.lookup contextId = before at rel ⊢
  generalize t.contexts.lookup contextId = after at rel ⊢
  cases rel <;> rfl

theorem found_iff (blurred : Blurred owner s t) {contextId : String} {entry : ContextEntry}
    (apart : entry.owner ≠ owner) :
    s.contexts.lookup contextId = some entry ↔ t.contexts.lookup contextId = some entry := by
  have rel := blurred.contexts contextId
  generalize s.contexts.lookup contextId = before at rel ⊢
  generalize t.contexts.lookup contextId = after at rel ⊢
  cases rel with
  | none => exact Iff.rfl
  | @some first second blurs =>
    constructor
    · rintro ⟨⟩
      rw [blurs.owned apart]
    · rintro ⟨⟩
      rw [blurs.owned (blurs.owner_eq ▸ apart)]

theorem swept (blurred : Blurred owner s t) :
    Blurred owner (s.swept options now) (t.swept options now) := by
  refine ⟨fun contextId => ?_, fun key => ?_, blurred.reservations⟩
  · rw [StoreState.swept_contexts, StoreState.swept_contexts]
    have rel := blurred.contexts contextId
    generalize s.contexts.lookup contextId = before at rel ⊢
    generalize t.contexts.lookup contextId = after at rel ⊢
    cases rel with
    | none => exact .none
    | @some entry other blurs =>
      have expired : Blurs owner (entry.expire options now) (other.expire options now) := blurs.expire
      simp only [Option.map_some, Option.filter_some, expired.kept]
      split
      · exact .some expired
      · exact .none
  · rw [StoreState.swept_idempotency, StoreState.swept_idempotency, blurred.idempotency]

variable (apart : caller ≠ owner)
include apart

theorem live_eq (blurred : Blurred owner s t) : t.live caller = s.live caller := by
  have agree : s.contexts.AgreeOn (fun entry => entry.owner = caller) t.contexts := by
    intro contextId entry owned
    exact blurred.found_iff (owned ▸ apart)
  exact (agree.count fun entry counted => counted.1).symm

omit apart in
theorem pending_eq (blurred : Blurred owner s t) (other : Owner) :
    t.pending other = s.pending other := by
  have agree : s.reservations.AgreeOn (fun _ => True) t.reservations := by
    intro r data _
    rw [blurred.reservations]
  exact (agree.count fun _ _ => trivial).symm

theorem ensureAllocationAvailable_eq (blurred : Blurred owner s t) :
    t.ensureAllocationAvailable options caller = s.ensureAllocationAvailable options caller := by
  unfold StoreState.ensureAllocationAvailable
  rw [blurred.live_eq apart, blurred.pending_eq]

/-- A caller is refused another owner's context, and told nothing of it. -/
theorem requireMutable_eq (blurred : Blurred owner s t) (contextId : String) :
    t.requireMutable caller contextId = s.requireMutable caller contextId := by
  unfold StoreState.requireMutable
  have rel := blurred.contexts contextId
  generalize s.contexts.lookup contextId = before at rel ⊢
  generalize t.contexts.lookup contextId = after at rel ⊢
  cases rel with
  | none => rfl
  | @some entry other blurs =>
    by_cases owned : entry.owner = caller
    · rw [blurs.owned (owned ▸ apart)]
    · have refused : ¬ other.owner = caller := blurs.owner_eq ▸ owned
      simp only [Option.elim_some, ok_bind, ensure, owned, refused, if_false, error_bind]

theorem statusByContext_eq [Rfc3339] (blurred : Blurred owner s t) (contextId : String) :
    t.statusByContext caller contextId = s.statusByContext caller contextId := by
  unfold StoreState.statusByContext
  have rel := blurred.contexts contextId
  generalize s.contexts.lookup contextId = before at rel ⊢
  generalize t.contexts.lookup contextId = after at rel ⊢
  cases rel with
  | none => rfl
  | @some entry other blurs =>
    by_cases owned : entry.owner = caller
    · rw [blurs.owned (owned ▸ apart)]
      simp only [blurred.reservations]
    · have refused : ¬ other.owner = caller := blurs.owner_eq ▸ owned
      simp only [Option.elim_some, ok_bind, ensure, owned, refused, if_false, error_bind]

theorem statusByOutcome_eq [Rfc3339] (blurred : Blurred owner s t) (idempotency : String) :
    t.statusByOutcome caller idempotency = s.statusByOutcome caller idempotency := by
  unfold StoreState.statusByOutcome StoreState.statusFromReceipt
  simp only [blurred.idempotency, blurred.there_iff, blurred.statusByContext_eq apart]

theorem admission_eq [Sha256] (blurred : Blurred owner s t) {request : MutationRequest}
    (asked : request.owner = caller) (newReservationId : StoreResult String) :
    t.admission options now request newReservationId =
      s.admission options now request newReservationId := by
  unfold StoreState.admission StoreState.ensureRoomToFork
  simp only [asked, blurred.idempotency, blurred.ensureAllocationAvailable_eq apart,
    blurred.requireMutable_eq apart]

theorem release_eq (blurred : Blurred owner s t) (contextId : String) (baseVersion : Nat)
    (idempotency : String) :
    (t.release options now caller contextId baseVersion idempotency).1 =
      (s.release options now caller contextId baseVersion idempotency).1 := by
  unfold StoreState.release StoreState.admissionToRelease
  simp only [blurred.swept.idempotency, blurred.swept.requireMutable_eq apart]
  split
  · rfl
  · split
    · rfl
    · split <;> rfl

omit apart in
theorem nextContextId_eq (blurred : Blurred owner s t) (factory : Nat → StoreResult String)
    (tries attempt : Nat) : t.nextContextId factory tries attempt = s.nextContextId factory tries attempt := by
  induction tries generalizing attempt with
  | zero => rfl
  | succ tries ih =>
    have free (value : String) :
        (t.contexts.lookup value).isNone = (s.contexts.lookup value).isNone := by
      rw [← Option.not_isSome, ← Option.not_isSome, blurred.there_iff]
    simp only [StoreState.nextContextId, ih, free]

omit apart in
theorem requireReservation_eq (blurred : Blurred owner s t) (reservation : Reservation) :
    t.requireReservation reservation = s.requireReservation reservation := by
  unfold StoreState.requireReservation
  rw [blurred.reservations]

theorem commitExisting_eq [Rfc3339] (blurred : Blurred owner s t) {data : ReservationData}
    {contextId : String} {expiry : Option Instant} {assistant : Message}
    (own : ∀ entry, s.contexts.lookup contextId = some entry → entry.owner = caller) :
    (t.commitExisting options now data contextId expiry assistant).1 =
      (s.commitExisting options now data contextId expiry assistant).1 := by
  have same : t.contexts.lookup contextId = s.contexts.lookup contextId := by
    cases there : s.contexts.lookup contextId with
    | none =>
      have missing := blurred.there_iff contextId
      rw [there] at missing
      exact Option.not_isSome_iff_eq_none.mp (by rw [missing]; exact Bool.false_ne_true)
    | some entry => exact (blurred.found_iff (own entry there ▸ apart)).mp there
  unfold StoreState.commitExisting
  rw [same]
  split <;> rfl

theorem commit_eq [Rfc3339] (blurred : Blurred owner s t) (consistent : Consistent options s)
    {reservation : Reservation} {assistant : Message} {factory : Nat → StoreResult String}
    (own : ∀ data, data.reservationId = reservation.reservationId →
      s.reservations.lookup data.reservationId = some data → data.request.owner = caller) :
    (t.commit options now reservation assistant factory).1 =
      (s.commit options now reservation assistant factory).1 := by
  unfold StoreState.commit
  rw [blurred.requireReservation_eq]
  split
  · rfl
  · rename_i data required
    obtain ⟨identity, live⟩ := StoreState.requireReservation_ok required
    have mine := own data identity live
    have owned {contextId : String} (mutates : data.Mutates)
        (named : data.request.contextId = some contextId) (entry : ContextEntry)
        (there : s.contexts.lookup contextId = some entry) : entry.owner = caller := by
      obtain ⟨held, original, same, found, reserved⟩ := consistent.held _ data live mutates
      cases named.symm.trans same
      cases there.symm.trans found
      exact (consistent.holds live there reserved).2.2.owner.trans mine
    have new (expiry : Option Instant) : (t.commitNew options now data expiry assistant factory).1 =
        (s.commitNew options now data expiry assistant factory).1 := by
      unfold StoreState.commitNew
      rw [blurred.nextContextId_eq]
      split <;> rfl
    dsimp only
    split
    · exact new _
    · exact new _
    · rename_i append named
      exact blurred.commitExisting_eq apart (owned (.inl append) named)
    · rename_i reset named
      exact blurred.commitExisting_eq apart (owned (.inr reset) named)
    · rfl
    · rfl
    · rfl

end Blurred

section Reading
variable [Sha256] [Rfc3339] {options : StoreOptions} {w : World} {call : Call} {now : Instant}
  {caller owner : Owner} {t : StoreState}

/-- The versions, bindings and transcripts of another owner's contexts do not show in an answer. -/
theorem Call.unseen (reachable : Reachable options w) (by_ : call.By options w caller)
    (apart : caller ≠ owner) (blurred : Blurred owner w.store t) :
    (call.perform options t now).1 = (call.perform options w.store now).1 := by
  cases call with
  | reserve request newReservationId =>
    refine congrArg Answer.reserved ?_
    have swept : Blurred owner (w.store.swept options now) (t.swept options now) := blurred.swept
    rw [swept.admission_eq apart by_]
    split <;> rfl
  | commit reservation assistant factory =>
    refine congrArg Answer.committed (blurred.commit_eq apart reachable.sound.consistent ?_)
    intro data identity live
    exact Made.owner by_ identity live
  | abort reservation errorCode =>
    refine congrArg Answer.aborted ?_
    rw [blurred.requireReservation_eq]
    split <;> rfl
  | release releaser contextId baseVersion idempotency =>
    obtain rfl : releaser = caller := by_
    exact congrArg Answer.released (blurred.release_eq apart contextId baseVersion idempotency)
  | status asker contextId idempotency =>
    obtain rfl : asker = caller := by_
    refine congrArg Answer.status ?_
    simp only [blurred.swept.statusByOutcome_eq apart, blurred.swept.statusByContext_eq apart]
  | snapshot asker contextId =>
    obtain rfl : asker = caller := by_
    refine congrArg Answer.snapshot ?_
    simp only [blurred.swept.requireMutable_eq apart]
  | sweepExpired => exact False.elim by_

end Reading

/-- No call of one owner changes what is another's, or depends on more of it than whose the
contexts are and how long they live. -/
structure OwnersIsolated [Sha256] [Rfc3339] (options : StoreOptions) : Prop where
  untouched : ∀ {w after : World} {event : Event} {caller owner : Owner}, Reachable options w →
    Step options w event after → event.call.By options w caller → caller ≠ owner →
    SameFor owner w.store after.store ∨
      SameFor owner (w.store.swept options event.now) after.store
  unseen : ∀ {w : World} {t : StoreState} {call : Call} {now : Instant} {caller owner : Owner},
    Reachable options w → call.By options w caller → caller ≠ owner → Blurred owner w.store t →
    (call.perform options t now).1 = (call.perform options w.store now).1

theorem owners_isolated [Sha256] [Rfc3339] (options : StoreOptions) : OwnersIsolated options where
  untouched reachable step by_ apart := step.untouched reachable by_ apart
  unseen reachable by_ apart blurred := Call.unseen reachable by_ apart blurred

end Nps.Nwp.LlmContext
