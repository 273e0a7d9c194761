import NpsSdk.Nwp.ContextChanges

/-! The three maps of the context store agree: reservations with the contexts they hold and
with the busy outcomes of their keys, and contexts with the quota. -/
namespace Nps.Nwp.LlmContext
open Nip (Instant)

namespace ContextEntry
variable {options : StoreOptions} {now : Instant} {entry : ContextEntry}

theorem expire_version : (entry.expire options now).version = entry.version := by
  unfold expire
  split <;> rfl

theorem expire_reservationId : (entry.expire options now).reservationId = entry.reservationId := by
  unfold expire
  split <;> rfl

theorem expire_owner : (entry.expire options now).owner = entry.owner := by
  unfold expire
  split <;> rfl

theorem expire_transcript : (entry.expire options now).transcript = entry.transcript := by
  unfold expire
  split <;> rfl

theorem expire_state (options : StoreOptions) (now : Instant) (entry : ContextEntry) :
    (entry.expire options now).state = entry.state ∨
      (entry.expire options now).state = .expired := by
  unfold expire
  split
  · exact .inr rfl
  · exact .inl rfl

theorem expire_reserved {r : String} (reserved : entry.reservationId = some r) :
    entry.expire options now = entry := by
  have busy : entry.lapsed now = false := by simp [lapsed, reserved]
  rw [expire, busy]
  rfl

theorem kept_active (active : entry.state = .active) : entry.kept now = true := by
  simp [kept, active]

end ContextEntry

namespace StoreState
variable {s : StoreState} {options : StoreOptions} {now : Instant}

@[simp] theorem swept_reservations : (s.swept options now).reservations = s.reservations := rfl

theorem swept_contexts (contextId : String) : (s.swept options now).contexts.lookup contextId =
    ((s.contexts.lookup contextId).map (·.expire options now)).filter (·.kept now) := by
  change ((s.contexts.mapValues _).retain _).lookup contextId = _
  rw [AList.lookup_retain, AList.lookup_mapValues]

theorem swept_idempotency (key : IdempotencyKey) : (s.swept options now).idempotency.lookup key =
    (s.idempotency.lookup key).filter (·.kept now) :=
  AList.lookup_retain _

theorem swept_origin {contextId : String} {entry : ContextEntry}
    (there : (s.swept options now).contexts.lookup contextId = some entry) :
    ∃ before, s.contexts.lookup contextId = some before ∧ entry = before.expire options now := by
  rw [swept_contexts, Option.filter_eq_some_iff] at there
  obtain ⟨before, found, same⟩ := Option.map_eq_some_iff.mp there.1
  exact ⟨before, found, same.symm⟩

theorem swept_reserved {contextId r : String} {entry : ContextEntry}
    (there : s.contexts.lookup contextId = some entry) (reserved : entry.reservationId = some r)
    (active : entry.state = .active) : (s.swept options now).contexts.lookup contextId = some entry := by
  rw [swept_contexts, there, Option.map_some, ContextEntry.expire_reserved reserved]
  exact Option.filter_some_pos (ContextEntry.kept_active active)

theorem swept_outcome {key : IdempotencyKey} {outcome : IdempotencyEntry}
    (retained : (s.swept options now).idempotency.lookup key = some outcome) :
    s.idempotency.lookup key = some outcome ∧ outcome.kept now = true := by
  rw [swept_idempotency] at retained
  exact Option.filter_eq_some_iff.mp retained

theorem swept_kept {key : IdempotencyKey} {outcome : IdempotencyEntry}
    (found : s.idempotency.lookup key = some outcome) (kept : outcome.kept now = true) :
    (s.swept options now).idempotency.lookup key = some outcome := by
  rw [swept_idempotency, found]
  exact Option.filter_some_pos kept

theorem live_swept_le (owner : Owner) : (s.swept options now).live owner ≤ s.live owner := by
  refine AList.count_retain_le.trans (AList.count_mapValues_le fun entry live => ?_)
  rw [ContextEntry.expire_owner] at live
  refine ⟨live.1, ?_⟩
  rcases ContextEntry.expire_state options now entry with same | expired
  · exact same ▸ live.2
  · cases expired.symm.trans live.2

end StoreState

theorem StoreState.mutatedEntry_spec (data : ReservationData) (entry : ContextEntry)
    (expiry : Option Instant) (assistant : Message) :
    (mutatedEntry data entry expiry assistant).version = entry.version + 1 ∧
      (mutatedEntry data entry expiry assistant).state = .active ∧
      (mutatedEntry data entry expiry assistant).reservationId = none ∧
      (mutatedEntry data entry expiry assistant).owner = entry.owner := by
  unfold mutatedEntry
  dsimp only
  split <;> exact ⟨rfl, rfl, rfl, rfl⟩

theorem IdempotencyEntry.kept_busy {outcome : IdempotencyEntry} {now : Instant}
    (busy : outcome.state = .busy) : outcome.kept now = true := by
  simp [kept, busy]

/-- The context as the reservation found it. -/
structure Holds (data : ReservationData) (entry : ContextEntry) : Prop where
  owner : entry.owner = data.request.owner
  active : entry.state = .active
  version : data.request.baseVersion = some entry.version
  transcript : data.baseTranscript = entry.transcript

structure Consistent (options : StoreOptions) (s : StoreState) : Prop where
  /-- A reservation noted on a context is live, and of that context as it is. -/
  marked : ∀ contextId entry r, s.contexts.lookup contextId = some entry →
    entry.reservationId = some r → ∃ data, s.reservations.lookup r = some data ∧ data.Mutates ∧
      data.request.contextId = some contextId ∧ Holds data entry
  /-- A live reservation of an existing context is noted on it. -/
  held : ∀ r data, s.reservations.lookup r = some data → data.Mutates →
    ∃ contextId entry, data.request.contextId = some contextId ∧
      s.contexts.lookup contextId = some entry ∧ entry.reservationId = some r
  named : ∀ r data, s.reservations.lookup r = some data →
    data.reservationId = r ∧ data.request.operation ≠ .release
  states : ∀ contextId entry, s.contexts.lookup contextId = some entry →
    entry.state ≠ .busy ∧ entry.state ≠ .failed
  busy : ∀ key outcome, s.idempotency.lookup key = some outcome → outcome.state = .busy →
    ∃ r data, s.reservations.lookup r = some data ∧ completeKey data.request = key
  claimed : ∀ r data, s.reservations.lookup r = some data →
    ∃ outcome, s.idempotency.lookup (completeKey data.request) = some outcome ∧
      outcome.state = .busy
  sole : ∀ r r' data data', s.reservations.lookup r = some data →
    s.reservations.lookup r' = some data' →
    completeKey data.request = completeKey data'.request → r = r'
  quota : ∀ owner, s.live owner + s.pending owner ≤ options.maxContextsPerPrincipal

theorem not_adds_of_mutates {data : ReservationData} (mutates : data.Mutates) : ¬ data.Adds := by
  rintro (create | fork) <;> rcases mutates with append | reset <;> simp_all

theorem mutates_or_adds {data : ReservationData} (operation : data.request.operation ≠ .release) :
    data.Mutates ∨ data.Adds := by
  unfold ReservationData.Mutates ReservationData.Adds
  cases same : data.request.operation with
  | create => exact .inr (.inl rfl)
  | append => exact .inl (.inl rfl)
  | fork => exact .inr (.inr rfl)
  | reset => exact .inl (.inr rfl)
  | release => exact absurd same operation

namespace Consistent
variable {options : StoreOptions} {s : StoreState} {now : Instant} {data : ReservationData}

theorem empty : Consistent options {} := by
  have noContext : ∀ contextId entry, (∅ : Assoc String ContextEntry).lookup contextId ≠ some entry :=
    fun _ _ there => by cases (AList.lookup_empty _).symm.trans there
  have noReservation : ∀ r data, (∅ : Assoc String ReservationData).lookup r ≠ some data :=
    fun _ _ live => by cases (AList.lookup_empty _).symm.trans live
  constructor
  · exact fun contextId entry _ there => absurd there (noContext contextId entry)
  · exact fun r data live => absurd live (noReservation r data)
  · exact fun r data live => absurd live (noReservation r data)
  · exact fun contextId entry there => absurd there (noContext contextId entry)
  · exact fun key outcome found => by cases (AList.lookup_empty key).symm.trans found
  · exact fun r data live => absurd live (noReservation r data)
  · exact fun r _ data _ live => absurd live (noReservation r data)
  · exact fun owner => Nat.zero_le _

theorem swept (consistent : Consistent options s) : Consistent options (s.swept options now) where
  marked := by
    intro contextId entry r there reserved
    obtain ⟨before, found, rfl⟩ := StoreState.swept_origin there
    rw [ContextEntry.expire_reservationId] at reserved
    rw [ContextEntry.expire_reserved reserved]
    exact consistent.marked contextId before r found reserved
  held := by
    intro r data live mutates
    obtain ⟨contextId, entry, named, there, reserved⟩ := consistent.held r data live mutates
    obtain ⟨_, _, _, _, holds⟩ := consistent.marked contextId entry r there reserved
    exact ⟨contextId, entry, named, StoreState.swept_reserved there reserved holds.active, reserved⟩
  named := consistent.named
  states := by
    intro contextId entry there
    obtain ⟨before, found, rfl⟩ := StoreState.swept_origin there
    rcases ContextEntry.expire_state options now before with same | expired
    · rw [same]
      exact consistent.states contextId before found
    · rw [expired]
      exact ⟨nofun, nofun⟩
  busy := by
    intro key outcome retained busy
    exact consistent.busy key outcome (StoreState.swept_outcome retained).1 busy
  claimed := by
    intro r data live
    obtain ⟨outcome, found, busy⟩ := consistent.claimed r data live
    exact ⟨outcome, StoreState.swept_kept found (IdempotencyEntry.kept_busy busy), busy⟩
  sole := consistent.sole
  quota owner := (Nat.add_le_add_right (StoreState.live_swept_le owner) _).trans
    (consistent.quota owner)

theorem holds (consistent : Consistent options s) {contextId r : String} {entry : ContextEntry}
    (live : s.reservations.lookup r = some data) (there : s.contexts.lookup contextId = some entry)
    (reserved : entry.reservationId = some r) :
    data.Mutates ∧ data.request.contextId = some contextId ∧ Holds data entry := by
  obtain ⟨other, found, rest⟩ := consistent.marked contextId entry r there reserved
  cases live.symm.trans found
  exact rest

/-- The context that an admitted mutation starts from, as its reservation will hold it. -/
theorem based_holds (consistent : Consistent options s) {contextId : String} {entry : ContextEntry}
    (based : Based s data contextId entry) : Holds data entry := by
  have settled := consistent.states contextId entry based.there
  refine ⟨based.owner, ?_, based.version, based.transcript⟩
  cases state : entry.state with
  | active => rfl
  | busy => exact absurd state settled.1
  | failed => exact absurd state settled.2
  | expired => exact absurd state based.fresh.1
  | released => exact absurd state based.fresh.2

/-- The contexts after an admitted mutation was noted: the one it is of carries its id. -/
theorem install_contexts (admitted : Admitted options s data) (contextId : String) :
    (s.install options now data).contexts.lookup contextId =
      if data.Mutates ∧ data.request.contextId = some contextId then
        (s.contexts.lookup contextId).map fun entry =>
          { entry with reservationId := some data.reservationId }
      else s.contexts.lookup contextId := by
  unfold StoreState.install
  dsimp only
  split
  · rename_i adds
    rw [if_neg]
    rintro ⟨mutates, -⟩
    exact not_adds_of_mutates mutates adds
  · rename_i adds
    have mutates : data.Mutates := (mutates_or_adds admitted.operation).resolve_right adds
    split
    · rename_i base named
      rw [AList.lookup_modify]
      by_cases same : contextId = base
      · subst same
        rw [if_pos rfl, if_pos ⟨mutates, named⟩]
      · rw [if_neg same, if_neg]
        rintro ⟨-, other⟩
        exact same (Option.some.inj (other.symm.trans named))
    · rename_i unnamed
      rw [if_neg]
      rintro ⟨-, other⟩
      cases unnamed.symm.trans other

theorem install_live (owner : Owner) : (s.install options now data).live owner = s.live owner := by
  unfold StoreState.live StoreState.install
  dsimp only
  split
  · rfl
  · split
    · exact AList.count_modify fun entry => Iff.rfl
    · rfl

theorem install (consistent : Consistent options s) (admitted : Admitted options s data)
    (fresh : s.reservations.lookup data.reservationId = none) :
    Consistent options (s.install options now data) := by
  have reservations : ∀ r, (s.install options now data).reservations.lookup r =
      if r = data.reservationId then some data else s.reservations.lookup r :=
    fun r => AList.lookup_insert_if
  have outcomes : ∀ key, ∃ claim : IdempotencyEntry, claim.state = .busy ∧
      (s.install options now data).idempotency.lookup key =
        if key = completeKey data.request then some claim else s.idempotency.lookup key :=
    fun key => ⟨_, rfl, AList.lookup_insert_if⟩
  have unclaimed : ∀ r other, s.reservations.lookup r = some other →
      completeKey other.request ≠ completeKey data.request := by
    intro r other live same
    obtain ⟨outcome, found, -⟩ := consistent.claimed r other live
    rw [same, admitted.free] at found
    cases found
  have base : data.Mutates → ∃ contextId entry, Based s data contextId entry :=
    fun mutates => admitted.based fun create => not_adds_of_mutates mutates (.inl create)
  constructor
  · intro contextId entry r there reserved
    rw [install_contexts admitted] at there
    rw [reservations]
    split at there
    · rename_i mutation
      obtain ⟨before, found, rfl⟩ := Option.map_eq_some_iff.mp there
      cases reserved
      obtain ⟨base, original, based⟩ := base mutation.1
      cases based.named.symm.trans mutation.2
      cases based.there.symm.trans found
      have holds := consistent.based_holds based
      exact ⟨data, if_pos rfl, mutation.1, mutation.2, holds.owner, holds.active, holds.version,
        holds.transcript⟩
    · obtain ⟨other, live, rest⟩ := consistent.marked contextId entry r there reserved
      have different : r ≠ data.reservationId := by
        rintro rfl
        cases fresh.symm.trans live
      exact ⟨other, (if_neg different).trans live, rest⟩
  · intro r other live mutates
    rw [reservations] at live
    split at live
    · rename_i same
      subst same
      cases live
      obtain ⟨contextId, entry, based⟩ := base mutates
      refine ⟨contextId, { entry with reservationId := some data.reservationId }, based.named, ?_, rfl⟩
      rw [install_contexts admitted, if_pos ⟨mutates, based.named⟩, based.there]
      rfl
    · obtain ⟨contextId, entry, named, there, reserved⟩ := consistent.held r other live mutates
      refine ⟨contextId, entry, named, ?_, reserved⟩
      rw [install_contexts admitted, if_neg]
      · exact there
      · rintro ⟨mutation, same⟩
        -- The context a new reservation takes had none.
        obtain ⟨taken, original, based⟩ := base mutation
        cases based.named.symm.trans same
        cases based.there.symm.trans there
        cases based.idle.symm.trans reserved
  · intro r other live
    rw [reservations] at live
    split at live
    · rename_i same
      cases live
      exact ⟨same.symm, admitted.operation⟩
    · exact consistent.named r other live
  · intro contextId entry there
    rw [install_contexts admitted] at there
    split at there
    · obtain ⟨before, found, rfl⟩ := Option.map_eq_some_iff.mp there
      exact consistent.states contextId before found
    · exact consistent.states contextId entry there
  · intro key outcome found busy
    obtain ⟨claim, -, lookup⟩ := outcomes key
    rw [lookup] at found
    split at found
    · rename_i same
      exact ⟨data.reservationId, data, (reservations _).trans (if_pos rfl), same.symm⟩
    · obtain ⟨r, other, live, same⟩ := consistent.busy key outcome found busy
      have different : r ≠ data.reservationId := by
        rintro rfl
        cases fresh.symm.trans live
      exact ⟨r, other, (reservations r).trans ((if_neg different).trans live), same⟩
  · intro r other live
    obtain ⟨claim, busy, lookup⟩ := outcomes (completeKey other.request)
    rw [reservations] at live
    split at live
    · cases live
      exact ⟨claim, lookup.trans (if_pos rfl), busy⟩
    · obtain ⟨outcome, found, still⟩ := consistent.claimed r other live
      exact ⟨outcome, lookup.trans ((if_neg (unclaimed r other live)).trans found), still⟩
  · intro r r' other other' live live' same
    rw [reservations] at live live'
    split at live
    · cases live
      split at live'
      · rename_i first second
        exact first.trans second.symm
      · exact absurd same.symm (unclaimed r' other' live')
    · split at live'
      · cases live'
        exact absurd same (unclaimed r other live)
      · exact consistent.sole r r' other other' live live' same
  · intro owner
    rw [install_live]
    have counted : (s.install options now data).pending owner = s.pending owner +
        if data.request.owner = owner ∧ data.Adds then 1 else 0 := by
      exact AList.count_insert_of_none fresh
    rw [counted]
    have bounded := consistent.quota owner
    split
    · rename_i adds
      have room := admitted.room adds.2
      rw [adds.1] at room
      omega
    · exact bounded

/-- A reservation ends: its context, if it had one, is free again, and its key has an outcome
that is not busy. -/
theorem settled (consistent : Consistent options s)
    (live : s.reservations.lookup data.reservationId = some data)
    {contexts : Assoc String ContextEntry} {outcome : IdempotencyEntry}
    (ended : outcome.state ≠ .busy)
    (others : ∀ contextId entry r, r ≠ data.reservationId →
      (contexts.lookup contextId = some entry ∧ entry.reservationId = some r ↔
        s.contexts.lookup contextId = some entry ∧ entry.reservationId = some r))
    (freed : ∀ contextId entry, contexts.lookup contextId = some entry →
      entry.reservationId ≠ some data.reservationId)
    (states : ∀ contextId entry, contexts.lookup contextId = some entry →
      entry.state ≠ .busy ∧ entry.state ≠ .failed)
    (quota : ∀ owner, (StoreState.settle { s with contexts } data outcome).live owner +
      (StoreState.settle { s with contexts } data outcome).pending owner ≤
        options.maxContextsPerPrincipal) :
    Consistent options (StoreState.settle { s with contexts } data outcome) := by
  have remains : ∀ r other, (s.reservations.erase data.reservationId).lookup r = some other ↔
      r ≠ data.reservationId ∧ s.reservations.lookup r = some other := by
    intro r other
    rw [AList.lookup_erase_if]
    split <;> simp_all
  have keys : ∀ r other, s.reservations.lookup r = some other → r ≠ data.reservationId →
      completeKey other.request ≠ completeKey data.request :=
    fun r other found different same => different (consistent.sole _ _ _ _ found live same)
  constructor
  · intro contextId entry r there reserved
    have different : r ≠ data.reservationId := by
      rintro rfl
      exact freed contextId entry there reserved
    obtain ⟨before, noted⟩ := (others contextId entry r different).mp ⟨there, reserved⟩
    obtain ⟨other, found, rest⟩ := consistent.marked contextId entry r before noted
    exact ⟨other, (remains r other).mpr ⟨different, found⟩, rest⟩
  · intro r other found mutates
    obtain ⟨different, found⟩ := (remains r other).mp found
    obtain ⟨contextId, entry, named, there, reserved⟩ := consistent.held r other found mutates
    obtain ⟨after, noted⟩ := (others contextId entry r different).mpr ⟨there, reserved⟩
    exact ⟨contextId, entry, named, after, noted⟩
  · intro r other found
    exact consistent.named r other ((remains r other).mp found).2
  · exact states
  · intro key other found busy
    change (s.idempotency.insert _ _).lookup key = some other at found
    rw [AList.lookup_insert_if] at found
    split at found
    · cases found
      exact absurd busy ended
    · rename_i different
      obtain ⟨r, reservation, there, same⟩ := consistent.busy key other found busy
      refine ⟨r, reservation, (remains r reservation).mpr ⟨?_, there⟩, same⟩
      rintro rfl
      cases live.symm.trans there
      exact different same.symm
  · intro r other found
    obtain ⟨different, found⟩ := (remains r other).mp found
    obtain ⟨claim, there, busy⟩ := consistent.claimed r other found
    refine ⟨claim, ?_, busy⟩
    change (s.idempotency.insert _ _).lookup _ = some claim
    rw [AList.lookup_insert_if, if_neg (keys r other found different)]
    exact there
  · intro r r' other other' found found' same
    exact consistent.sole r r' other other' ((remains r other).mp found).2
      ((remains r' other').mp found').2 same
  · exact quota

/-- What a reservation that ends takes off the owner's pending mutations. -/
theorem settle_pending (live : s.reservations.lookup data.reservationId = some data)
    (contexts : Assoc String ContextEntry) (outcome : IdempotencyEntry) (owner : Owner) :
    (StoreState.settle { s with contexts } data outcome).pending owner +
      (if data.request.owner = owner ∧ data.Adds then 1 else 0) = s.pending owner :=
  AList.count_erase live

theorem create (consistent : Consistent options s) {contextId : String} {expiry : Option Instant}
    {assistant : Message} {outcome : IdempotencyEntry}
    (live : s.reservations.lookup data.reservationId = some data) (adds : data.Adds)
    (free : s.contexts.lookup contextId = none) (ended : outcome.state ≠ .busy) :
    Consistent options (StoreState.settle { s with
      contexts := s.contexts.insert contextId
        (StoreState.createdEntry data contextId expiry assistant) } data outcome) := by
  have lookup : ∀ other, (s.contexts.insert contextId
      (StoreState.createdEntry data contextId expiry assistant)).lookup other =
        if other = contextId then some (StoreState.createdEntry data contextId expiry assistant)
        else s.contexts.lookup other := fun other => AList.lookup_insert_if
  -- No context carries the reservation, since it is of none.
  have unheld : ∀ other entry, s.contexts.lookup other = some entry →
      entry.reservationId ≠ some data.reservationId := by
    intro other entry there reserved
    exact not_adds_of_mutates (consistent.holds live there reserved).1 adds
  refine consistent.settled live ended ?_ ?_ ?_ ?_
  · intro other entry r _
    rw [lookup]
    split
    · rename_i same
      subst same
      rw [free]
      constructor
      · rintro ⟨⟨⟩, ⟨⟩⟩
      · rintro ⟨⟨⟩, -⟩
    · exact Iff.rfl
  · intro other entry there
    rw [lookup] at there
    split at there
    · cases there
      exact nofun
    · exact unheld other entry there
  · intro other entry there
    rw [lookup] at there
    split at there
    · cases there
      exact ⟨nofun, nofun⟩
    · exact consistent.states other entry there
  · intro owner
    have pending := settle_pending live (s.contexts.insert contextId
      (StoreState.createdEntry data contextId expiry assistant)) outcome owner
    have counted : (StoreState.settle { s with
        contexts := s.contexts.insert contextId
          (StoreState.createdEntry data contextId expiry assistant) } data outcome).live owner =
        s.live owner + if data.request.owner = owner ∧ ContextState.active = .active then 1 else 0 :=
      AList.count_insert_of_none free
    have bounded := consistent.quota owner
    simp only [adds, and_true] at pending counted
    omega

theorem mutate (consistent : Consistent options s) {contextId : String} {entry : ContextEntry}
    {expiry : Option Instant} {assistant : Message} {outcome : IdempotencyEntry}
    (live : s.reservations.lookup data.reservationId = some data) (mutates : data.Mutates)
    (named : data.request.contextId = some contextId)
    (there : s.contexts.lookup contextId = some entry) (ended : outcome.state ≠ .busy) :
    Consistent options (StoreState.settle { s with
      contexts := s.contexts.insert contextId
        (StoreState.mutatedEntry data entry expiry assistant) } data outcome) := by
  have reserved : entry.reservationId = some data.reservationId := by
    obtain ⟨held, original, same, found, noted⟩ := consistent.held _ data live mutates
    cases named.symm.trans same
    cases there.symm.trans found
    exact noted
  have holds := (consistent.holds live there reserved).2.2
  have lookup : ∀ other, (s.contexts.insert contextId
      (StoreState.mutatedEntry data entry expiry assistant)).lookup other =
        if other = contextId then some (StoreState.mutatedEntry data entry expiry assistant)
        else s.contexts.lookup other := fun other => AList.lookup_insert_if
  obtain ⟨version, state, idle, owner⟩ := StoreState.mutatedEntry_spec data entry expiry assistant
  refine consistent.settled live ended ?_ ?_ ?_ ?_
  · intro other found r different
    rw [lookup]
    split
    · rename_i same
      subst same
      constructor
      · rintro ⟨⟨⟩, noted⟩
        cases idle.symm.trans noted
      · rintro ⟨before, noted⟩
        cases there.symm.trans before
        exact absurd (Option.some.inj (noted.symm.trans reserved)) different
    · exact Iff.rfl
  · intro other found after noted
    rw [lookup] at after
    split at after
    · cases after
      cases idle.symm.trans noted
    · rename_i different
      have same := (consistent.holds live after noted).2.1
      exact different (Option.some.inj (same.symm.trans named))
  · intro other found after
    rw [lookup] at after
    split at after
    · cases after
      rw [state]
      exact ⟨nofun, nofun⟩
    · exact consistent.states other found after
  · intro other
    have pending := settle_pending live (s.contexts.insert contextId
      (StoreState.mutatedEntry data entry expiry assistant)) outcome other
    have counted : (StoreState.settle { s with
        contexts := s.contexts.insert contextId
          (StoreState.mutatedEntry data entry expiry assistant) } data outcome).live other +
        (if entry.owner = other ∧ entry.state = .active then 1 else 0) = s.live other +
        if (StoreState.mutatedEntry data entry expiry assistant).owner = other ∧
          (StoreState.mutatedEntry data entry expiry assistant).state = .active then 1 else 0 :=
      AList.count_insert_of_some there
    have bounded := consistent.quota other
    rw [state, owner, holds.active] at counted
    omega

/-- The contexts after a reservation was taken off: as they were, but for its id. -/
theorem clearReservation_contexts (other : String) :
    (s.clearReservation data).contexts.lookup other =
      (s.contexts.lookup other).map fun entry =>
        if data.request.contextId = some other ∧ entry.reservationId = some data.reservationId then
          { entry with reservationId := none }
        else entry := by
  unfold StoreState.clearReservation
  split
  · rename_i contextId named
    change (s.contexts.modify _ _).lookup other = _
    rw [AList.lookup_modify]
    split
    · rename_i same
      subst same
      simp [named]
    · rename_i different
      have apart : contextId ≠ other := Ne.symm different
      simp [named, apart]
  · rename_i unnamed
    simp [unnamed]

theorem clearReservation_eq :
    s.clearReservation data = { s with contexts := (s.clearReservation data).contexts } := by
  unfold StoreState.clearReservation
  split <;> rfl

theorem clearReservation_live (owner : Owner) :
    (s.clearReservation data).live owner = s.live owner := by
  unfold StoreState.clearReservation
  split
  · refine AList.count_modify fun entry => ?_
    split <;> exact Iff.rfl
  · rfl

theorem abandon (consistent : Consistent options s) {outcome : IdempotencyEntry}
    (live : s.reservations.lookup data.reservationId = some data) (ended : outcome.state ≠ .busy) :
    Consistent options ((s.clearReservation data).settle data outcome) := by
  rw [clearReservation_eq]
  refine consistent.settled live ended ?_ ?_ ?_ ?_
  · intro contextId entry r different
    rw [clearReservation_contexts]
    constructor
    · rintro ⟨after, noted⟩
      obtain ⟨before, found, rfl⟩ := Option.map_eq_some_iff.mp after
      split at noted
      · cases noted
      · rename_i kept
        rw [if_neg kept]
        exact ⟨found, noted⟩
    · rintro ⟨before, noted⟩
      rw [before, Option.map_some, if_neg]
      · exact ⟨rfl, noted⟩
      · rintro ⟨-, other⟩
        exact different (Option.some.inj (noted.symm.trans other))
  · intro contextId entry after
    rw [clearReservation_contexts] at after
    obtain ⟨before, found, rfl⟩ := Option.map_eq_some_iff.mp after
    split
    · exact nofun
    · rename_i kept
      intro noted
      exact kept ⟨(consistent.holds live found noted).2.1, noted⟩
  · intro contextId entry after
    rw [clearReservation_contexts] at after
    obtain ⟨before, found, rfl⟩ := Option.map_eq_some_iff.mp after
    split <;> exact consistent.states contextId before found
  · intro owner
    have pending := settle_pending live (s.clearReservation data).contexts outcome owner
    have unchanged : (s.clearReservation data).live owner = s.live owner :=
      clearReservation_live owner
    have bounded := consistent.quota owner
    change (s.clearReservation data).live owner + _ ≤ _
    omega

theorem release (consistent : Consistent options s) {owner : Owner} {contextId key : String}
    {entry : ContextEntry} {outcome : IdempotencyEntry}
    (there : s.contexts.lookup contextId = some entry) (idle : entry.reservationId = none)
    (ended : outcome.state ≠ .busy) :
    Consistent options { s with
      contexts := s.contexts.insert contextId { entry with
        version := entry.version + 1
        state := .released
        expiresAt := none
        tombstoneUntil := tombstone options now }
      idempotency := s.idempotency.insert ⟨owner, llmContextRelease, key⟩ outcome } := by
  have apart : ∀ request : MutationRequest,
      completeKey request ≠ ⟨owner, llmContextRelease, key⟩ := by
    intro request same
    have actions : llmComplete = llmContextRelease := congrArg IdempotencyKey.action same
    exact absurd actions (by decide)
  have lookup : ∀ other, (s.contexts.insert contextId { entry with
      version := entry.version + 1
      state := .released
      expiresAt := none
      tombstoneUntil := tombstone options now }).lookup other =
        if other = contextId then some { entry with
          version := entry.version + 1
          state := .released
          expiresAt := none
          tombstoneUntil := tombstone options now }
        else s.contexts.lookup other := fun other => AList.lookup_insert_if
  constructor
  · intro other found r after noted
    rw [lookup] at after
    split at after
    · cases after
      cases idle.symm.trans noted
    · exact consistent.marked other found r after noted
  · intro r data live mutates
    obtain ⟨held, found, named, before, noted⟩ := consistent.held r data live mutates
    refine ⟨held, found, named, ?_, noted⟩
    rw [lookup, if_neg]
    · exact before
    · rintro rfl
      cases there.symm.trans before
      cases idle.symm.trans noted
  · exact consistent.named
  · intro other found after
    rw [lookup] at after
    split at after
    · cases after
      exact ⟨nofun, nofun⟩
    · exact consistent.states other found after
  · intro other found claim busy
    change (s.idempotency.insert _ _).lookup other = some found at claim
    rw [AList.lookup_insert_if] at claim
    split at claim
    · cases claim
      exact absurd busy ended
    · exact consistent.busy other found claim busy
  · intro r data live
    obtain ⟨claim, found, busy⟩ := consistent.claimed r data live
    refine ⟨claim, ?_, busy⟩
    change (s.idempotency.insert _ _).lookup _ = some claim
    rw [AList.lookup_insert_if, if_neg (apart data.request)]
    exact found
  · exact consistent.sole
  · intro other
    have counted : (s.contexts.insert contextId { entry with
          version := entry.version + 1
          state := .released
          expiresAt := none
          tombstoneUntil := tombstone options now }).count
          (fun entry => entry.owner = other ∧ entry.state = .active) +
        (if entry.owner = other ∧ entry.state = .active then 1 else 0) = s.live other +
        if entry.owner = other ∧ ContextState.released = .active then 1 else 0 :=
      AList.count_insert_of_some there
    have inactive : ¬ (entry.owner = other ∧ ContextState.released = .active) := by
      rintro ⟨-, ⟨⟩⟩
    rw [if_neg inactive] at counted
    have fewer := Nat.le.intro counted
    exact (Nat.add_le_add_right fewer _).trans (consistent.quota other)

/-- Every elementary change keeps the maps in agreement. -/
theorem change (consistent : Consistent options s) {fresh : String → Prop} {after : StoreState}
    (changes : Change options now fresh s after) : Consistent options after := by
  cases changes with
  | sweep => exact consistent.swept
  | install admitted unused new => exact consistent.install admitted unused
  | create expiry assistant live adds free ended =>
    exact consistent.create live adds free (by rw [ended]; exact nofun)
  | mutate expiry assistant live mutates named there ended =>
    exact consistent.mutate live mutates named there (by rw [ended]; exact nofun)
  | abandon live ended => exact consistent.abandon live (by rw [ended]; exact nofun)
  | release there idle unclaimed ended =>
    exact consistent.release there idle (by rw [ended]; exact nofun)

end Consistent
end Nps.Nwp.LlmContext
