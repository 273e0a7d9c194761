import NpsSdk.Nwp.ContextRuns

/-! What the context store promises over every run: no update is lost, reservations and
contexts agree, keys are answered once, and the quota is kept. -/
namespace Nps.Nwp.LlmContext
open Nip (Instant Sha256)
open Outcome Transition

variable [Sha256] [Rfc3339]

def Reserves (options : StoreOptions) (w : World) (now : Instant) (request : MutationRequest)
    (reservation : Reservation) (after : World) : Prop :=
  ∃ newReservationId,
    Step options w ⟨now, .reserve request newReservationId, .reserved (.ok reservation)⟩ after

def Commits (options : StoreOptions) (w : World) (now : Instant) (reservation : Reservation)
    (assistant : Message) (receipt : Receipt) (after : World) : Prop :=
  ∃ factory,
    Step options w ⟨now, .commit reservation assistant factory, .committed (.ok receipt)⟩ after

def Aborts (options : StoreOptions) (w : World) (now : Instant) (reservation : Reservation)
    (after : World) : Prop :=
  ∃ errorCode, Step options w ⟨now, .abort reservation errorCode, .aborted (.ok ())⟩ after

section Steps
variable {options : StoreOptions} {w after : World} {now : Instant} {reservation : Reservation}

theorem Reserves.step {request : MutationRequest}
    (reserves : Reserves options w now request reservation after) :
    ∃ event, Step options w event after := by
  obtain ⟨newReservationId, step⟩ := reserves
  exact ⟨_, step⟩

theorem Reserves.admitted {request : MutationRequest}
    (reserves : Reserves options w now request reservation after) :
    ∃ data, data.request = request ∧ data.reservationId = reservation.reservationId ∧
      Admitted options (w.store.swept options now) data ∧
      after.store = (w.store.swept options now).install options now data ∧
      reservation.reservationId ∈ after.issued := by
  obtain ⟨newReservationId, step⟩ := reserves
  have performed := step.performed
  have issued := step.issued
  rcases w.store.reserve_cases options now request newReservationId
    with ⟨e, same⟩ | ⟨data, same, asked, admitted⟩
  · simp only [Call.perform, same] at performed
    cases congrArg Prod.fst performed
  · simp only [Call.perform, same] at performed
    obtain ⟨answer, store⟩ := Prod.mk.inj performed
    cases answer
    refine ⟨data, asked, rfl, admitted, store.symm, ?_⟩
    rw [issued]
    exact List.mem_append_left _ (List.mem_singleton_self _)

theorem Commits.committed {assistant : Message} {receipt : Receipt}
    (commits : Commits options w now reservation assistant receipt after) :
    ∃ data, data.reservationId = reservation.reservationId ∧
      w.store.reservations.lookup data.reservationId = some data ∧
      StoreState.Committed w.store options now assistant data receipt after.store := by
  obtain ⟨factory, step⟩ := commits
  have performed := step.performed
  rcases w.store.commit_cases options now reservation assistant factory
    with ⟨e, same⟩ | ⟨data, identity, live, ⟨e, same⟩ | ⟨other, later, same, committed⟩⟩
  · simp only [Call.perform, same] at performed
    cases congrArg Prod.fst performed
  · simp only [Call.perform, same] at performed
    cases congrArg Prod.fst performed
  · simp only [Call.perform, same] at performed
    obtain ⟨answer, store⟩ := Prod.mk.inj performed
    cases answer
    rw [← store]
    exact ⟨data, identity, live, committed⟩

/-- While a reservation of an existing context is live, that context stands as it found it. -/
theorem Reserves.holds {request : MutationRequest} {later : World} {events : List Event}
    (reachable : Reachable options w) (reserves : Reserves options w now request reservation after)
    (run : Run (Step options) after events later) {data : ReservationData}
    (live : later.store.reservations.lookup reservation.reservationId = some data) :
    data.request = request ∧ (request.operation ≠ .create →
      ∃ contextId before, request.contextId = some contextId ∧
        w.store.contexts.lookup contextId = some before ∧
        request.baseVersion = some before.version ∧ data.baseTranscript = before.transcript) := by
  obtain ⟨event, step⟩ := reserves.step
  obtain ⟨made, asked, identity, admitted, store, issued⟩ := reserves.admitted
  have keeps := run_keeps run (step.sound reachable.sound)
  have there : after.store.reservations.lookup reservation.reservationId = some made := by
    rw [store, ← identity]
    exact AList.lookup_insert _
  have same := keeps.live _ issued data live
  cases there.symm.trans same
  refine ⟨asked, fun other => ?_⟩
  obtain ⟨contextId, entry, based⟩ := admitted.based (by rw [asked]; exact other)
  obtain ⟨before, found, expired⟩ := StoreState.swept_origin based.there
  refine ⟨contextId, before, asked ▸ based.named, found, ?_, ?_⟩
  · rw [← asked, based.version, expired, ContextEntry.expire_version]
  · rw [based.transcript, expired, ContextEntry.expire_transcript]

end Steps

structure LostUpdateFree (options : StoreOptions) : Prop where
  append : ∀ {w reserved later after : World} {now now' : Instant} {request : MutationRequest}
    {reservation : Reservation} {assistant : Message} {receipt : Receipt} {events : List Event},
    Reachable options w → Reserves options w now request reservation reserved →
    request.operation = .append → Run (Step options) reserved events later →
    Commits options later now' reservation assistant receipt after →
    ∃ contextId before entry, request.contextId = some contextId ∧
      w.store.contexts.lookup contextId = some before ∧
      after.store.contexts.lookup contextId = some entry ∧
      entry.version = before.version + 1 ∧
      entry.transcript = before.transcript ++ request.messages ++ [assistant]
  fork : ∀ {w reserved later after : World} {now now' : Instant} {request : MutationRequest}
    {reservation : Reservation} {assistant : Message} {receipt : Receipt} {events : List Event},
    Reachable options w → Reserves options w now request reservation reserved →
    request.operation = .fork → Run (Step options) reserved events later →
    Commits options later now' reservation assistant receipt after →
    ∃ contextId before entry, request.contextId = some contextId ∧
      w.store.contexts.lookup contextId = some before ∧
      later.store.contexts.lookup receipt.contextId = none ∧
      after.store.contexts.lookup receipt.contextId = some entry ∧
      entry.transcript = before.transcript ++ request.messages ++ [assistant]
  /-- As long as the context is there. -/
  versions : ∀ {w after : World} {contextId : String} {before entry : ContextEntry}
    {events : List Event}, Reachable options w →
    Run (Guarded (fun w _ => (w.store.contexts.lookup contextId).isSome) (Step options))
      w events after →
    w.store.contexts.lookup contextId = some before →
    after.store.contexts.lookup contextId = some entry → before.version ≤ entry.version

section LostUpdates
variable {options : StoreOptions} {w reserved later after : World} {now now' : Instant}
  {request : MutationRequest} {reservation : Reservation} {assistant : Message} {receipt : Receipt}
  {events : List Event} (reachable : Reachable options w)
  (reserves : Reserves options w now request reservation reserved)
  (run : Run (Step options) reserved events later)
  (commits : Commits options later now' reservation assistant receipt after)
include reachable reserves run commits

theorem append_commit (append : request.operation = .append) :
    ∃ contextId before entry, request.contextId = some contextId ∧
      w.store.contexts.lookup contextId = some before ∧
      after.store.contexts.lookup contextId = some entry ∧
      entry.version = before.version + 1 ∧
      entry.transcript = before.transcript ++ request.messages ++ [assistant] := by
  obtain ⟨data, identity, live, committed⟩ := commits.committed
  obtain ⟨asked, noted⟩ := reserves.holds reachable run (identity ▸ live)
  obtain ⟨contextId, before, named, there, version, transcript⟩ := noted (by rw [append]; exact nofun)
  have operation : data.request.operation = .append := asked ▸ append
  obtain ⟨event, step⟩ := reserves.step
  have consistent := ((reachable.step step).run run).sound.consistent
  generalize after.store = store at committed ⊢
  cases committed with
  | created expiry adds => exact absurd adds (not_adds_of_mutates (.inl operation))
  | @mutated other entry _ _ expiry mutates named' found ended =>
    obtain ⟨held, original, same, found', reserved⟩ := consistent.held _ data live mutates
    cases named'.symm.trans same
    cases found.symm.trans found'
    have holds := (consistent.holds live found reserved).2.2
    rw [asked, named] at named'
    cases named'
    have versions : entry.version = before.version :=
      Option.some.inj (holds.version.symm.trans (asked ▸ version))
    refine ⟨contextId, before, _, named, there, AList.lookup_insert _, ?_, ?_⟩
    · rw [(StoreState.mutatedEntry_spec data entry expiry assistant).1, versions]
    · unfold StoreState.mutatedEntry
      rw [if_neg (by rw [operation]; exact nofun), ← asked, ← transcript, holds.transcript]

theorem fork_commit (fork : request.operation = .fork) :
    ∃ contextId before entry, request.contextId = some contextId ∧
      w.store.contexts.lookup contextId = some before ∧
      later.store.contexts.lookup receipt.contextId = none ∧
      after.store.contexts.lookup receipt.contextId = some entry ∧
      entry.transcript = before.transcript ++ request.messages ++ [assistant] := by
  obtain ⟨data, identity, live, committed⟩ := commits.committed
  obtain ⟨asked, noted⟩ := reserves.holds reachable run (identity ▸ live)
  obtain ⟨contextId, before, named, there, version, transcript⟩ := noted (by rw [fork]; exact nofun)
  have operation : data.request.operation = .fork := asked ▸ fork
  generalize after.store = store at committed ⊢
  cases committed with
  | mutated expiry mutates => exact absurd (.inr operation) (not_adds_of_mutates mutates)
  | created expiry adds free same ended =>
    subst same
    refine ⟨contextId, before, _, named, there, free, AList.lookup_insert _, ?_⟩
    rw [StoreState.createdEntry, if_pos operation, transcript, asked]

end LostUpdates

theorem run_versions {options : StoreOptions} {w after : World} {contextId : String}
    {before entry : ContextEntry} {events : List Event} (reachable : Reachable options w)
    (run : Run (Guarded (fun w _ => (w.store.contexts.lookup contextId).isSome) (Step options))
      w events after)
    (there : w.store.contexts.lookup contextId = some before)
    (found : after.store.contexts.lookup contextId = some entry) :
    before.version ≤ entry.version := by
  induction run generalizing before with
  | refl w =>
    cases there.symm.trans found
    exact Nat.le_refl _
  | @next w middle after event events head rest ih =>
    have alive : ∃ between, middle.store.contexts.lookup contextId = some between := by
      cases rest with
      | refl => exact ⟨entry, found⟩
      | next later _ => exact Option.isSome_iff_exists.mp later.1
    obtain ⟨between, still⟩ := alive
    have older := (head.2.operates reachable.sound).versions there still
    exact older.trans (ih (reachable.step head.2) still found)

/-- Whatever happens between a reservation and its commit, the commit adds to exactly what was
reserved, and versions only rise. -/
theorem lost_update_free (options : StoreOptions) : LostUpdateFree options where
  append reachable reserves append run commits :=
    append_commit reachable reserves run commits append
  fork reachable reserves fork run commits := fork_commit reachable reserves run commits fork
  versions := run_versions

def ReservedBy (s : StoreState) (contextId r : String) (data : ReservationData) : Prop :=
  s.reservations.lookup r = some data ∧ data.Mutates ∧ data.request.contextId = some contextId

structure ReservationsAgree (options : StoreOptions) : Prop where
  noted_iff : ∀ {w : World} {contextId r : String} {entry : ContextEntry}, Reachable options w →
    w.store.contexts.lookup contextId = some entry →
    (entry.reservationId = some r ↔
      ∃ data, ReservedBy w.store contextId r data ∧ data.request.owner = entry.owner)
  at_most_one : ∀ {w : World} {contextId r r' : String} {data data' : ReservationData},
    Reachable options w → ReservedBy w.store contextId r data →
    ReservedBy w.store contextId r' data' → r = r'
  /-- A context stays as it was when reserved, neither expired nor released. -/
  kept : ∀ {w reserved later : World} {now : Instant} {request : MutationRequest}
    {reservation : Reservation} {events : List Event} {data : ReservationData},
    Reachable options w → Reserves options w now request reservation reserved →
    request.operation = .append ∨ request.operation = .reset →
    Run (Step options) reserved events later →
    later.store.reservations.lookup reservation.reservationId = some data →
    ∃ contextId before entry, request.contextId = some contextId ∧
      w.store.contexts.lookup contextId = some before ∧
      later.store.contexts.lookup contextId = some entry ∧
      entry.reservationId = some reservation.reservationId ∧
      entry.state = .active ∧ entry.version = before.version
  /-- The context is there when the reservation is committed, at any time. -/
  commits : ∀ {w : World} {reservation : Reservation} {contextId : String} {data : ReservationData},
    Reachable options w → ReservedBy w.store contextId reservation.reservationId data →
    ∀ now assistant factory,
      ∃ receipt, (w.store.commit options now reservation assistant factory).1 = .ok receipt
  /-- What has ended is noted nowhere, and what is noted is live. -/
  freed : ∀ {w after : World} {now : Instant} {reservation : Reservation}, Reachable options w →
    (∃ assistant receipt, Commits options w now reservation assistant receipt after) ∨
      Aborts options w now reservation after →
    ∀ contextId entry, after.store.contexts.lookup contextId = some entry →
      entry.reservationId ≠ some reservation.reservationId ∧
      ∀ r, entry.reservationId = some r → (after.store.reservations.lookup r).isSome

section Agreement
variable {options : StoreOptions} {w reserved later after : World} {now : Instant}
  {reservation : Reservation} {contextId r : String} {data : ReservationData}

omit [Sha256] [Rfc3339] in
theorem ReservedBy.noted {s : StoreState} (reserved : ReservedBy s contextId r data)
    (consistent : Consistent options s) :
    ∃ entry, s.contexts.lookup contextId = some entry ∧ entry.reservationId = some r ∧
      Holds data entry := by
  obtain ⟨live, mutates, named⟩ := reserved
  obtain ⟨held, entry, same, there, noted⟩ := consistent.held r data live mutates
  cases named.symm.trans same
  exact ⟨entry, there, noted, (consistent.holds live there noted).2.2⟩

theorem reserved_kept {request : MutationRequest} {events : List Event}
    (reachable : Reachable options w)
    (reserves : Reserves options w now request reservation reserved)
    (mutates : request.operation = .append ∨ request.operation = .reset)
    (run : Run (Step options) reserved events later)
    (live : later.store.reservations.lookup reservation.reservationId = some data) :
    ∃ contextId before entry, request.contextId = some contextId ∧
      w.store.contexts.lookup contextId = some before ∧
      later.store.contexts.lookup contextId = some entry ∧
      entry.reservationId = some reservation.reservationId ∧
      entry.state = .active ∧ entry.version = before.version := by
  obtain ⟨asked, noted⟩ := reserves.holds reachable run live
  have operation : request.operation ≠ .create := by
    rintro create
    rw [create] at mutates
    rcases mutates with ⟨⟨⟩⟩ | ⟨⟨⟩⟩
  obtain ⟨contextId, before, named, there, version, -⟩ := noted operation
  obtain ⟨event, step⟩ := reserves.step
  have consistent := ((reachable.step step).run run).sound.consistent
  have reservedBy : ReservedBy later.store contextId reservation.reservationId data :=
    ⟨live, by rwa [ReservationData.Mutates, asked], asked ▸ named⟩
  obtain ⟨entry, found, on, holds⟩ := reservedBy.noted consistent
  refine ⟨contextId, before, entry, named, there, found, on, holds.active, ?_⟩
  exact Option.some.inj (holds.version.symm.trans (asked ▸ version))

omit [Sha256] in
theorem reserved_commits {s : StoreState} (consistent : Consistent options s)
    (reserved : ReservedBy s contextId reservation.reservationId data) (now : Instant)
    (assistant : Message) (factory : Nat → StoreResult String) :
    ∃ receipt, (s.commit options now reservation assistant factory).1 = .ok receipt := by
  obtain ⟨entry, there, -⟩ := reserved.noted consistent
  obtain ⟨live, mutates, named⟩ := reserved
  have required : s.requireReservation reservation = .ok data := by
    unfold StoreState.requireReservation
    rw [live]
    have identity := (consistent.named _ data live).1
    simp [identity, ensure_true]
  unfold StoreState.commit StoreState.commitExisting
  rw [required]
  rcases mutates with append | reset
  · simp only [append, named, there]
    exact ⟨_, rfl⟩
  · simp only [reset, named, there]
    exact ⟨_, rfl⟩

theorem ended_gone
    (ends : (∃ assistant receipt, Commits options w now reservation assistant receipt after) ∨
      Aborts options w now reservation after) :
    after.store.reservations.lookup reservation.reservationId = none := by
  rcases ends with ⟨assistant, receipt, commits⟩ | ⟨errorCode, step⟩
  · obtain ⟨data, identity, live, committed⟩ := commits.committed
    rw [← identity]
    generalize after.store = store at committed ⊢
    cases committed with
    | created => exact AList.lookup_erase _ _
    | mutated => exact AList.lookup_erase _ _
  · have performed := step.performed
    rcases w.store.abort_cases options now reservation errorCode
      with ⟨e, same⟩ | ⟨data, outcome, same, identity, live, ended⟩
    · simp only [Call.perform, same] at performed
      cases congrArg Prod.fst performed
    · simp only [Call.perform, same] at performed
      rw [← (Prod.mk.inj performed).2, ← identity]
      exact AList.lookup_erase _ _

theorem ended_freed (reachable : Reachable options w)
    (ends : (∃ assistant receipt, Commits options w now reservation assistant receipt after) ∨
      Aborts options w now reservation after) {entry : ContextEntry}
    (there : after.store.contexts.lookup contextId = some entry) :
    entry.reservationId ≠ some reservation.reservationId ∧
      ∀ r, entry.reservationId = some r → (after.store.reservations.lookup r).isSome := by
  have step : ∃ event, Step options w event after := by
    rcases ends with ⟨_, _, _, step⟩ | ⟨_, step⟩ <;> exact ⟨_, step⟩
  obtain ⟨event, step⟩ := step
  have consistent := (step.sound reachable.sound).consistent
  constructor
  · intro noted
    obtain ⟨data, live, -⟩ := consistent.marked contextId entry _ there noted
    cases (ended_gone ends).symm.trans live
  · intro r noted
    obtain ⟨data, live, -⟩ := consistent.marked contextId entry r there noted
    exact Option.isSome_iff_exists.mpr ⟨data, live⟩

/-- Reservations and the contexts they are of never disagree. -/
theorem reservations_agree (options : StoreOptions) : ReservationsAgree options where
  noted_iff := by
    intro w contextId r entry reachable there
    have consistent := reachable.sound.consistent
    constructor
    · intro noted
      obtain ⟨data, live, mutates, named, holds⟩ := consistent.marked contextId entry r there noted
      exact ⟨data, ⟨live, mutates, named⟩, holds.owner.symm⟩
    · rintro ⟨data, reserved, -⟩
      obtain ⟨other, found, noted, -⟩ := reserved.noted consistent
      cases there.symm.trans found
      exact noted
  at_most_one := by
    intro w contextId r r' data data' reachable reserved reserved'
    have consistent := reachable.sound.consistent
    obtain ⟨entry, there, noted, -⟩ := reserved.noted consistent
    obtain ⟨entry', there', noted', -⟩ := reserved'.noted consistent
    cases there.symm.trans there'
    exact Option.some.inj (noted.symm.trans noted')
  kept reachable reserves mutates run live := reserved_kept reachable reserves mutates run live
  commits reachable reserved := reserved_commits reachable.sound.consistent reserved
  freed reachable ends _ _ there := ended_freed reachable ends there

end Agreement

end Nps.Nwp.LlmContext
