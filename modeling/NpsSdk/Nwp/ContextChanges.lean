import Mathlib.Logic.Relation
import NpsSdk.Nwp.ContextStore

/-! What the operations of the context store can do to its state, as a few elementary
changes that every invariant is checked against. -/
namespace Nps.Nwp.LlmContext
open Nip (Instant Sha256)
open Outcome

def ReservationData.Mutates (data : ReservationData) : Prop :=
  data.request.operation = .append ∨ data.request.operation = .reset

def ReservationData.Adds (data : ReservationData) : Prop :=
  data.request.operation = .create ∨ data.request.operation = .fork

instance (data : ReservationData) : Decidable data.Mutates := inferInstanceAs (Decidable (_ ∨ _))
instance (data : ReservationData) : Decidable data.Adds := inferInstanceAs (Decidable (_ ∨ _))

/-- The context a mutation starts from is the owner's, neither expired nor released, without
a reservation and at the version and transcript that the reservation notes. -/
structure Based (s : StoreState) (data : ReservationData) (contextId : String)
    (entry : ContextEntry) : Prop where
  named : data.request.contextId = some contextId
  there : s.contexts.lookup contextId = some entry
  owner : entry.owner = data.request.owner
  fresh : entry.state ≠ .expired ∧ entry.state ≠ .released
  idle : entry.reservationId = none
  version : data.request.baseVersion = some entry.version
  transcript : data.baseTranscript = entry.transcript

/-- What every admitted reservation meets. -/
structure Admitted (options : StoreOptions) (s : StoreState) (data : ReservationData) : Prop where
  free : s.idempotency.lookup (completeKey data.request) = none
  operation : data.request.operation ≠ .release
  room : data.Adds → s.live data.request.owner + s.pending data.request.owner <
    options.maxContextsPerPrincipal
  based : data.request.operation ≠ .create → ∃ contextId entry, Based s data contextId entry

/-- One elementary change of the store at a time of the clock. -/
inductive Change (options : StoreOptions) (now : Instant) (fresh : String → Prop) :
    StoreState → StoreState → Prop where
  | sweep (s : StoreState) : Change options now fresh s (s.swept options now)
  | install {s : StoreState} {data : ReservationData} : Admitted options s data →
      s.reservations.lookup data.reservationId = none → fresh data.reservationId →
      Change options now fresh s (s.install options now data)
  | create {s : StoreState} {data : ReservationData} {contextId : String} (expiry : Option Instant)
      (assistant : Message) {outcome : IdempotencyEntry} :
      s.reservations.lookup data.reservationId = some data → data.Adds →
      s.contexts.lookup contextId = none → outcome.state = .completed →
      Change options now fresh s (StoreState.settle { s with
        contexts := s.contexts.insert contextId (StoreState.createdEntry data contextId expiry assistant) }
        data outcome)
  | mutate {s : StoreState} {data : ReservationData} {contextId : String} {entry : ContextEntry}
      (expiry : Option Instant) (assistant : Message) {outcome : IdempotencyEntry} :
      s.reservations.lookup data.reservationId = some data → data.Mutates →
      data.request.contextId = some contextId → s.contexts.lookup contextId = some entry →
      outcome.state = .completed →
      Change options now fresh s (StoreState.settle { s with
        contexts := s.contexts.insert contextId (StoreState.mutatedEntry data entry expiry assistant) }
        data outcome)
  | abandon {s : StoreState} {data : ReservationData} {outcome : IdempotencyEntry} :
      s.reservations.lookup data.reservationId = some data → outcome.state = .failed →
      Change options now fresh s ((s.clearReservation data).settle data outcome)
  | release {s : StoreState} {owner : Owner} {contextId key : String} {entry : ContextEntry}
      {outcome : IdempotencyEntry} : s.contexts.lookup contextId = some entry →
      entry.reservationId = none → s.idempotency.lookup ⟨owner, llmContextRelease, key⟩ = none →
      outcome.state = .completed →
      Change options now fresh s { s with
        contexts := s.contexts.insert contextId { entry with
          version := entry.version + 1
          state := .released
          expiresAt := none
          tombstoneUntil := tombstone options now }
        idempotency := s.idempotency.insert ⟨owner, llmContextRelease, key⟩ outcome }

abbrev Changes (options : StoreOptions) (now : Instant) (fresh : String → Prop) :
    StoreState → StoreState → Prop :=
  Relation.ReflTransGen (Change options now fresh)

namespace StoreState
variable {s after : StoreState} {options : StoreOptions} {now : Instant}

theorem requireMutable_ok {owner : Owner} {contextId : String} {entry : ContextEntry}
    (ok : s.requireMutable owner contextId = .ok entry) :
    s.contexts.lookup contextId = some entry ∧ entry.owner = owner ∧
      entry.state ≠ .expired ∧ entry.state ≠ .released := by
  obtain ⟨found, looked, ok⟩ := bind_ok.mp ok
  obtain ⟨⟨⟩, owned, ok⟩ := bind_ok.mp ok
  split at ok
  · cases ok
  · cases ok
  · rename_i expired released
    cases ok
    exact ⟨elim_ok.mp looked, ensure_ok.mp owned, expired, released⟩

theorem requireReservation_ok {reservation : Reservation} {data : ReservationData}
    (ok : s.requireReservation reservation = .ok data) :
    data.reservationId = reservation.reservationId ∧
      s.reservations.lookup data.reservationId = some data := by
  obtain ⟨found, looked, ok⟩ := bind_ok.mp ok
  obtain ⟨⟨⟩, same, ok⟩ := bind_ok.mp ok
  cases ok
  have identity := ensure_ok.mp same
  refine ⟨identity, ?_⟩
  rw [identity]
  exact elim_ok.mp looked

theorem validateRequest_ok {request : MutationRequest} (ok : validateRequest request = .ok ()) :
    request.operation ≠ .release := by
  obtain ⟨⟨⟩, operation, -⟩ := bind_ok.mp ok
  exact ensure_ok.mp operation

theorem admission_ok [Sha256] {request : MutationRequest} {newReservationId : StoreResult String}
    {data : ReservationData} (ok : s.admission options now request newReservationId = .ok data) :
    data.request = request ∧ newReservationId = .ok data.reservationId ∧
      Admitted options s data := by
  obtain ⟨⟨⟩, valid, ok⟩ := bind_ok.mp ok
  obtain ⟨⟨⟩, -, ok⟩ := bind_ok.mp ok
  obtain ⟨⟨⟩, free, ok⟩ := bind_ok.mp ok
  have operation := validateRequest_ok valid
  have unclaimed := Option.isNone_iff_eq_none.mp (ensure_ok.mp free)
  split at ok
  · rename_i create
    obtain ⟨⟨⟩, room, ok⟩ := bind_ok.mp ok
    obtain ⟨reservationId, generated, ok⟩ := bind_ok.mp ok
    cases ok
    exact ⟨rfl, generated, unclaimed, operation, fun _ => ensure_ok.mp room, fun other =>
      absurd create other⟩
  · rename_i other
    split at ok
    · rename_i contextId baseVersion named versioned
      obtain ⟨entry, mutable, ok⟩ := bind_ok.mp ok
      obtain ⟨⟨⟩, idle, ok⟩ := bind_ok.mp ok
      obtain ⟨⟨⟩, -, ok⟩ := bind_ok.mp ok
      obtain ⟨⟨⟩, room, ok⟩ := bind_ok.mp ok
      obtain ⟨reservationId, generated, ok⟩ := bind_ok.mp ok
      cases ok
      obtain ⟨there, owner, fresh⟩ := requireMutable_ok mutable
      obtain ⟨unreserved, version⟩ := ensure_ok.mp idle
      have allocated (adds : request.operation = .create ∨ request.operation = .fork) :
          s.live request.owner + s.pending request.owner < options.maxContextsPerPrincipal := by
        rcases adds with create | fork
        · exact absurd create other
        · rw [ensureRoomToFork, if_pos fork] at room
          exact ensure_ok.mp room
      exact ⟨rfl, generated, unclaimed, operation, allocated, fun _ => ⟨contextId, entry, named,
        there, owner, fresh, unreserved, versioned.trans (congrArg some version.symm), rfl⟩⟩
    · cases ok

theorem reserve_cases [Sha256] (s : StoreState) (options : StoreOptions) (now : Instant)
    (request : MutationRequest) (newReservationId : StoreResult String) :
    (∃ e, s.reserve options now request newReservationId = (.error e, s.swept options now)) ∨
    ∃ data, s.reserve options now request newReservationId =
        (.ok ⟨data.reservationId, request.operation, request.requestId⟩,
          (s.swept options now).install options now data) ∧
      data.request = request ∧ Admitted options (s.swept options now) data := by
  simp only [reserve]
  split
  · rename_i data admitted
    obtain ⟨same, -, meets⟩ := admission_ok admitted
    exact .inr ⟨data, rfl, same, meets⟩
  · rename_i e refused
    exact .inl ⟨e, rfl⟩

theorem nextContextId_ok {factory : Nat → StoreResult String} {tries attempt : Nat}
    {contextId : String} (ok : s.nextContextId factory tries attempt = .ok contextId) :
    s.contexts.lookup contextId = none := by
  induction tries generalizing attempt with
  | zero => cases ok
  | succ tries ih =>
    obtain ⟨value, -, ok⟩ := bind_ok.mp ok
    obtain ⟨⟨⟩, -, ok⟩ := bind_ok.mp ok
    split at ok
    · rename_i free
      cases ok
      exact Option.isNone_iff_eq_none.mp free
    · exact ih ok

/-- What a commit that succeeds found and left. -/
inductive Committed [Rfc3339] (s : StoreState) (options : StoreOptions) (now : Instant)
    (assistant : Message) (data : ReservationData) : Receipt → StoreState → Prop where
  | created {contextId : String} {receipt : Receipt} {outcome : IdempotencyEntry}
      (expiry : Option Instant) : data.Adds → s.contexts.lookup contextId = none →
      receipt.contextId = contextId → outcome.state = .completed →
      outcome.retainUntil = now + options.idempotencyTtl →
      Committed s options now assistant data receipt (StoreState.settle { s with
        contexts := s.contexts.insert contextId (createdEntry data contextId expiry assistant) }
        data outcome)
  | mutated {contextId : String} {entry : ContextEntry} {receipt : Receipt}
      {outcome : IdempotencyEntry} (expiry : Option Instant) : data.Mutates →
      data.request.contextId = some contextId → s.contexts.lookup contextId = some entry →
      outcome.state = .completed → outcome.retainUntil = now + options.idempotencyTtl →
      Committed s options now assistant data receipt (StoreState.settle { s with
        contexts := s.contexts.insert contextId (mutatedEntry data entry expiry assistant) }
        data outcome)

section Commits
variable [Rfc3339] {data : ReservationData} {expiry : Option Instant} {assistant : Message}

/-- A commit fails and changes nothing, or succeeds. -/
def FailsOr (data : ReservationData) (s : StoreState) (options : StoreOptions) (now : Instant)
    (assistant : Message) (result : StoreResult Receipt × StoreState) : Prop :=
  (∃ e, result = (.error e, s)) ∨
    ∃ receipt after, result = (.ok receipt, after) ∧
      Committed s options now assistant data receipt after

theorem commitNew_cases (factory : Nat → StoreResult String) (adds : data.Adds) :
    FailsOr data s options now assistant
      (s.commitNew options now data expiry assistant factory) := by
  unfold commitNew
  split
  · exact .inl ⟨_, rfl⟩
  · rename_i contextId free
    exact .inr ⟨_, _, rfl, .created expiry adds (nextContextId_ok free) rfl rfl rfl⟩

theorem commitExisting_cases {contextId : String} (mutates : data.Mutates)
    (named : data.request.contextId = some contextId) :
    FailsOr data s options now assistant
      (s.commitExisting options now data contextId expiry assistant) := by
  unfold commitExisting
  split
  · exact .inl ⟨_, rfl⟩
  · rename_i entry there
    exact .inr ⟨_, _, rfl, .mutated expiry mutates named there rfl rfl⟩

theorem commit_cases (s : StoreState) (options : StoreOptions) (now : Instant)
    (reservation : Reservation) (assistant : Message)
    (factory : Nat → StoreResult String) :
    (∃ e, s.commit options now reservation assistant factory = (.error e, s)) ∨
    ∃ data, data.reservationId = reservation.reservationId ∧
      s.reservations.lookup data.reservationId = some data ∧
      FailsOr data s options now assistant
        (s.commit options now reservation assistant factory) := by
  unfold commit
  split
  · exact .inl ⟨_, rfl⟩
  · rename_i data required
    obtain ⟨identity, held⟩ := requireReservation_ok required
    refine .inr ⟨data, identity, held, ?_⟩
    extract_lets expiry
    split
    · rename_i create
      exact commitNew_cases factory (.inl create)
    · rename_i fork
      exact commitNew_cases factory (.inr fork)
    · rename_i append named
      exact commitExisting_cases (.inl append) named
    · rename_i reset named
      exact commitExisting_cases (.inr reset) named
    · exact .inl ⟨_, rfl⟩
    · exact .inl ⟨_, rfl⟩
    · exact .inl ⟨_, rfl⟩

end Commits

theorem abort_cases (s : StoreState) (options : StoreOptions) (now : Instant)
    (reservation : Reservation) (errorCode : Option String) :
    (∃ e, s.abort options now reservation errorCode = (.error e, s)) ∨
    ∃ data outcome, s.abort options now reservation errorCode =
        (.ok (), ((s.clearReservation data).settle data outcome).swept options now) ∧
      data.reservationId = reservation.reservationId ∧
      s.reservations.lookup data.reservationId = some data ∧ outcome.state = .failed := by
  unfold abort
  split
  · exact .inl ⟨_, rfl⟩
  · rename_i data required
    obtain ⟨identity, held⟩ := requireReservation_ok required
    exact .inr ⟨data, _, rfl, identity, held, rfl⟩

/-- A release is refused, answered from the outcome of an earlier one, or carried out. -/
inductive Released (s : StoreState) (options : StoreOptions) (now : Instant) (owner : Owner)
    (contextId : String) (baseVersion : Nat) (key : String) :
    StoreResult Receipt × StoreState → Prop where
  | refused (e : StoreError) :
      Released s options now owner contextId baseVersion key (.error e, s.swept options now)
  | replayed {prior : IdempotencyEntry} : validateRelease options contextId key = .ok () →
      (s.swept options now).idempotency.lookup ⟨owner, llmContextRelease, key⟩ = some prior →
      Released s options now owner contextId baseVersion key
        (replayRelease prior contextId baseVersion, s.swept options now)
  | carriedOut {entry : ContextEntry} {receipt : Receipt} :
      validateRelease options contextId key = .ok () →
      (s.swept options now).idempotency.lookup ⟨owner, llmContextRelease, key⟩ = none →
      (s.swept options now).contexts.lookup contextId = some entry → entry.owner = owner →
      entry.reservationId = none → entry.version = baseVersion →
      receipt.contextId = contextId → receipt.version = entry.version + 1 →
      Released s options now owner contextId baseVersion key (.ok receipt,
        { s.swept options now with
          contexts := (s.swept options now).contexts.insert contextId { entry with
            version := entry.version + 1
            state := .released
            expiresAt := none
            tombstoneUntil := tombstone options now }
          idempotency := (s.swept options now).idempotency.insert ⟨owner, llmContextRelease, key⟩
            { state := .completed
              retainUntil := now + options.idempotencyTtl
              requestId := none
              receipt := some receipt
              contextId := some contextId
              baseVersion := some baseVersion } })

theorem release_cases (s : StoreState) (options : StoreOptions) (now : Instant) (owner : Owner)
    (contextId : String) (baseVersion : Nat) (key : String) :
    Released s options now owner contextId baseVersion key
      (s.release options now owner contextId baseVersion key) := by
  simp only [release]
  split
  · exact .refused _
  · rename_i valid
    split
    · rename_i prior retained
      exact .replayed valid retained
    · rename_i unclaimed
      split
      · exact .refused _
      · rename_i entry admitted
        obtain ⟨found, mutable, admitted⟩ := bind_ok.mp admitted
        obtain ⟨⟨⟩, idle, admitted⟩ := bind_ok.mp admitted
        cases admitted
        obtain ⟨there, owned, -⟩ := requireMutable_ok mutable
        obtain ⟨unreserved, version⟩ := ensure_ok.mp idle
        exact .carriedOut valid unclaimed there owned unreserved version rfl rfl

end StoreState
end Nps.Nwp.LlmContext
