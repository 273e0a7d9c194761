import NpsSdk.Nwp.ContextLaws

/-! What the context store leaves when an operation fails, and how far its statuses can be trusted. -/
namespace Nps.Nwp.LlmContext
open Nip (Instant Sha256)
open Outcome Transition

/-- An operation that fails has at most swept the store: nothing is half done. -/
structure FailuresAtomic [Sha256] [Rfc3339] (options : StoreOptions) (s : StoreState)
    (now : Instant) : Prop where
  reserve : ∀ {request newReservationId e},
    (s.reserve options now request newReservationId).1 = .error e →
    (s.reserve options now request newReservationId).2 = s.swept options now
  commit : ∀ {reservation assistant factory e},
    (s.commit options now reservation assistant factory).1 = .error e →
    (s.commit options now reservation assistant factory).2 = s
  abort : ∀ {reservation errorCode e}, (s.abort options now reservation errorCode).1 = .error e →
    (s.abort options now reservation errorCode).2 = s
  release : ∀ {owner contextId baseVersion key e},
    (s.release options now owner contextId baseVersion key).1 = .error e →
    (s.release options now owner contextId baseVersion key).2 = s.swept options now
  /-- A reservation that could not be committed can still be aborted, or committed with another id. -/
  live : ∀ {reservation assistant factory e} {data : ReservationData},
    (s.commit options now reservation assistant factory).1 = .error e →
    s.reservations.lookup reservation.reservationId = some data →
    (s.commit options now reservation assistant factory).2.reservations.lookup
      reservation.reservationId = some data

section Failures
variable {options : StoreOptions} {s : StoreState} {now : Instant} {e : StoreError}

theorem commit_failed [Rfc3339] {reservation : Reservation} {assistant : Message}
    {factory : Nat → StoreResult String}
    (failed : (s.commit options now reservation assistant factory).1 = .error e) :
    (s.commit options now reservation assistant factory).2 = s := by
  rcases s.commit_cases options now reservation assistant factory
    with ⟨_, same⟩ | ⟨_, _, _, ⟨_, same⟩ | ⟨_, _, same, _⟩⟩
  · rw [same]
  · rw [same]
  · rw [same] at failed
    cases failed

theorem release_failed {owner : Owner} {contextId key : String} {baseVersion : Nat}
    (failed : (s.release options now owner contextId baseVersion key).1 = .error e) :
    (s.release options now owner contextId baseVersion key).2 = s.swept options now := by
  have released := s.release_cases options now owner contextId baseVersion key
  generalize s.release options now owner contextId baseVersion key = result at released failed ⊢
  cases released with
  | refused => rfl
  | replayed => rfl
  | carriedOut => cases failed

/-- Whatever the state, the clock and the arguments are. -/
theorem failures_atomic [Sha256] [Rfc3339] (options : StoreOptions) (s : StoreState) (now : Instant) :
    FailuresAtomic options s now where
  reserve := by
    intro request newReservationId e failed
    rcases s.reserve_cases options now request newReservationId with ⟨_, same⟩ | ⟨_, same, -, -⟩
    · rw [same]
    · rw [same] at failed
      cases failed
  commit := commit_failed
  abort := by
    intro reservation errorCode e failed
    rcases s.abort_cases options now reservation errorCode with ⟨_, same⟩ | ⟨_, _, same, -⟩
    · rw [same]
    · rw [same] at failed
      cases failed
  release := release_failed
  live := by
    intro reservation assistant factory e data failed held
    rw [commit_failed failed]
    exact held

end Failures

def Named (s : StoreState) : Prop :=
  ∀ contextId entry, s.contexts.lookup contextId = some entry → entry.contextId = contextId

/-- The outcome of a completed mutation has the receipt of an active context. -/
def Receipted (idempotency : Assoc IdempotencyKey IdempotencyEntry) : Prop :=
  ∀ owner key outcome, idempotency.lookup ⟨owner, llmComplete, key⟩ = some outcome →
    outcome.state = .completed → ∃ receipt, outcome.receipt = some receipt ∧ receipt.state = .active

section Keeping
variable {options : StoreOptions} {s after : StoreState} {now : Instant}

theorem Named.insert (named : Named s) {contextId : String} {entry : ContextEntry}
    (own : entry.contextId = contextId) : Named { s with contexts := s.contexts.insert contextId entry } := by
  intro other found there
  change (s.contexts.insert contextId entry).lookup other = some found at there
  rw [AList.lookup_insert_if] at there
  split at there
  · rename_i same
    cases there
    exact own.trans same.symm
  · exact named other found there

theorem Named.edited (named : Named s) {after : StoreState}
    (edits : ∀ contextId entry, after.contexts.lookup contextId = some entry → ∃ before,
      s.contexts.lookup contextId = some before ∧ entry.contextId = before.contextId) : Named after := by
  intro contextId entry there
  obtain ⟨before, found, same⟩ := edits contextId entry there
  exact same.trans (named contextId before found)

theorem Named.swept (named : Named s) : Named (s.swept options now) := by
  refine named.edited fun contextId entry there => ?_
  obtain ⟨before, found, rfl⟩ := StoreState.swept_origin there
  refine ⟨before, found, ?_⟩
  unfold ContextEntry.expire
  split <;> rfl

theorem Change.named {fresh : String → Prop} (change : Change options now fresh s after)
    (named : Named s) : Named after := by
  cases change with
  | sweep => exact named.swept
  | install admitted unused new =>
    refine named.edited fun contextId entry there => ?_
    rw [Consistent.install_contexts admitted] at there
    split at there
    · obtain ⟨before, found, rfl⟩ := Option.map_eq_some_iff.mp there
      exact ⟨before, found, rfl⟩
    · exact ⟨entry, there, rfl⟩
  | create expiry assistant live adds free ended => exact named.insert rfl
  | @mutate data contextId entry expiry assistant _ live mutates same there ended =>
    refine named.insert (s := s) ?_
    unfold StoreState.mutatedEntry
    dsimp only
    split <;> exact named contextId entry there
  | abandon live ended =>
    refine named.edited fun contextId entry there => ?_
    change (s.clearReservation _).contexts.lookup contextId = some entry at there
    rw [Consistent.clearReservation_contexts] at there
    obtain ⟨before, found, rfl⟩ := Option.map_eq_some_iff.mp there
    refine ⟨before, found, ?_⟩
    split <;> rfl
  | @release owner contextId key entry outcome there idle unclaimed ended =>
    exact named.insert (s := s) (named contextId entry there)

variable {idempotency : Assoc IdempotencyKey IdempotencyEntry} {outcome : IdempotencyEntry}

theorem Receipted.insert (receipted : Receipted idempotency) {key : IdempotencyKey}
    (completed : key.action = llmComplete → outcome.state = .completed →
      ∃ receipt, outcome.receipt = some receipt ∧ receipt.state = .active) :
    Receipted (idempotency.insert key outcome) := by
  intro owner id found there ended
  rw [AList.lookup_insert_if] at there
  split at there
  · rename_i same
    cases there
    exact completed (same ▸ rfl) ended
  · exact receipted owner id found there ended

theorem Receipted.swept (receipted : Receipted s.idempotency) :
    Receipted (s.swept options now).idempotency :=
  fun owner key outcome there => receipted owner key outcome (StoreState.swept_outcome there).1

theorem Receipted.completed [Rfc3339] (receipted : Receipted s.idempotency) {data : ReservationData}
    {contextId : String} {version : Nat} {expiry : Option Instant} :
    Receipted (s.completed options now data contextId version expiry).2.idempotency :=
  receipted.insert fun _ _ => ⟨_, rfl, rfl⟩

theorem Receipted.commit [Rfc3339] (receipted : Receipted s.idempotency) {reservation : Reservation}
    {assistant : Message} {factory : Nat → StoreResult String} :
    Receipted (s.commit options now reservation assistant factory).2.idempotency := by
  unfold StoreState.commit StoreState.commitNew StoreState.commitExisting
  split
  · exact receipted
  · extract_lets expiry
    split
    all_goals
      try split
      all_goals first
        | exact receipted
        | exact Receipted.completed receipted

variable [Sha256] [Rfc3339]

theorem Receipted.perform (receipted : Receipted s.idempotency) (options : StoreOptions)
    (now : Instant) (call : Call) :
    Receipted (call.perform options s now).2.idempotency := by
  cases call with
  | reserve request newReservationId =>
    rcases s.reserve_cases options now request newReservationId with ⟨_, same⟩ | ⟨data, same, -, -⟩
    · simp only [Call.perform, same]
      exact receipted.swept
    · simp only [Call.perform, same]
      refine receipted.swept.insert fun _ completed => ?_
      cases completed
  | commit reservation assistant factory => exact receipted.commit
  | abort reservation errorCode =>
    rcases s.abort_cases options now reservation errorCode with ⟨_, same⟩ | ⟨data, _, same, -, -, failed⟩
    · simp only [Call.perform, same]
      exact receipted
    · simp only [Call.perform, same]
      refine Receipted.swept ?_
      rw [Consistent.clearReservation_eq]
      refine receipted.insert fun _ completed => ?_
      cases failed.symm.trans completed
  | release owner contextId baseVersion key =>
    have released := s.release_cases options now owner contextId baseVersion key
    simp only [Call.perform]
    generalize s.release options now owner contextId baseVersion key = result at released ⊢
    cases released with
    | refused => exact receipted.swept
    | replayed => exact receipted.swept
    | carriedOut =>
      have apart : llmContextRelease ≠ llmComplete := by decide
      exact receipted.swept.insert fun action => absurd action apart
  | status => exact receipted.swept
  | snapshot => exact receipted.swept
  | sweepExpired => exact receipted.swept

variable {w : World}

theorem Reachable.named (reachable : Reachable options w) : Named w.store := by
  obtain ⟨start, events, run⟩ := reachable
  have kept : Sound options w ∧ Named w.store := by
    refine run.invariant (P := fun w => Sound options w ∧ Named w.store) ?_ ⟨?_, ?_⟩
    · rintro w event after ⟨sound, named⟩ step
      exact ⟨step.sound sound, (step.operates sound).preserves (fun before change => change.named before) named⟩
    · exact Reachable.sound ⟨start, [], .refl _⟩
    · exact fun contextId entry there => by cases (AList.lookup_empty contextId).symm.trans there
  exact kept.2

theorem Reachable.receipted (reachable : Reachable options w) : Receipted w.store.idempotency := by
  obtain ⟨start, events, run⟩ := reachable
  refine run.invariant (P := fun w => Receipted w.store.idempotency) ?_ ?_
  · intro w event after receipted step
    have performed := receipted.perform options event.now event.call
    rwa [step.performed] at performed
  · exact fun owner key outcome there => by cases (AList.lookup_empty _).symm.trans there

end Keeping

variable [Sha256] [Rfc3339]

/-- What is reported as active can be read at the same time, at the version reported. -/
def Truthful (options : StoreOptions) (now : Instant) (owner : Owner)
    (result : StoreResult Status × StoreState) : Prop :=
  ∀ status contextId, result.1 = .ok status → status.state = .active →
    status.contextId = some contextId → ∃ snapshot,
      (result.2.snapshot options now owner contextId).1 = .ok snapshot ∧
        status.version = some snapshot.version

/-- The query is by the key of a completed mutation whose outcome is still kept, but whose context
has been removed. -/
def Outlived (s : StoreState) (options : StoreOptions) (now : Instant) (owner : Owner)
    (contextId idempotency : Option String) : Prop :=
  contextId = none ∧ ∃ key outcome receipt, idempotency = some key ∧
    s.idempotency.lookup ⟨owner, llmComplete, key⟩ = some outcome ∧ outcome.state = .completed ∧
    outcome.kept now = true ∧ outcome.receipt = some receipt ∧
    (s.swept options now).contexts.lookup receipt.contextId = none

section Statuses
variable {options : StoreOptions} {s : StoreState} {now : Instant} {owner : Owner}
  {contextId : String} {entry : ContextEntry} {status : Status}

omit [Sha256] [Rfc3339] in
/-- Sweeping again at the same time does nothing to a context that is still active. -/
theorem swept_again (there : (s.swept options now).contexts.lookup contextId = some entry)
    (active : entry.state = .active) :
    ((s.swept options now).swept options now).contexts.lookup contextId = some entry := by
  obtain ⟨before, found, rfl⟩ := StoreState.swept_origin there
  have unlapsed : before.lapsed now = false := by
    by_contra lapsed
    rw [ContextEntry.expire, if_pos (by simpa using lapsed)] at active
    cases active
  have same : before.expire options now = before := by
    rw [ContextEntry.expire, unlapsed]
    rfl
  rw [same] at there active ⊢
  rw [StoreState.swept_contexts, there, Option.map_some, same]
  exact Option.filter_some_pos (ContextEntry.kept_active active)

omit [Sha256] [Rfc3339] in
theorem snapshot_active (there : (s.swept options now).contexts.lookup contextId = some entry)
    (active : entry.state = .active) (owned : entry.owner = owner) : ∃ snapshot,
      ((s.swept options now).snapshot options now owner contextId).1 = .ok snapshot ∧
        snapshot.version = entry.version := by
  unfold StoreState.snapshot StoreState.requireMutable
  dsimp only
  rw [swept_again there active]
  simp only [Option.elim_some, ok_bind, owned, ensure_true, active]
  exact ⟨_, rfl, rfl⟩

omit [Sha256] in
theorem statusByContext_active (found : s.statusByContext owner contextId = .ok status)
    (active : status.state = .active) : ∃ entry, s.contexts.lookup contextId = some entry ∧
      entry.owner = owner ∧ entry.state = .active ∧ status.contextId = some entry.contextId ∧
      status.version = some entry.version := by
  obtain ⟨⟨⟩, -, found⟩ := bind_ok.mp found
  obtain ⟨entry, looked, found⟩ := bind_ok.mp found
  obtain ⟨⟨⟩, owned, found⟩ := bind_ok.mp found
  cases found
  refine ⟨entry, elim_ok.mp looked, ensure_ok.mp owned, ?_, rfl, rfl⟩
  change (if _ then ContextState.busy else entry.state) = .active at active
  split at active
  · cases active
  · exact active

omit [Sha256] in
theorem truthful_by_context (named : Named s)
    (found : (s.swept options now).statusByContext owner contextId = .ok status)
    (active : status.state = .active) {reported : String} (reports : status.contextId = some reported) :
    ∃ snapshot, ((s.swept options now).snapshot options now owner reported).1 = .ok snapshot ∧
      status.version = some snapshot.version := by
  obtain ⟨entry, there, owned, live, same, version⟩ := statusByContext_active found active
  rw [named.swept contextId entry there] at same
  cases same.symm.trans reports
  obtain ⟨snapshot, read, equal⟩ := snapshot_active there live owned
  exact ⟨snapshot, read, by rw [version, equal]⟩

variable {w : World} {idempotency : Option String}

/-- In a store that runs have led to, a status is truthful unless it answers for a context that its
outcome has outlived. -/
theorem status_truthful_iff {contextId : Option String} (reachable : Reachable options w) :
    Truthful options now owner (w.store.status options now owner contextId idempotency) ↔
      ¬ Outlived w.store options now owner contextId idempotency := by
  have named := reachable.named
  have receipted := reachable.receipted
  constructor
  · rintro truthful ⟨rfl, key, outcome, receipt, rfl, found, completed, kept, given, gone⟩
    obtain ⟨other, same, active⟩ := receipted owner key outcome found completed
    cases given.symm.trans same
    have reported : (w.store.status options now owner none (some key)).1 = .ok
        ⟨receipt.state, some receipt.contextId, some receipt.version, receipt.expiresAt, none, none⟩ := by
      simp [StoreState.status, StoreState.statusByOutcome, StoreState.swept_kept found kept, completed,
        given, StoreState.statusFromReceipt, gone]
    obtain ⟨snapshot, read, -⟩ := truthful _ receipt.contextId reported active rfl
    have missing : ((w.store.swept options now).swept options now).contexts.lookup receipt.contextId =
        none := by
      rw [StoreState.swept_contexts, gone]
      rfl
    simp only [StoreState.status, StoreState.snapshot, StoreState.requireMutable, missing] at read
    cases read
  · intro current status reported found active reports
    unfold StoreState.status at found
    dsimp only at found
    split at found
    · rename_i key
      obtain ⟨outcome, looked, found⟩ := bind_ok.mp found
      dsimp only at found
      cases state : outcome.state with
      | busy =>
        rw [state] at found
        cases found
        cases active
      | failed =>
        rw [state] at found
        cases found
        cases active
      | completed =>
        rw [state] at found
        obtain ⟨receipt, given, found⟩ := bind_ok.mp found
        unfold StoreState.statusFromReceipt at found
        split at found
        · exact truthful_by_context named found active reports
        · rename_i gone
          obtain ⟨there, kept⟩ := StoreState.swept_outcome (elim_ok.mp looked)
          exact absurd ⟨rfl, key, outcome, receipt, rfl, there, state, kept, elim_ok.mp given,
            by simpa using gone⟩ current
    · exact truthful_by_context named found active reports
    · cases found

end Statuses

namespace Outlasting

def options : StoreOptions := .normalized { defaultTtlSeconds := 1, tombstoneSeconds := 1 }

def owner : Owner := ⟨"urn:nps:agent:example.org:a1", "default"⟩

def contextId : String := "AQIDBAUGBwgJCgsMDQ4PEA"

def request : MutationRequest where
  operation := .create
  owner := owner
  contextId := none
  baseVersion := none
  binding := { model := "m1", systemMessages := [], tools := [], runtimeRevision := "1" }
  messages := [{ role := "user", content := some "hi" }]
  ttlSeconds := none
  idempotencyKey := "key-1"
  requestId := "request-1"

def reservation : Reservation := ⟨"reservation-1", .create, "request-1"⟩

def assistant : Message := { role := "assistant", content := some "hello" }

def second (count : Int) : Instant := Nip.Duration.seconds count

def reserved : StoreState := (({} : StoreState).reserve options 0 request (.ok "reservation-1")).2

def created : StoreResult Receipt × StoreState :=
  reserved.commit options 0 reservation assistant fun _ => .ok contextId

def young : World where
  store := created.2
  clock := 0
  issued := ["reservation-1"]

def old : World where
  store := created.2.swept options (second 1)
  clock := second 1
  issued := ["reservation-1"]

theorem young_reachable : Reachable options young := by
  have reserves : Step options { clock := 0 }
      ⟨0, .reserve request (.ok "reservation-1"), .reserved (.ok reservation)⟩
      ⟨reserved, 0, ["reservation-1"]⟩ := ⟨⟨Int.le_refl _, rfl⟩, rfl, nofun, rfl⟩
  have commits : Step options ⟨reserved, 0, ["reservation-1"]⟩
      ⟨0, .commit reservation assistant fun _ => .ok contextId, .committed created.1⟩ young :=
    ⟨⟨Int.le_refl _, rfl⟩, rfl, nofun, rfl⟩
  exact ⟨0, _, .next reserves (.single commits)⟩

theorem old_reachable : Reachable options old := by
  have sweeps : Step options young
      ⟨second 1, .sweepExpired, (Call.perform options young.store (second 1) .sweepExpired).1⟩ old :=
    ⟨⟨(by decide : (0 : Int) ≤ second 1), rfl⟩, rfl, nofun, rfl⟩
  exact young_reachable.step sweeps

omit [Sha256] [Rfc3339] in
/-- As long as the context is there, its key tells the truth about it. -/
theorem young_truthful : ∃ (_ : Sha256) (_ : Rfc3339),
    Truthful options 0 owner (young.store.status options 0 owner none (some "key-1")) := by
  let digest : Sha256 := ⟨fun bytes => bytes⟩
  let format : Rfc3339 := ⟨fun _ => none⟩
  refine ⟨digest, format, (status_truthful_iff young_reachable).mpr ?_⟩
  rintro ⟨-, key, outcome, receipt, same, found, -, -, given, gone⟩
  cases same
  cases found
  cases given
  cases gone

omit [Sha256] [Rfc3339] in
/-- Two seconds after a create, its key reports as active what cannot be read any more. -/
theorem old_untruthful : ¬ ∃ (_ : Sha256) (_ : Rfc3339), ∀ w now owner contextId idempotency,
    Reachable options w →
    Truthful options now owner (w.store.status options now owner contextId idempotency) := by
  rintro ⟨sha256, rfc3339, truthful⟩
  obtain ⟨snapshot, read, -⟩ := truthful old (second 2) owner none (some "key-1") old_reachable _ contextId
    rfl rfl rfl
  cases read

end Outlasting
end Nps.Nwp.LlmContext
