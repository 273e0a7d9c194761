import NpsSdk.Nwp.ContextLaws

/-! Keys of the context store are answered once, for as long as their outcome is kept, and no
owner has more contexts than the quota. -/
namespace Nps.Nwp.LlmContext
open Nip (Instant Sha256)
open Outcome Transition

/-- The store still answers the key with the outcome of an earlier request. -/
def Retained (s : StoreState) (now : Instant) (key : IdempotencyKey) : Prop :=
  ∃ outcome, s.idempotency.lookup key = some outcome ∧ outcome.kept now = true

def Busy (s : StoreState) (key : IdempotencyKey) : Prop :=
  ∃ outcome, s.idempotency.lookup key = some outcome ∧ outcome.state = .busy

def Claims (s : StoreState) (owner : Owner) (key r : String) : Prop :=
  ∃ data, s.reservations.lookup r = some data ∧ data.request.owner = owner ∧
    data.request.idempotencyKey = key

def SameVersions (s after : StoreState) : Prop :=
  ∀ contextId entry, after.contexts.lookup contextId = some entry →
    ∃ before, s.contexts.lookup contextId = some before ∧ entry.version = before.version

def repeated : StoreError := idempotencyConflict "an outcome already exists for this idempotency key"

def repeatedRelease : StoreError :=
  idempotencyConflict "a release with this idempotency key already exists"

variable [Sha256] [Rfc3339]

def Releases (options : StoreOptions) (w : World) (now : Instant) (owner : Owner)
    (contextId : String) (baseVersion : Nat) (key : String) (receipt : Receipt) (after : World) :
    Prop :=
  Step options w ⟨now, .release owner contextId baseVersion key, .released (.ok receipt)⟩ after ∧
    ¬ Retained w.store now ⟨owner, llmContextRelease, key⟩

structure AnsweredOnce (options : StoreOptions) : Prop where
  busy_iff : ∀ {w : World} {owner : Owner} {key : String}, Reachable options w →
    (Busy w.store ⟨owner, llmComplete, key⟩ ↔ ∃! r, Claims w.store owner key r)
  /-- As long as a reservation is live, the outcome of its key stays as it is. -/
  undisturbed : ∀ {w after : World} {r : String} {data : ReservationData} {events : List Event},
    Reachable options w → w.store.reservations.lookup r = some data →
    Run (Step options) w events after → (after.store.reservations.lookup r).isSome →
    ∃ outcome, w.store.idempotency.lookup (completeKey data.request) = some outcome ∧
      outcome.state = .busy ∧
      after.store.idempotency.lookup (completeKey data.request) = some outcome
  refused : ∀ {w after : World} {now : Instant} {request : MutationRequest}
    {newReservationId : StoreResult String} {answer : Answer},
    Reachable options w → Retained w.store now (completeKey request) →
    validateRequest request = .ok () → ensureSupported options request.operation = .ok () →
    Step options w ⟨now, .reserve request newReservationId, answer⟩ after →
    answer = .reserved (.error repeated)
  /-- A request that is not valid is refused too, with what is wrong with it. -/
  invalid : ∀ {w after : World} {now : Instant} {request : MutationRequest}
    {newReservationId : StoreResult String} {answer : Answer} {e : StoreError},
    Reachable options w →
    (do validateRequest request; ensureSupported options request.operation) = .error e →
    Step options w ⟨now, .reserve request newReservationId, answer⟩ after →
    answer = .reserved (.error e)
  once : ∀ {w after later last : World} {now now' : Instant} {reservation other : Reservation}
    {data data' : ReservationData} {assistant assistant' : Message} {receipt receipt' : Receipt}
    {events : List Event}, Reachable options w →
    Commits options w now reservation assistant receipt after → Run (Step options) after events later →
    Commits options later now' other assistant' receipt' last →
    w.store.reservations.lookup reservation.reservationId = some data →
    later.store.reservations.lookup other.reservationId = some data' →
    completeKey data.request = completeKey data'.request → now + options.idempotencyTtl ≤ now'
  replayed : ∀ {w after later last : World} {now now' : Instant} {owner : Owner}
    {contextId key : String} {baseVersion : Nat} {receipt : Receipt} {answer : Answer}
    {events : List Event}, Reachable options w →
    Releases options w now owner contextId baseVersion key receipt after →
    Run (Step options) after events later → now' < now + options.idempotencyTtl →
    Step options later ⟨now', .release owner contextId baseVersion key, answer⟩ last →
    answer = .released (.ok receipt) ∧ SameVersions later.store last.store
  conflicts : ∀ {w after later last : World} {now now' : Instant} {owner : Owner}
    {contextId other key : String} {baseVersion otherVersion : Nat} {receipt : Receipt}
    {answer : Answer} {events : List Event}, Reachable options w →
    Releases options w now owner contextId baseVersion key receipt after →
    Run (Step options) after events later → now' < now + options.idempotencyTtl →
    (other, otherVersion) ≠ (contextId, baseVersion) → StoreState.validateRelease options other key = .ok () →
    Step options later ⟨now', .release owner other otherVersion key, answer⟩ last →
    answer = .released (.error repeatedRelease) ∧ SameVersions later.store last.store

section Reserving
variable {options : StoreOptions} {w after : World} {now : Instant} {request : MutationRequest}
  {newReservationId : StoreResult String} {answer : Answer}

omit [Sha256] [Rfc3339] in
theorem busy_iff {s : StoreState} (consistent : Consistent options s) {owner : Owner}
    {key : String} : Busy s ⟨owner, llmComplete, key⟩ ↔ ∃! r, Claims s owner key r := by
  constructor
  · rintro ⟨outcome, found, busy⟩
    obtain ⟨r, data, live, same⟩ := consistent.busy _ outcome found busy
    obtain ⟨owned, -, keyed⟩ := IdempotencyKey.mk.inj same
    refine ⟨r, ⟨data, live, owned, keyed⟩, ?_⟩
    rintro r' ⟨data', live', owned', keyed'⟩
    refine consistent.sole r' r data' data live' live ?_
    rw [completeKey, completeKey, owned', keyed', owned, keyed]
  · rintro ⟨r, ⟨data, live, owned, keyed⟩, -⟩
    obtain ⟨outcome, found, busy⟩ := consistent.claimed r data live
    rw [completeKey, owned, keyed] at found
    exact ⟨outcome, found, busy⟩

omit [Sha256] [Rfc3339] in
theorem Retained.swept {s : StoreState} {key : IdempotencyKey} (retained : Retained s now key) :
    ∃ outcome, (s.swept options now).idempotency.lookup key = some outcome := by
  obtain ⟨outcome, found, kept⟩ := retained
  exact ⟨outcome, StoreState.swept_kept found kept⟩

theorem Step.reserved
    (step : Step options w ⟨now, .reserve request newReservationId, answer⟩ after) :
    answer = .reserved (w.store.reserve options now request newReservationId).1 :=
  (congrArg Prod.fst step.performed).symm

theorem reserve_refused {e : StoreError}
    (refused : (w.store.swept options now).admission options now request newReservationId = .error e)
    (step : Step options w ⟨now, .reserve request newReservationId, answer⟩ after) :
    answer = .reserved (.error e) := by
  rw [step.reserved, StoreState.reserve, refused]

theorem reserve_repeated (retained : Retained w.store now (completeKey request))
    (valid : validateRequest request = .ok ())
    (supported : ensureSupported options request.operation = .ok ())
    (step : Step options w ⟨now, .reserve request newReservationId, answer⟩ after) :
    answer = .reserved (.error repeated) := by
  refine reserve_refused ?_ step
  obtain ⟨outcome, found⟩ : ∃ outcome,
      (w.store.swept options now).idempotency.lookup (completeKey request) = some outcome :=
    retained.swept
  rw [StoreState.admission, valid, supported, found]
  rfl

theorem reserve_invalid {e : StoreError}
    (invalid : (do validateRequest request; ensureSupported options request.operation) = .error e)
    (step : Step options w ⟨now, .reserve request newReservationId, answer⟩ after) :
    answer = .reserved (.error e) := by
  refine reserve_refused ?_ step
  rw [StoreState.admission]
  cases valid : validateRequest request with
  | error e' =>
    rw [valid] at invalid
    cases invalid
    rfl
  | ok =>
    rw [valid] at invalid
    change ensureSupported options request.operation = .error e at invalid
    change (ensureSupported options request.operation >>= _) = _
    rw [invalid]
    rfl

end Reserving

section Along
variable {options : StoreOptions} {w after : World} {events : List Event}

/-- The outcome of a key stays as it is while a reservation with it is live. -/
theorem run_claim (run : Run (Step options) w events after) (sound : Sound options w) {r : String}
    {data : ReservationData} {outcome : IdempotencyEntry}
    (live : w.store.reservations.lookup r = some data)
    (still : (after.store.reservations.lookup r).isSome)
    (claim : w.store.idempotency.lookup (completeKey data.request) = some outcome) :
    after.store.idempotency.lookup (completeKey data.request) = some outcome := by
  induction run with
  | refl => exact claim
  | @next w middle after event events step rest ih =>
    have old : r ∈ w.issued := sound.issued r data live
    have operates := step.operates sound
    obtain ⟨last, there⟩ := Option.isSome_iff_exists.mp still
    have between := (run_keeps rest (step.sound sound)).live r ((step.keeps sound).issued r old) last there
    cases live.symm.trans ((step.keeps sound).live r old last between)
    refine ih (step.sound sound) between still ?_
    exact operates.claim sound.consistent (fun given => step.fresh r given old) live
      (Option.isSome_iff_exists.mpr ⟨_, between⟩) claim

theorem run_outcome (run : Run (Step options) w events after) (sound : Sound options w)
    {key : IdempotencyKey} {outcome : IdempotencyEntry}
    (found : w.store.idempotency.lookup key = some outcome) (ended : outcome.state ≠ .busy) :
    after.store.idempotency.lookup key = some outcome ∨ outcome.retainUntil ≤ after.clock := by
  induction run with
  | refl => exact .inl found
  | @next w middle after event events step rest ih =>
    rcases (step.operates sound).outcome sound.consistent found ended with still | past
    · exact ih (step.sound sound) still
    · have later := (run_keeps rest (step.sound sound)).clock
      rw [step.clock.2] at later
      exact .inr (past.trans later)

end Along

section Committing
variable {options : StoreOptions} {w after later last : World} {now now' : Instant}
  {reservation other : Reservation} {data data' : ReservationData}
  {assistant assistant' : Message} {receipt receipt' : Receipt} {events : List Event}

theorem Commits.outcome (commits : Commits options w now reservation assistant receipt after)
    (live : w.store.reservations.lookup reservation.reservationId = some data) :
    ∃ outcome, after.store.idempotency.lookup (completeKey data.request) = some outcome ∧
      outcome.state ≠ .busy ∧ outcome.retainUntil = now + options.idempotencyTtl := by
  obtain ⟨ended, identity, there, committed⟩ := commits.committed
  rw [identity] at there
  cases live.symm.trans there
  generalize after.store = store at committed ⊢
  cases committed with
  | created expiry adds free named ended retained =>
    exact ⟨_, AList.lookup_insert _, by rw [ended]; exact nofun, retained⟩
  | mutated expiry mutates named found ended retained =>
    exact ⟨_, AList.lookup_insert _, by rw [ended]; exact nofun, retained⟩

theorem commit_once (reachable : Reachable options w)
    (commits : Commits options w now reservation assistant receipt after)
    (run : Run (Step options) after events later)
    (again : Commits options later now' other assistant' receipt' last)
    (live : w.store.reservations.lookup reservation.reservationId = some data)
    (live' : later.store.reservations.lookup other.reservationId = some data')
    (same : completeKey data.request = completeKey data'.request) :
    now + options.idempotencyTtl ≤ now' := by
  obtain ⟨outcome, found, ended, retained⟩ := commits.outcome live
  obtain ⟨_, step⟩ := commits
  obtain ⟨_, next⟩ := again
  have sound := step.sound reachable.sound
  obtain ⟨claim, claimed, busy⟩ := (run_sound run sound).consistent.claimed _ data' live'
  rcases run_outcome run sound found ended with still | past
  · rw [same] at still
    cases claimed.symm.trans still
    exact absurd busy ended
  · rw [← retained]
    exact past.trans next.clock.1

end Committing

section Releasing
variable {options : StoreOptions} {w after later last : World} {now now' : Instant}
  {owner : Owner} {contextId other key : String} {baseVersion otherVersion : Nat}
  {receipt : Receipt} {answer : Answer} {events : List Event}

omit [Sha256] [Rfc3339] in
theorem sameVersions_swept (s : StoreState) : SameVersions s (s.swept options now) := by
  intro contextId entry there
  obtain ⟨before, found, rfl⟩ := StoreState.swept_origin there
  exact ⟨before, found, ContextEntry.expire_version⟩

theorem Releases.outcome
    (releases : Releases options w now owner contextId baseVersion key receipt after) :
    StoreState.validateRelease options contextId key = .ok () ∧
      ∃ outcome, after.store.idempotency.lookup ⟨owner, llmContextRelease, key⟩ = some outcome ∧
        outcome.state = .completed ∧ outcome.retainUntil = now + options.idempotencyTtl ∧
        outcome.receipt = some receipt ∧ outcome.contextId = some contextId ∧
        outcome.baseVersion = some baseVersion := by
  obtain ⟨step, first⟩ := releases
  have performed := step.performed
  have released := w.store.release_cases options now owner contextId baseVersion key
  simp only [Call.perform] at performed
  generalize w.store.release options now owner contextId baseVersion key = result at released performed
  cases released with
  | refused e => cases congrArg Prod.fst performed
  | replayed valid retained => exact absurd ⟨_, StoreState.swept_outcome retained⟩ first
  | carriedOut valid unclaimed there owned idle version named versioned =>
    obtain ⟨same, store⟩ := Prod.mk.inj performed
    cases same
    rw [← store]
    exact ⟨valid, _, AList.lookup_insert _, rfl, rfl, rfl, rfl, rfl⟩

omit [Sha256] [Rfc3339] in
theorem release_answered {s : StoreState} {outcome : IdempotencyEntry}
    (valid : StoreState.validateRelease options contextId key = .ok ())
    (retained : (s.swept options now).idempotency.lookup ⟨owner, llmContextRelease, key⟩ =
      some outcome) :
    s.release options now owner contextId baseVersion key =
      (StoreState.replayRelease outcome contextId baseVersion, s.swept options now) := by
  simp only [StoreState.release, valid, retained]

/-- Until the outcome of a release is over, every release with its key is answered from it. -/
theorem Releases.answers (reachable : Reachable options w)
    (releases : Releases options w now owner contextId baseVersion key receipt after)
    (run : Run (Step options) after events later) (early : now' < now + options.idempotencyTtl)
    (valid : StoreState.validateRelease options other key = .ok ())
    (step : Step options later ⟨now', .release owner other otherVersion key, answer⟩ last) :
    answer = .released (if other = contextId ∧ otherVersion = baseVersion then .ok receipt
        else .error repeatedRelease) ∧
      SameVersions later.store last.store := by
  obtain ⟨-, outcome, found, completed, until_, stored, named, versioned⟩ := releases.outcome
  have ended : outcome.state ≠ .busy := by
    rw [completed]
    exact nofun
  have sound := releases.1.sound reachable.sound
  have late : now' < outcome.retainUntil := until_ ▸ early
  have still : later.store.idempotency.lookup ⟨owner, llmContextRelease, key⟩ = some outcome := by
    refine (run_outcome run sound found ended).resolve_right fun past => ?_
    exact absurd (past.trans step.clock.1) (Int.not_le.mpr late)
  have retained : (later.store.swept options now').idempotency.lookup
      ⟨owner, llmContextRelease, key⟩ = some outcome :=
    StoreState.swept_kept still (by simp [IdempotencyEntry.kept, late])
  have performed := step.performed
  simp only [Call.perform, release_answered valid retained] at performed
  obtain ⟨answered, store⟩ := Prod.mk.inj performed
  rw [← answered, ← store]
  refine ⟨congrArg Answer.released ?_, sameVersions_swept _⟩
  simp only [StoreState.replayRelease, completed, named, versioned, stored, Option.some.injEq,
    true_and, eq_comm (a := contextId), eq_comm (a := baseVersion)]
  rfl

end Releasing

/-- As long as the outcome of a key is kept, the key is not carried out again. -/
theorem answered_once (options : StoreOptions) : AnsweredOnce options where
  busy_iff reachable := busy_iff reachable.sound.consistent
  undisturbed := by
    intro w after r data events reachable live run still
    obtain ⟨outcome, found, busy⟩ := reachable.sound.consistent.claimed r data live
    exact ⟨outcome, found, busy, run_claim run reachable.sound live still found⟩
  refused _ retained valid supported step := reserve_repeated retained valid supported step
  invalid _ invalid step := reserve_invalid invalid step
  once reachable commits run again live live' same :=
    commit_once reachable commits run again live live' same
  replayed := by
    intro w after later last now now' owner contextId key baseVersion receipt answer events
      reachable releases run early step
    obtain ⟨valid, -⟩ := releases.outcome
    have answers := releases.answers reachable run early valid step
    rwa [if_pos ⟨rfl, rfl⟩] at answers
  conflicts := by
    intro w after later last now now' owner contextId other key baseVersion otherVersion receipt
      answer events reachable releases run early different valid step
    have answers := releases.answers reachable run early valid step
    rwa [if_neg (by rintro ⟨rfl, rfl⟩; exact different rfl)] at answers

/-- Every further reservation with a key that is kept is answered with the conflict. -/
def ConflictsAlways (options : StoreOptions) : Prop :=
  ∀ {w after : World} {now : Instant} {request : MutationRequest}
    {newReservationId : StoreResult String} {answer : Answer}, Reachable options w →
    Retained w.store now (completeKey request) →
    Step options w ⟨now, .reserve request newReservationId, answer⟩ after →
    answer = .reserved (.error repeated)

-- A create under way whose retry lost its messages.
namespace Retried

def options : StoreOptions := .normalized {}

def request (messages : List Message) : MutationRequest where
  operation := .create
  owner := ⟨"urn:nps:agent:example.org:a1", "default"⟩
  contextId := none
  baseVersion := none
  binding := { model := "m1", systemMessages := [], tools := [], runtimeRevision := "1" }
  messages := messages
  ttlSeconds := none
  idempotencyKey := "key-1"
  requestId := "request-1"

def first : MutationRequest := request [{ role := "user", content := some "hi" }]
def retry : MutationRequest := request []

def reserved : StoreState := (({} : StoreState).reserve options 0 first (.ok "reservation-1")).2

omit [Rfc3339] in
theorem first_reserved : (({} : StoreState).reserve options 0 first (.ok "reservation-1")).1 =
    .ok ⟨"reservation-1", .create, "request-1"⟩ := rfl

def world : World := { store := reserved, clock := 0, issued := ["reservation-1"] }

theorem world_step : Step options { clock := 0 }
    ⟨0, .reserve first (.ok "reservation-1"), .reserved (.ok ⟨"reservation-1", .create, "request-1"⟩)⟩
    world where
  clock := ⟨Int.le_refl _, rfl⟩
  performed := Prod.ext (congrArg Answer.reserved first_reserved) rfl
  fresh := nofun
  issued := rfl

theorem world_reachable : Reachable options world := ⟨0, _, .single world_step⟩

omit [Rfc3339] in
theorem world_retained : Retained world.store 0 (completeKey retry) := ⟨_, rfl, rfl⟩

theorem retry_step : Step options world
    ⟨0, .reserve retry (.ok "reservation-2"),
      .reserved (.error (paramsInvalid "only fork may carry an empty message delta"))⟩
    { world with store := (world.store.reserve options 0 retry (.ok "reservation-2")).2 } where
  clock := ⟨Int.le_refl _, rfl⟩
  performed := rfl
  fresh := nofun
  issued := rfl

omit [Sha256] [Rfc3339] in
/-- A repeated request without messages is told so, and nothing of the conflict. -/
theorem malformed_retry :
    ¬ ∃ (_ : Sha256) (_ : Rfc3339), ConflictsAlways (StoreOptions.normalized {}) := by
  rintro ⟨sha256, rfc3339, conflicts⟩
  have answer := conflicts world_reachable world_retained retry_step
  simp only [Answer.reserved.injEq, Except.error.injEq] at answer
  exact absurd (congrArg StoreError.errorCode answer) (by decide)

end Retried

/-- Contexts that live and contexts still to come, together, stay within the quota. -/
structure QuotaKept (options : StoreOptions) : Prop where
  within : ∀ {w : World} (owner : Owner), Reachable options w →
    w.store.live owner + w.store.pending owner ≤ options.maxContextsPerPrincipal

theorem quota_kept (options : StoreOptions) : QuotaKept options where
  within owner reachable := reachable.sound.consistent.quota owner

end Nps.Nwp.LlmContext
