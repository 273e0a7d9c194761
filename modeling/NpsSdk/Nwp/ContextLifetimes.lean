import NpsSdk.Nwp.ContextAnswers

/-! How long contexts live: never beyond the longest time to live after the commit that created or
refreshed them, and not a moment longer for those who ask. -/
namespace Nps.Nwp.LlmContext
open Nip (Instant Sha256)
open Outcome Transition

/-- No time of the options is zero. -/
structure Timed (options : StoreOptions) : Prop where
  default_ : 1 ≤ options.defaultTtlSeconds
  max_ : 1 ≤ options.maxTtlSeconds
  tombstone_ : 1 ≤ options.tombstoneSeconds

theorem timed_normalized (options : StoreOptions) : Timed options.normalized := by
  constructor
  all_goals
    unfold StoreOptions.normalized
    dsimp only
    split
    · decide
    · exact Nat.one_le_iff_ne_zero.mpr ‹_›

def Allowed (options : StoreOptions) (ttl : Nat) : Prop := 1 ≤ ttl ∧ ttl ≤ options.maxTtlSeconds

section Ttl
variable {options : StoreOptions} {now since until_ : Int}

theorem allowed_clamp (timed : Timed options) {value : Nat} (positive : 1 ≤ value) :
    Allowed options (StoreState.clampTtl options value) :=
  ⟨Nat.le_min.mpr ⟨positive, timed.max_⟩, Nat.min_le_right _ _⟩

/-- What a fork inherits: the seconds that its base is still to live, rounded up. -/
theorem allowed_remaining (timed : Timed options) (earlier : since ≤ now)
    (bounded : until_ ≤ since + Nip.Duration.seconds options.maxTtlSeconds) :
    Allowed options
      (min (max ((until_ - now + 999999999).tdiv 1000000000) 1) (2 ^ 32 - 1)).toNat := by
  have longest := timed.max_
  have within : until_ - now ≤ options.maxTtlSeconds * 1000000000 := by
    change until_ ≤ since + options.maxTtlSeconds * 1000000000 at bounded
    omega
  have rounded : (until_ - now + 999999999).tdiv 1000000000 ≤ options.maxTtlSeconds := by
    generalize until_ - now = left at within
    rcases Int.le_total 0 (left + 999999999) with positive | negative
    · rw [Int.tdiv_eq_ediv_of_nonneg positive]
      omega
    · have none_ := Int.tdiv_le_tdiv (c := 1000000000) (by decide) negative
      rw [Int.zero_tdiv] at none_
      omega
  generalize (until_ - now + 999999999).tdiv 1000000000 = seconds at rounded
  constructor <;> omega

end Ttl

def Answer.refreshed : Answer → Option String
  | committed (.ok receipt) => some receipt.contextId
  | _ => none

def lastRefresh (contextId : String) (events : List Event) : Option Instant :=
  (events.reverse.find? (·.answer.refreshed = some contextId)).map Event.now

theorem lastRefresh_append (contextId : String) (events : List Event) (event : Event) :
    lastRefresh contextId (events ++ [event]) =
      if event.answer.refreshed = some contextId then some event.now
      else lastRefresh contextId events := by
  unfold lastRefresh
  rw [List.reverse_append, List.reverse_singleton, List.singleton_append, List.find?_cons]
  split <;> simp_all

/-- A context that is active has been refreshed and ends in time; another one has no end. -/
def Lived (options : StoreOptions) (clock : Instant) (refreshed : Option Instant)
    (entry : ContextEntry) : Prop :=
  if entry.state = .active then
    Allowed options entry.ttlSeconds ∧ ∃ since until_, refreshed = some since ∧ since ≤ clock ∧
      entry.expiresAt = some until_ ∧ until_ ≤ since + Nip.Duration.seconds options.maxTtlSeconds
  else entry.expiresAt = none

structure Lifetimes (options : StoreOptions) (clock : Instant) (refreshed : String → Option Instant)
    (s : StoreState) : Prop where
  contexts : ∀ contextId entry, s.contexts.lookup contextId = some entry →
    Lived options clock (refreshed contextId) entry
  reservations : ∀ r data, s.reservations.lookup r = some data →
    ∃ ttl, data.effectiveTtlSeconds = some ttl ∧ Allowed options ttl

/-- The times of a context are as they were, or it has none any more. -/
def ContextEntry.Follows (before entry : ContextEntry) : Prop :=
  (entry.state = before.state ∧ entry.expiresAt = before.expiresAt ∧ entry.ttlSeconds = before.ttlSeconds) ∨
    (entry.state ≠ .active ∧ entry.expiresAt = none)

section Lifetimes
variable {options : StoreOptions} {clock now : Instant} {refreshed : String → Option Instant}
  {s after : StoreState}

theorem Lived.later {entry : ContextEntry} {since : Option Instant} (lived : Lived options clock since entry)
    (later : clock ≤ now) : Lived options now since entry := by
  unfold Lived at lived ⊢
  split
  · rename_i active
    rw [if_pos active] at lived
    obtain ⟨allowed, since, until_, refreshed, earlier, ends, bounded⟩ := lived
    exact ⟨allowed, since, until_, refreshed, earlier.trans later, ends, bounded⟩
  · rename_i inactive
    rwa [if_neg inactive] at lived

theorem Lived.follows {before entry : ContextEntry} {since : Option Instant}
    (lived : Lived options clock since before) (follows : before.Follows entry) :
    Lived options clock since entry := by
  unfold Lived at lived ⊢
  rcases follows with ⟨state, expiresAt, ttl⟩ | ⟨inactive, expiresAt⟩
  · rwa [state, expiresAt, ttl]
  · rwa [if_neg inactive]

theorem Lifetimes.later (lifetimes : Lifetimes options clock refreshed s) (later : clock ≤ now) :
    Lifetimes options now refreshed s where
  contexts contextId entry there := (lifetimes.contexts contextId entry there).later later
  reservations := lifetimes.reservations

theorem Lifetimes.edited (lifetimes : Lifetimes options clock refreshed s)
    (contexts : ∀ contextId entry, after.contexts.lookup contextId = some entry →
      ∃ before, s.contexts.lookup contextId = some before ∧ before.Follows entry)
    (reservations : ∀ r data, after.reservations.lookup r = some data →
      s.reservations.lookup r = some data) : Lifetimes options clock refreshed after where
  contexts := by
    intro contextId entry there
    obtain ⟨before, found, follows⟩ := contexts contextId entry there
    exact (lifetimes.contexts contextId before found).follows follows
  reservations r data live := lifetimes.reservations r data (reservations r data live)

theorem Lifetimes.swept (lifetimes : Lifetimes options clock refreshed s) :
    Lifetimes options clock refreshed (s.swept options now) := by
  refine lifetimes.edited (fun contextId entry there => ?_) fun r data live => live
  obtain ⟨before, found, rfl⟩ := StoreState.swept_origin there
  refine ⟨before, found, ?_⟩
  unfold ContextEntry.expire
  split
  · exact .inr ⟨nofun, rfl⟩
  · exact .inl ⟨rfl, rfl, rfl⟩

theorem Lifetimes.abandoned (lifetimes : Lifetimes options clock refreshed s) {data : ReservationData}
    {outcome : IdempotencyEntry} :
    Lifetimes options clock refreshed ((s.clearReservation data).settle data outcome) := by
  refine lifetimes.edited (fun contextId entry there => ?_) fun r other live => ?_
  · change (s.clearReservation data).contexts.lookup contextId = some entry at there
    rw [Consistent.clearReservation_contexts] at there
    obtain ⟨before, found, rfl⟩ := Option.map_eq_some_iff.mp there
    refine ⟨before, found, .inl ?_⟩
    split <;> exact ⟨rfl, rfl, rfl⟩
  · rw [Consistent.clearReservation_eq] at live
    change (s.reservations.erase _).lookup r = some other at live
    rw [AList.lookup_erase_if] at live
    split at live
    · cases live
    · exact live

/-- A reservation is made for a time that the options allow, whatever it asks for and inherits. -/
theorem Lifetimes.admitted [Sha256] (lifetimes : Lifetimes options now refreshed s)
    (timed : Timed options) (consistent : Consistent options s) {request : MutationRequest}
    {newReservationId : StoreResult String} {data : ReservationData}
    (ok : s.admission options now request newReservationId = .ok data) :
    ∃ ttl, data.effectiveTtlSeconds = some ttl ∧ Allowed options ttl := by
  obtain ⟨⟨⟩, valid, ok⟩ := bind_ok.mp ok
  obtain ⟨⟨⟩, -, ok⟩ := bind_ok.mp ok
  obtain ⟨⟨⟩, -, ok⟩ := bind_ok.mp ok
  have asked : ∀ value, request.ttlSeconds = some value → 1 ≤ value := by
    obtain ⟨⟨⟩, -, valid⟩ := bind_ok.mp valid
    obtain ⟨⟨⟩, -, valid⟩ := bind_ok.mp valid
    obtain ⟨⟨⟩, positive, -⟩ := bind_ok.mp valid
    rintro (_ | value) same
    · exact absurd same (ensure_ok.mp positive)
    · exact Nat.succ_pos value
  split at ok
  · obtain ⟨⟨⟩, -, ok⟩ := bind_ok.mp ok
    obtain ⟨reservationId, -, ok⟩ := bind_ok.mp ok
    cases ok
    refine ⟨_, rfl, allowed_clamp timed ?_⟩
    cases ttl : request.ttlSeconds with
    | none => exact timed.default_
    | some value => exact asked value ttl
  · split at ok
    · rename_i contextId baseVersion named versioned
      obtain ⟨entry, mutable, ok⟩ := bind_ok.mp ok
      obtain ⟨⟨⟩, -, ok⟩ := bind_ok.mp ok
      obtain ⟨⟨⟩, -, ok⟩ := bind_ok.mp ok
      obtain ⟨⟨⟩, -, ok⟩ := bind_ok.mp ok
      obtain ⟨reservationId, -, ok⟩ := bind_ok.mp ok
      cases ok
      obtain ⟨there, -, fresh⟩ := StoreState.requireMutable_ok mutable
      have active : entry.state = .active := by
        have settled := consistent.states contextId entry there
        cases state : entry.state <;> simp_all
      have lived := lifetimes.contexts contextId entry there
      unfold Lived at lived
      rw [if_pos active] at lived
      obtain ⟨own, since, until_, -, earlier, ends, bounded⟩ := lived
      dsimp only
      unfold StoreState.effectiveTtl
      split
      · rename_i value same
        exact ⟨_, rfl, allowed_clamp timed (asked value same)⟩
      · split
        · rw [ends]
          exact ⟨_, rfl, allowed_remaining timed earlier bounded⟩
        · rw [if_pos (Nat.one_le_iff_ne_zero.mp own.1)]
          exact ⟨_, rfl, own⟩
    · cases ok

theorem Lifetimes.install (lifetimes : Lifetimes options clock refreshed s) {data : ReservationData}
    (admitted : Admitted options s data)
    (allowed : ∃ ttl, data.effectiveTtlSeconds = some ttl ∧ Allowed options ttl) :
    Lifetimes options clock refreshed (s.install options now data) where
  contexts := by
    intro contextId entry there
    rw [Consistent.install_contexts admitted] at there
    split at there
    · obtain ⟨before, found, rfl⟩ := Option.map_eq_some_iff.mp there
      exact (lifetimes.contexts contextId before found).follows (.inl ⟨rfl, rfl, rfl⟩)
    · exact lifetimes.contexts contextId entry there
  reservations := by
    intro r other live
    change (s.reservations.insert _ _).lookup r = some other at live
    rw [AList.lookup_insert_if] at live
    split at live
    · cases live
      exact allowed
    · exact lifetimes.reservations r other live

def ReservationData.expiry (data : ReservationData) (now : Instant) : Option Instant :=
  data.effectiveTtlSeconds.map fun (count : Nat) => now + Nip.Duration.seconds count

/-- A commit has put a context in its place with the time of its reservation, which has ended. -/
def Refreshes (now : Instant) (data : ReservationData) (s : StoreState) (receipt : Receipt)
    (after : StoreState) : Prop :=
  ∃ entry, after.contexts = s.contexts.insert receipt.contextId entry ∧
    after.reservations = s.reservations.erase data.reservationId ∧ entry.state = .active ∧
    entry.ttlSeconds = data.effectiveTtlSeconds.getD 0 ∧ entry.expiresAt = data.expiry now

section Commits
variable [Rfc3339] {data : ReservationData} {assistant : Message} {receipt : Receipt}
  {factory : Nat → StoreResult String}

theorem commitNew_refreshes
    (ok : s.commitNew options now data (data.expiry now) assistant factory = (.ok receipt, after)) :
    Refreshes now data s receipt after := by
  unfold StoreState.commitNew at ok
  split at ok
  · cases congrArg Prod.fst ok
  · obtain ⟨answered, written⟩ := Prod.mk.inj ok
    cases answered
    subst written
    exact ⟨_, rfl, rfl, rfl, rfl, rfl⟩

theorem commitExisting_refreshes (named : Named s) {contextId : String}
    (ok : s.commitExisting options now data contextId (data.expiry now) assistant = (.ok receipt, after)) :
    Refreshes now data s receipt after := by
  unfold StoreState.commitExisting at ok
  split at ok
  · cases congrArg Prod.fst ok
  · rename_i entry there
    have own : (StoreState.mutatedEntry data entry (data.expiry now) assistant).contextId = contextId ∧
        (StoreState.mutatedEntry data entry (data.expiry now) assistant).ttlSeconds =
          data.effectiveTtlSeconds.getD 0 ∧
        (StoreState.mutatedEntry data entry (data.expiry now) assistant).expiresAt = data.expiry now := by
      have same := named contextId entry there
      unfold StoreState.mutatedEntry
      dsimp only
      split <;> exact ⟨same, rfl, rfl⟩
    have active := (StoreState.mutatedEntry_spec data entry (data.expiry now) assistant).2.1
    obtain ⟨answered, written⟩ := Prod.mk.inj ok
    cases answered
    subst written
    refine ⟨StoreState.mutatedEntry data entry (data.expiry now) assistant, ?_, rfl, active, own.2⟩
    rw [own.1]
    rfl

theorem commit_refreshes (named : Named s) {reservation : Reservation}
    (ok : s.commit options now reservation assistant factory = (.ok receipt, after)) :
    ∃ data, s.reservations.lookup data.reservationId = some data ∧
      Refreshes now data s receipt after := by
  unfold StoreState.commit at ok
  split at ok
  · cases congrArg Prod.fst ok
  · rename_i data required
    refine ⟨data, (StoreState.requireReservation_ok required).2, ?_⟩
    extract_lets expiry at ok
    split at ok
    · exact commitNew_refreshes ok
    · exact commitNew_refreshes ok
    · exact commitExisting_refreshes named ok
    · exact commitExisting_refreshes named ok
    all_goals cases congrArg Prod.fst ok

end Commits

theorem Lifetimes.committed (lifetimes : Lifetimes options now refreshed s) {data : ReservationData}
    {receipt : Receipt} (held : s.reservations.lookup data.reservationId = some data)
    (refreshes : Refreshes now data s receipt after) :
    Lifetimes options now
      (fun contextId => if receipt.contextId = contextId then some now else refreshed contextId) after := by
  obtain ⟨entry, contexts, reservations, active, ttl, expiresAt⟩ := refreshes
  obtain ⟨count, same, allowed⟩ := lifetimes.reservations _ data held
  constructor
  · intro contextId found there
    rw [contexts, AList.lookup_insert_if] at there
    split at there
    · rename_i own
      cases there
      unfold Lived
      rw [if_pos active, if_pos own.symm, ttl, expiresAt, ReservationData.expiry, same]
      refine ⟨allowed, now, _, rfl, Int.le_refl _, rfl, ?_⟩
      have longest : (count : Int) * 1000000000 ≤ options.maxTtlSeconds * 1000000000 := by
        have within := allowed.2
        omega
      exact Int.add_le_add_left longest now
    · rename_i other
      rw [if_neg (Ne.symm other)]
      exact lifetimes.contexts contextId found there
  · intro r other live
    rw [reservations, AList.lookup_erase_if] at live
    split at live
    · cases live
    · exact lifetimes.reservations r other live

end Lifetimes

variable [Sha256] [Rfc3339]

section Runs
variable {options : StoreOptions} {now : Instant} {s : StoreState} {w : World} {events : List Event}

theorem Lifetimes.perform {refreshed : String → Option Instant} (timed : Timed options)
    (consistent : Consistent options s) (named : Named s)
    (lifetimes : Lifetimes options now refreshed s) (call : Call) :
    Lifetimes options now (fun contextId =>
      if (call.perform options s now).1.refreshed = some contextId then some now
      else refreshed contextId) (call.perform options s now).2 := by
  cases call with
  | reserve request newReservationId =>
    simp only [Call.perform, StoreState.reserve]
    split
    · rename_i data ok
      have admitted := (StoreState.admission_ok ok).2.2
      have allowed := lifetimes.swept.admitted timed consistent.swept ok
      have after : Lifetimes options now refreshed (s.swept options now) := lifetimes.swept
      exact after.install admitted allowed
    · exact lifetimes.swept
  | commit reservation assistant factory =>
    cases result : s.commit options now reservation assistant factory with
    | mk answer after =>
      cases answer with
      | error e =>
        have same := commit_failed (congrArg Prod.fst result)
        rw [result] at same
        simp only [Call.perform, result]
        cases same
        exact lifetimes
      | ok receipt =>
        obtain ⟨data, held, refreshes⟩ := commit_refreshes named result
        simpa [Call.perform, result, Answer.refreshed] using lifetimes.committed held refreshes
  | abort reservation errorCode =>
    rcases s.abort_cases options now reservation errorCode with ⟨_, same⟩ | ⟨_, _, same, -⟩
    · simp only [Call.perform, same]
      exact lifetimes
    · simp only [Call.perform, same]
      exact lifetimes.abandoned.swept
  | release owner contextId baseVersion key =>
    have released := s.release_cases options now owner contextId baseVersion key
    simp only [Call.perform]
    generalize s.release options now owner contextId baseVersion key = result at released ⊢
    cases released with
    | refused => exact lifetimes.swept
    | replayed => exact lifetimes.swept
    | carriedOut valid unclaimed there =>
      have before : Lifetimes options now refreshed (s.swept options now) := lifetimes.swept
      refine before.edited (fun other found after => ?_) fun r data live => live
      change ((s.swept options now).contexts.insert contextId _).lookup other = some found at after
      rw [AList.lookup_insert_if] at after
      split at after
      · rename_i same
        subst same
        cases after
        refine ⟨_, there, .inr ⟨fun unset => ?_, rfl⟩⟩
        cases unset
      · exact ⟨found, after, .inl ⟨rfl, rfl, rfl⟩⟩
  | status => exact lifetimes.swept
  | snapshot => exact lifetimes.swept
  | sweepExpired => exact lifetimes.swept

theorem run_lifetimes (timed : Timed options) {start : Instant}
    (run : Run (Step options) { clock := start } events w) :
    Lifetimes options w.clock (lastRefresh · events) w.store := by
  have kept : Sound options w ∧ Named w.store ∧ Lifetimes options w.clock (lastRefresh · events) w.store := by
    refine (run.recorded []).invariant (P := fun s => Sound options s.1 ∧ Named s.1.store ∧
      Lifetimes options s.1.clock (lastRefresh · s.2) s.1.store) ?_ ⟨?_, ?_, ?_⟩
    · rintro ⟨w, before⟩ event ⟨after, history⟩ ⟨sound, named, lifetimes⟩ ⟨step, rfl⟩
      refine ⟨step.sound sound, ?_, ?_⟩
      · exact (step.operates sound).preserves (fun before change => change.named before) named
      · have performed := (lifetimes.later step.clock.1).perform timed sound.consistent named event.call
        rw [step.performed] at performed
        simp only [lastRefresh_append]
        have now_ : after.clock = event.now := step.clock.2
        rw [now_]
        exact performed
    · exact Reachable.sound ⟨start, [], .refl _⟩
    · intro contextId entry there
      cases (AList.lookup_empty contextId).symm.trans there
    · constructor
      · intro contextId entry there
        cases (AList.lookup_empty contextId).symm.trans there
      · intro r data live
        cases (AList.lookup_empty r).symm.trans live
  exact kept.2.2

end Runs

/-- A context whose end has come, and that no reservation keeps. -/
structure Overdue (s : StoreState) (now : Instant) (contextId : String) (entry : ContextEntry) :
    Prop where
  there : s.contexts.lookup contextId = some entry
  idle : entry.reservationId = none
  ended : ∃ until_, entry.expiresAt = some until_ ∧ until_ ≤ now

def ExpiredIn (s : StoreState) (contextId : String) : Prop :=
  ∃ entry, s.contexts.lookup contextId = some entry ∧ entry.state = .expired

structure LifetimesKept (options : StoreOptions) : Prop where
  bounded : ∀ {start : Instant} {events : List Event} {w : World} {contextId : String}
    {entry : ContextEntry}, Run (Step options) { clock := start } events w →
    w.store.contexts.lookup contextId = some entry → entry.state = .active →
    ∃ since until_, lastRefresh contextId events = some since ∧ entry.expiresAt = some until_ ∧
      until_ ≤ since + Nip.Duration.seconds options.maxTtlSeconds
  reserve : ∀ {w : World} {now : Instant} {contextId : String} {entry : ContextEntry},
    Reachable options w → Overdue w.store now contextId entry → ∀ request newReservationId,
    request.contextId = some contextId →
    (∃ e, (w.store.reserve options now request newReservationId).1 = .error e) ∧
      ExpiredIn (w.store.reserve options now request newReservationId).2 contextId
  snapshot : ∀ {w : World} {now : Instant} {contextId : String} {entry : ContextEntry},
    Reachable options w → Overdue w.store now contextId entry → ∀ owner,
    (∃ e, (w.store.snapshot options now owner contextId).1 = .error e) ∧
      ExpiredIn (w.store.snapshot options now owner contextId).2 contextId
  /-- Unless an earlier release with the same key, of a context that had this id, is answered again. -/
  release : ∀ {w : World} {now : Instant} {contextId : String} {entry : ContextEntry},
    Reachable options w → Overdue w.store now contextId entry → ∀ owner baseVersion key,
    ((∃ e, (w.store.release options now owner contextId baseVersion key).1 = .error e) ∨
      ∃ prior receipt, w.store.idempotency.lookup ⟨owner, llmContextRelease, key⟩ = some prior ∧
        prior.state = .completed ∧ prior.contextId = some contextId ∧
        prior.baseVersion = some baseVersion ∧ prior.receipt = some receipt ∧
        (w.store.release options now owner contextId baseVersion key).1 = .ok receipt) ∧
      ExpiredIn (w.store.release options now owner contextId baseVersion key).2 contextId

section Overdue
variable {options : StoreOptions} {now : Instant} {s : StoreState} {contextId : String}
  {entry : ContextEntry} {owner : Owner}

omit [Sha256] [Rfc3339] in
/-- The sweep before an operation expires the context, and keeps it as a tombstone. -/
theorem Overdue.swept {clock : Instant} {refreshed : String → Option Instant}
    (overdue : Overdue s now contextId entry) (timed : Timed options)
    (lifetimes : Lifetimes options clock refreshed s) : ExpiredIn (s.swept options now) contextId := by
  obtain ⟨there, idle, until_, ends, past⟩ := overdue
  have lived := lifetimes.contexts contextId entry there
  have active : entry.state = .active := by
    by_contra inactive
    rw [Lived, if_neg inactive, ends] at lived
    cases lived
  have lapsed : entry.lapsed now = true := by simp [ContextEntry.lapsed, active, idle, ends, past]
  have kept : (entry.expire options now).kept now = true := by
    have later : now < now + Nip.Duration.seconds options.tombstoneSeconds := by
      have positive : (0 : Int) < options.tombstoneSeconds * 1000000000 := by
        have counted := timed.tombstone_
        omega
      exact Int.lt_add_of_pos_right now positive
    rw [ContextEntry.expire, if_pos lapsed]
    simp [ContextEntry.kept, tombstone, later]
  refine ⟨entry.expire options now, ?_, ?_⟩
  · rw [StoreState.swept_contexts, there, Option.map_some]
    exact Option.filter_some_pos kept
  · rw [ContextEntry.expire, if_pos lapsed]

omit [Sha256] [Rfc3339] in
theorem requireMutable_expired (owner : Owner) (expired : ExpiredIn s contextId) :
    ∃ e, s.requireMutable owner contextId = .error e := by
  obtain ⟨gone, there, past⟩ := expired
  cases required : s.requireMutable owner contextId with
  | error e => exact ⟨e, rfl⟩
  | ok entry =>
    obtain ⟨found, -, fresh, -⟩ := StoreState.requireMutable_ok required
    cases there.symm.trans found
    exact absurd past fresh

omit [Rfc3339] in
theorem reserve_expired (expired : ExpiredIn (s.swept options now) contextId)
    {request : MutationRequest} (named : request.contextId = some contextId)
    (newReservationId : StoreResult String) :
    ∃ e, (s.reserve options now request newReservationId).1 = .error e := by
  cases admitted : (s.swept options now).admission options now request newReservationId with
  | error e =>
    refine ⟨e, ?_⟩
    simp only [StoreState.reserve, admitted]
  | ok data =>
    exfalso
    obtain ⟨asked, -, meets⟩ := StoreState.admission_ok admitted
    by_cases create : request.operation = .create
    · obtain ⟨⟨⟩, valid, -⟩ := bind_ok.mp admitted
      obtain ⟨⟨⟩, -, valid⟩ := bind_ok.mp valid
      obtain ⟨⟨⟩, -, valid⟩ := bind_ok.mp valid
      obtain ⟨⟨⟩, -, valid⟩ := bind_ok.mp valid
      obtain ⟨⟨⟩, located, -⟩ := bind_ok.mp valid
      unfold validateLocator at located
      rw [create] at located
      cases named.symm.trans (ensure_ok.mp located).1
    · obtain ⟨base, entry, based⟩ := meets.based (by rw [asked]; exact create)
      have same : base = contextId := Option.some.inj (based.named.symm.trans (asked ▸ named))
      obtain ⟨gone, there, past⟩ := expired
      cases (same ▸ based.there).symm.trans there
      exact based.fresh.1 past

omit [Sha256] [Rfc3339] in
theorem release_expired (expired : ExpiredIn (s.swept options now) contextId) (owner : Owner)
    (baseVersion : Nat) (key : String) :
    ((∃ e, (s.release options now owner contextId baseVersion key).1 = .error e) ∨
      ∃ prior receipt, s.idempotency.lookup ⟨owner, llmContextRelease, key⟩ = some prior ∧
        prior.state = .completed ∧ prior.contextId = some contextId ∧
        prior.baseVersion = some baseVersion ∧ prior.receipt = some receipt ∧
        (s.release options now owner contextId baseVersion key).1 = .ok receipt) ∧
      ExpiredIn (s.release options now owner contextId baseVersion key).2 contextId := by
  simp only [StoreState.release]
  split
  · exact ⟨.inl ⟨_, rfl⟩, expired⟩
  · split
    · rename_i prior retained
      refine ⟨?_, expired⟩
      cases replayed : StoreState.replayRelease prior contextId baseVersion with
      | error e => exact .inl ⟨e, rfl⟩
      | ok receipt =>
        unfold StoreState.replayRelease at replayed
        split at replayed
        · rename_i matching
          exact .inr ⟨prior, receipt, (StoreState.swept_outcome retained).1, matching.1, matching.2.1,
            matching.2.2, elim_ok.mp replayed, rfl⟩
        · cases replayed
    · obtain ⟨e, refused⟩ : ∃ e, (s.swept options now).requireMutable owner contextId = .error e :=
        requireMutable_expired owner expired
      have error_ : (s.swept options now).admissionToRelease owner contextId baseVersion = .error e := by
        rw [StoreState.admissionToRelease, refused, error_bind]
      rw [error_]
      exact ⟨.inl ⟨e, rfl⟩, expired⟩

end Overdue

/-- No chain of appends, resets and forks lives longer than it may, and nothing is served late. -/
theorem lifetimes_kept (options : StoreOptions) : LifetimesKept options.normalized where
  bounded := by
    intro start events w contextId entry run there active
    have lived := (run_lifetimes (timed_normalized options) run).contexts contextId entry there
    unfold Lived at lived
    rw [if_pos active] at lived
    obtain ⟨-, since, until_, refreshed, -, ends, bounded⟩ := lived
    exact ⟨since, until_, refreshed, ends, bounded⟩
  reserve := by
    rintro w now contextId entry ⟨start, events, run⟩ overdue request newReservationId named
    have timed := timed_normalized options
    have expired := overdue.swept timed (run_lifetimes timed run)
    obtain ⟨e, refused⟩ := reserve_expired expired named newReservationId
    refine ⟨⟨e, refused⟩, ?_⟩
    rwa [(failures_atomic _ _ _).reserve refused]
  snapshot := by
    rintro w now contextId entry ⟨start, events, run⟩ overdue owner
    have timed := timed_normalized options
    have expired := overdue.swept timed (run_lifetimes timed run)
    obtain ⟨e, refused⟩ := requireMutable_expired owner expired
    refine ⟨⟨e, ?_⟩, expired⟩
    simp only [StoreState.snapshot, refused]
    rfl
  release := by
    rintro w now contextId entry ⟨start, events, run⟩ overdue owner baseVersion key
    have timed := timed_normalized options
    exact release_expired (overdue.swept timed (run_lifetimes timed run)) owner baseVersion key

namespace Reused
open Outlasting (options owner contextId request assistant second young)

def released : StoreResult Receipt × StoreState :=
  young.store.release options 0 owner contextId 1 "release-1"

def created : IdempotencyEntry where
  state := .completed
  retainUntil := second 86400
  requestId := some "request-1"
  receipt := some {
    contextId, version := 1, operation := .create, state := .active
    expiresAt := Rfc3339.format (second 1), parentContextId := none, parentVersion := none }

def answered : IdempotencyEntry where
  state := .completed
  retainUntil := second 86400
  requestId := none
  receipt := some {
    contextId, version := 2, operation := .release, state := .released, expiresAt := none
    parentContextId := none, parentVersion := none }
  contextId := some contextId
  baseVersion := some 1

/-- A second after the first context was released, its outcomes are left. -/
def left : StoreState where
  idempotency := ((∅ : Assoc IdempotencyKey IdempotencyEntry).insert ⟨owner, llmComplete, "key-1"⟩
    created).insert ⟨owner, llmContextRelease, "release-1"⟩ answered

def again : MutationRequest := { request with idempotencyKey := "key-2", requestId := "request-2" }

def reservation : Reservation := ⟨"reservation-2", .create, "request-2"⟩

def reserved : StoreState := (left.reserve options (second 1) again (.ok "reservation-2")).2

def createdAgain : StoreResult Receipt × StoreState :=
  reserved.commit options (second 1) reservation assistant fun _ => .ok contextId

def world : World where
  store := createdAgain.2
  clock := second 1
  issued := ["reservation-2", "reservation-1"]

theorem released_swept : released.2.swept options (second 1) = left := rfl

theorem world_reachable : Reachable options world := by
  have releases : Step options young ⟨0, .release owner contextId 1 "release-1", .released released.1⟩
      ⟨released.2, 0, ["reservation-1"]⟩ := ⟨⟨Int.le_refl _, rfl⟩, rfl, nofun, rfl⟩
  have sweeps : Step options ⟨released.2, 0, ["reservation-1"]⟩
      ⟨second 1, .sweepExpired, (Call.perform options released.2 (second 1) .sweepExpired).1⟩
      ⟨left, second 1, ["reservation-1"]⟩ :=
    ⟨⟨(by decide : (0 : Int) ≤ second 1), rfl⟩, Prod.ext rfl released_swept, nofun, rfl⟩
  have reserves : Step options ⟨left, second 1, ["reservation-1"]⟩
      ⟨second 1, .reserve again (.ok "reservation-2"), .reserved (.ok reservation)⟩
      ⟨reserved, second 1, ["reservation-2", "reservation-1"]⟩ := by
    refine ⟨⟨Int.le_refl _, rfl⟩, rfl, ?_, rfl⟩
    rintro id ⟨⟩
    exact (by decide : "reservation-2" ∉ ["reservation-1"])
  have commits : Step options ⟨reserved, second 1, ["reservation-2", "reservation-1"]⟩
      ⟨second 1, .commit reservation assistant fun _ => .ok contextId, .committed createdAgain.1⟩ world :=
    ⟨⟨Int.le_refl _, rfl⟩, rfl, nofun, rfl⟩
  exact Outlasting.young_reachable.run (.next releases (.next sweeps (.next reserves (.single commits))))

omit [Sha256] [Rfc3339] in
/-- The second context has expired, and its release is answered as that of the first. -/
theorem release_answered_late : ¬ ∃ (_ : Sha256) (_ : Rfc3339), ∀ w now contextId entry,
    Reachable options w → Overdue w.store now contextId entry → ∀ owner baseVersion key,
    ∃ e, (w.store.release options now owner contextId baseVersion key).1 = .error e := by
  rintro ⟨sha256, rfc3339, refused⟩
  have overdue : Overdue world.store (second 2) contextId _ := ⟨rfl, rfl, _, rfl, by decide⟩
  obtain ⟨e, error_⟩ := refused world (second 2) contextId _ world_reachable overdue owner 1 "release-1"
  cases error_

end Reused
end Nps.Nwp.LlmContext
