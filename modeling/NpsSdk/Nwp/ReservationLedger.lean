import NpsSdk.Nwp.ContextLaws
import NpsSdk.Nwp.ReservationPhases

/-! Where each reservation is: with the thread that made it, with its guard, with the thread that has
won the guard, or spent. The store, the guards and the threads agree on it. -/
namespace Nps.Nwp

namespace LlmContext
open Nip (Sha256)

def World.Live (w : World) (id : String) : Prop := (w.store.reservations.lookup id).isSome = true

def Event.ended (event : Event) : Option String :=
  match event.call, event.answer with
  | .commit reservation _ _, .committed (.ok _) => some reservation.reservationId
  | .abort reservation _, .aborted (.ok _) => some reservation.reservationId
  | _, _ => none

section Live
variable {options : StoreOptions} {w after : World} {event : Event} {id : String}

theorem live_same (same : after.store.reservations = w.store.reservations) (open_ : event.ended = none)
    (old : event.answer.reservationId = none) :
    after.Live id ↔ (w.Live id ∧ event.ended ≠ some id) ∨ event.answer.reservationId = some id := by
  unfold World.Live
  rw [same, open_, old]
  simp

theorem live_erased {closed : String} (erased : after.store.reservations = w.store.reservations.erase closed)
    (ended : event.ended = some closed) (old : event.answer.reservationId = none) :
    after.Live id ↔ (w.Live id ∧ event.ended ≠ some id) ∨ event.answer.reservationId = some id := by
  unfold World.Live
  rw [erased, ended, old, AList.lookup_erase_if]
  by_cases same : id = closed
  · simp [same]
  · simp [same, Ne.symm same]

variable [Sha256] [Rfc3339]

/-- A reservation is live after a call if it was before and the call has not ended it, or if the call
has made it. -/
theorem Step.live_iff (step : Step options w event after) :
    after.Live id ↔ (w.Live id ∧ event.ended ≠ some id) ∨ event.answer.reservationId = some id := by
  have performed := step.performed
  obtain ⟨now, call, answer⟩ := event
  cases call with
  | reserve request newReservationId =>
    rcases w.store.reserve_cases options now request newReservationId
      with ⟨e, same⟩ | ⟨data, same, -, admitted⟩
    · simp only [Call.perform, same] at performed
      obtain ⟨told, store⟩ := Prod.mk.inj performed
      subst told
      exact live_same (by rw [← store]; rfl) rfl rfl
    · simp only [Call.perform, same] at performed
      obtain ⟨told, store⟩ := Prod.mk.inj performed
      subst told
      have inserted : after.store.reservations = w.store.reservations.insert data.reservationId data := by
        rw [← store]
        rfl
      unfold World.Live
      rw [inserted, AList.lookup_insert_if]
      by_cases here : id = data.reservationId
      · simp [here, Answer.reservationId]
      · simp [here, Ne.symm here, Answer.reservationId, Event.ended]
  | commit reservation assistant factory =>
    rcases w.store.commit_cases options now reservation assistant factory
      with ⟨e, same⟩ | ⟨data, identity, live, ⟨e, same⟩ | ⟨receipt, later, same, committed⟩⟩
    · simp only [Call.perform, same] at performed
      obtain ⟨told, store⟩ := Prod.mk.inj performed
      subst told
      exact live_same (by rw [← store]; rfl) rfl rfl
    · simp only [Call.perform, same] at performed
      obtain ⟨told, store⟩ := Prod.mk.inj performed
      subst told
      exact live_same (by rw [← store]; rfl) rfl rfl
    · simp only [Call.perform, same] at performed
      obtain ⟨told, store⟩ := Prod.mk.inj performed
      subst told
      have erased : after.store.reservations = w.store.reservations.erase reservation.reservationId := by
        rw [← store, ← identity]
        cases committed <;> rfl
      exact live_erased erased rfl rfl
  | abort reservation errorCode =>
    rcases w.store.abort_cases options now reservation errorCode
      with ⟨e, same⟩ | ⟨data, outcome, same, identity, live, ended⟩
    · simp only [Call.perform, same] at performed
      obtain ⟨told, store⟩ := Prod.mk.inj performed
      subst told
      exact live_same (by rw [← store]; rfl) rfl rfl
    · simp only [Call.perform, same] at performed
      obtain ⟨told, store⟩ := Prod.mk.inj performed
      subst told
      have erased : after.store.reservations = w.store.reservations.erase reservation.reservationId := by
        rw [← store, ← identity]
        change (w.store.clearReservation data).reservations.erase _ = _
        rw [Consistent.clearReservation_eq]
      exact live_erased erased rfl rfl
  | release owner contextId baseVersion idempotency =>
    have released := w.store.release_cases options now owner contextId baseVersion idempotency
    simp only [Call.perform] at performed
    generalize w.store.release options now owner contextId baseVersion idempotency = result
      at released performed
    obtain ⟨told, store⟩ := Prod.mk.inj performed
    subst told
    refine live_same ?_ rfl rfl
    rw [← store]
    cases released <;> rfl
  | status owner contextId idempotency =>
    simp only [Call.perform] at performed
    obtain ⟨told, store⟩ := Prod.mk.inj performed
    subst told
    exact live_same (by rw [← store]; rfl) rfl rfl
  | snapshot owner contextId =>
    simp only [Call.perform] at performed
    obtain ⟨told, store⟩ := Prod.mk.inj performed
    subst told
    exact live_same (by rw [← store]; rfl) rfl rfl
  | sweepExpired =>
    simp only [Call.perform] at performed
    obtain ⟨told, store⟩ := Prod.mk.inj performed
    subst told
    exact live_same (by rw [← store]; rfl) rfl rfl

theorem Step.aborts {now : Nip.Instant} {reservation : Reservation} {errorCode : Option String}
    {answer : StoreResult Unit} (sound : Sound options w)
    (step : Step options w ⟨now, .abort reservation errorCode, .aborted answer⟩ after)
    (live : w.Live reservation.reservationId) : answer = .ok () := by
  obtain ⟨data, found⟩ := Option.isSome_iff_exists.mp live
  have required : w.store.requireReservation reservation = .ok data := by
    unfold StoreState.requireReservation
    rw [found]
    have identity := (sound.consistent.named _ data found).1
    simp [identity, Outcome.ensure_true]
  have performed := congrArg Prod.fst step.performed
  simp only [Call.perform, StoreState.abort, required] at performed
  cases performed
  rfl

end Live
end LlmContext

namespace LlmActionServer
open Interaction
open Nip (Sha256)
open LlmContext (MutationRequest Reservation Rfc3339 Sound StoreOptions)

/-- Where a reservation is, with the thread that made it. -/
inductive Place where
  | absent
  | fresh (maker : Nat)
  | guard (maker : Nat)
  | committing (maker : Nat)
  /-- A thread has won the guard, and has not called the store yet. -/
  | aborting (maker thread : Nat)
  | spent (maker : Nat)

namespace Place

def maker : Place → Option Nat
  | absent => none
  | fresh maker | guard maker | committing maker | aborting maker _ | spent maker => some maker

def live : Place → Bool
  | absent | spent _ => false
  | _ => true

def guarded : Place → Bool
  | guard _ => true
  | _ => false

def threads : Place → List Nat
  | absent => []
  | fresh maker | guard maker | committing maker | spent maker => [maker]
  | aborting maker winner => [maker, winner]

theorem maker_threads {place : Place} {thread : Nat} (made : place.maker = some thread) :
    thread ∈ place.threads := by
  cases place with
  | absent => cases made
  | aborting | fresh | guard | committing | spent =>
    obtain rfl := Option.some.inj made
    exact List.mem_cons_self

def resolved : Place → Nat
  | spent _ => 1
  | _ => 0

theorem resolved_le (place : Place) : place.resolved ≤ 1 := by
  cases place with
  | spent maker => exact Nat.le_refl 1
  | _ => exact Nat.zero_le 1

end Place

def Phase.reservation : Phase → Option String
  | .idle | .watching => none
  | .reserved id | .guarded id | .committing id | .aborting id _ | .passed id => some id

/-- What a thread that is concerned with a reservation is about to do with it. -/
inductive Stands (id : String) : Place → Nat → Phase → Prop where
  | fresh {thread : Nat} : Stands id (.fresh thread) thread (.reserved id)
  | guard {thread : Nat} : Stands id (.guard thread) thread (.guarded id)
  | committing {thread : Nat} : Stands id (.committing thread) thread (.committing id)
  | aborting {thread : Nat} : Stands id (.aborting thread thread) thread (.aborting id true)
  | cancelling {maker thread : Nat} : thread ≠ maker →
      Stands id (.aborting maker thread) thread (.aborting id false)
  | forestalled {thread winner : Nat} {phase : Phase} : phase.Held id → winner ≠ thread →
      Stands id (.aborting thread winner) thread phase
  | spent {thread : Nat} {phase : Phase} : phase.Held id → Stands id (.spent thread) thread phase

theorem Phase.Held.reservation {phase : Phase} {id : String} (held : phase.Held id) :
    phase.reservation = some id := by
  rcases held with rfl | rfl <;> rfl

section Standing
variable {id : String} {place : Place} {thread : Nat} {phase : Phase}

theorem Stands.reserved (stands : Stands id place thread (.reserved id)) : place = .fresh thread := by
  cases stands with
  | fresh => rfl
  | forestalled held | spent held => rcases held with ⟨⟨⟩⟩ | ⟨⟨⟩⟩

theorem Stands.committing_ (stands : Stands id place thread (.committing id)) :
    place = .committing thread := by
  cases stands with
  | committing => rfl
  | forestalled held | spent held => rcases held with ⟨⟨⟩⟩ | ⟨⟨⟩⟩

theorem Stands.aborting_ {own : Bool} (stands : Stands id place thread (.aborting id own)) :
    ∃ maker, place = .aborting maker thread ∧ (own = true ↔ thread = maker) := by
  cases stands with
  | aborting => exact ⟨thread, rfl, by simp⟩
  | cancelling different => exact ⟨_, rfl, by simp [different]⟩
  | forestalled held | spent held => rcases held with ⟨⟨⟩⟩ | ⟨⟨⟩⟩

theorem Stands.held (stands : Stands id place thread phase) (held : phase.Held id) :
    (place = .guard thread ∧ phase = .guarded id) ∨
      (place.guarded = false ∧ ∀ next : Phase, next.Held id → Stands id place thread next) := by
  cases stands with
  | guard => exact .inl ⟨rfl, rfl⟩
  | forestalled _ different => exact .inr ⟨rfl, fun next tried => .forestalled tried different⟩
  | spent _ => exact .inr ⟨rfl, fun next tried => .spent tried⟩
  | _ => rcases held with ⟨⟨⟩⟩ | ⟨⟨⟩⟩

end Standing

/-- The event is a commit or an abort of the reservation that succeeds. -/
def resolves (id : String) : Event Answer Call → Bool
  | .act _ (.commit reservation _) answer => answer.isOk && reservation.reservationId == id
  | .act _ (.abort reservation _) answer => answer.isOk && reservation.reservationId == id
  | _ => false

/-- What the store, the guards, the threads and the events say of one reservation. -/
structure Kept (w : World) (phases : Nat → Phase) (history : List (Event Answer Call)) (id : String)
    (place : Place) : Prop where
  issued : id ∈ w.contexts.issued ↔ place.maker ≠ none
  live : w.contexts.Live id ↔ place.live = true
  guarded : w.guards.lookup id = some .active ↔ place.guarded = true
  resolved : history.countP (resolves id) = place.resolved
  stands : ∀ thread, (phases thread).reservation = some id → Stands id place thread (phases thread)
  holds : ∀ thread ∈ place.threads, (phases thread).reservation = some id
  made : ∀ thread request reservation, .act thread (.reserve request) (.ok reservation) ∈ history →
    reservation.reservationId = id → place.maker = some thread

/-- The reservation that an operation makes, guards, tries for or ends. -/
def Op.touches : (op : Op) → Answer op → Option String
  | .reserve _, .ok reservation => some reservation.reservationId
  | .newGuard reservation, _ => some reservation.reservationId
  | .compareExchange guard _ _, _ => some guard.id
  | .storeState guard _, _ => some guard.id
  | .commit reservation _, _ => some reservation.reservationId
  | .abort reservation _, _ => some reservation.reservationId
  | _, _ => none

/-- The worlds say the same of a reservation. -/
structure Same (id : String) (w after : World) : Prop where
  issued : id ∈ after.contexts.issued ↔ id ∈ w.contexts.issued
  live : after.contexts.Live id ↔ w.contexts.Live id
  guards : after.guards.lookup id = w.guards.lookup id

section Operations
variable [Sha256] [Rfc3339] {store : StoreOptions} {w after : World} {id : String}

theorem Calls.same {call : LlmContext.Call} {answer : LlmContext.Answer}
    (calls : Calls store call answer w after)
    (kept : ∀ now, (LlmContext.Event.mk now call answer).ended ≠ some id)
    (old : answer.reservationId ≠ some id) : Same id w after := by
  obtain ⟨now, contexts, step, rfl⟩ := calls
  refine ⟨?_, ?_, rfl⟩
  · rw [step.issued, List.mem_append, Option.mem_toList]
    exact or_iff_right old
  · rw [step.live_iff]
    simp [kept now, old]

/-- What is not touched stays as it is. -/
theorem exec_same {op : Op} {answer : Answer op} (exec : exec store op w answer after)
    (apart : op.touches answer ≠ some id) : Same id w after := by
  cases op with
  | execute | authorizer | emit =>
    cases exec
    exact ⟨Iff.rfl, Iff.rfl, rfl⟩
  | isCancelled | swapCancelled | takeListeners =>
    obtain ⟨-, rfl⟩ := exec
    exact ⟨Iff.rfl, Iff.rfl, rfl⟩
  | addListener =>
    obtain ⟨-, rfl⟩ := exec
    split <;> exact ⟨Iff.rfl, Iff.rfl, rfl⟩
  | newGuard reservation =>
    cases exec
    exact ⟨Iff.rfl, Iff.rfl, AList.lookup_insert_ne fun same => apart (congrArg some same.symm)⟩
  | storeState guard new =>
    cases exec
    exact ⟨Iff.rfl, Iff.rfl, AList.lookup_insert_ne fun same => apart (congrArg some same.symm)⟩
  | compareExchange guard current new =>
    obtain ⟨-, rfl⟩ := exec
    split
    · exact ⟨Iff.rfl, Iff.rfl, AList.lookup_insert_ne fun same => apart (congrArg some same.symm)⟩
    · exact ⟨Iff.rfl, Iff.rfl, rfl⟩
  | reserve request =>
    obtain ⟨newReservationId, calls⟩ := exec
    refine calls.same (fun now => ?_) ?_
    · rintro ⟨⟩
    · cases answer with
      | error e => rintro ⟨⟩
      | ok reservation => exact apart
  | commit reservation assistant =>
    obtain ⟨factory, calls⟩ := exec
    refine calls.same (fun now => ?_) ?_
    · cases answer with
      | error e => rintro ⟨⟩
      | ok receipt => exact apart
    · rintro ⟨⟩
  | abort reservation errorCode =>
    refine Calls.same exec (fun now => ?_) ?_
    · cases answer with
      | error e => rintro ⟨⟩
      | ok u => exact apart
    · rintro ⟨⟩
  | snapshot | status | release | sweepExpired =>
    refine Calls.same exec (fun now => ?_) ?_ <;> rintro ⟨⟩

end Operations

section Moves
variable {w after : World} {phases : Nat → Phase} {history : List (Event Answer Call)} {id : String}
  {place later : Place} {thread : Nat} {next : Phase} {op : Op} {answer : Answer op}

theorem resolves_touches (resolved : resolves id (.act thread op answer) = true) :
    op.touches answer = some id := by
  unfold resolves at resolved
  split at resolved
  · rename_i same
    cases same
    simpa [Op.touches] using (Bool.and_eq_true_iff.mp resolved).2
  · rename_i same
    cases same
    simpa [Op.touches] using (Bool.and_eq_true_iff.mp resolved).2
  · cases resolved

/-- A step of one thread brings a reservation to another place. -/
theorem Kept.move (kept : Kept w phases history id place)
    (issued : id ∈ after.contexts.issued ↔ later.maker ≠ none)
    (live : after.contexts.Live id ↔ later.live = true)
    (guarded : after.guards.lookup id = some .active ↔ later.guarded = true)
    (resolved : place.resolved + (resolves id (.act thread op answer)).toNat = later.resolved)
    (own : next.reservation = some id → Stands id later thread next)
    (others : ∀ other ≠ thread, ∀ phase, Stands id place other phase → Stands id later other phase)
    (holds : ∀ other ∈ later.threads, (other ≠ thread ∧ other ∈ place.threads) ∨
      (other = thread ∧ next.reservation = some id))
    (maker : ∀ maker, place.maker = some maker → later.maker = some maker)
    (made : ∀ request reservation,
      (Event.act thread op answer : Event Answer Call) =
        .act thread (.reserve request) (.ok reservation) →
      reservation.reservationId = id → later.maker = some thread) :
    Kept after (Function.update phases thread next) (history ++ [.act thread op answer]) id later where
  issued := issued
  live := live
  guarded := guarded
  resolved := by
    rw [List.countP_append, kept.resolved, List.countP_singleton, ← resolved]
    cases resolves id (.act thread op answer) <;> rfl
  stands other concerns := by
    by_cases same : other = thread
    · subst same
      rw [Function.update_self] at concerns ⊢
      exact own concerns
    · rw [Function.update_of_ne same] at concerns ⊢
      exact others other same _ (kept.stands other concerns)
  holds other member := by
    rcases holds other member with ⟨different, before⟩ | ⟨rfl, concerns⟩
    · rw [Function.update_of_ne different]
      exact kept.holds other before
    · rwa [Function.update_self]
  made other request reservation happened same := by
    rcases List.mem_append.mp happened with before | last
    · exact maker other (kept.made other request reservation before same)
    · have equal := List.mem_singleton.mp last
      cases (Event.act.inj equal).1
      exact made request reservation equal.symm same

theorem Advances.apart_of {phase : Phase} (advances : Advances phase op answer next)
    (apart : op.touches answer ≠ some id) :
    next = phase ∨ (phase.reservation ≠ some id ∧ next.reservation ≠ some id) := by
  cases advances with
  | apart | refused | lostToCancel | noted => exact .inl rfl
  | reserved | wonToCancel => exact .inr ⟨by rintro ⟨⟩, apart⟩
  | cancelled => exact .inr ⟨apart, by rintro ⟨⟩⟩
  | guarded | committed | failed | aborted => exact .inr ⟨apart, apart⟩
  | won held closes =>
    refine .inr ⟨held.reservation ▸ apart, ?_⟩
    unfold Phase.won
    split <;> exact apart
  | lost held => exact .inr ⟨held.reservation ▸ apart, apart⟩

theorem Kept.stay (kept : Kept w phases history id place)
    (own : next.reservation = some id → Stands id place thread next)
    (holds : (phases thread).reservation = some id → next.reservation = some id)
    (issued : id ∈ after.contexts.issued ↔ id ∈ w.contexts.issued)
    (live : after.contexts.Live id ↔ w.contexts.Live id)
    (guarded : after.guards.lookup id = some .active ↔ w.guards.lookup id = some .active)
    (unresolved : resolves id (.act thread op answer) = false)
    (unmade : ∀ request reservation, (Event.act thread op answer : Event Answer Call) =
      .act thread (.reserve request) (.ok reservation) → reservation.reservationId ≠ id) :
    Kept after (Function.update phases thread next) (history ++ [.act thread op answer]) id place := by
  refine kept.move (issued.trans kept.issued) (live.trans kept.live) (guarded.trans kept.guarded) ?_ own
    (fun _ _ _ stands => stands) ?_ (fun _ same => same) fun request reservation happened same =>
      absurd same (unmade request reservation happened)
  · rw [unresolved]
    rfl
  · intro other member
    by_cases acting : other = thread
    · subst acting
      exact .inr ⟨rfl, holds (kept.holds other member)⟩
    · exact .inl ⟨acting, member⟩

theorem Kept.frame [Sha256] [Rfc3339] {store : StoreOptions}
    (kept : Kept w phases history id place) (advances : Advances (phases thread) op answer next)
    (exec : exec store op w answer after) (apart : op.touches answer ≠ some id) :
    Kept after (Function.update phases thread next) (history ++ [.act thread op answer]) id place := by
  have same := exec_same exec apart
  refine kept.stay (fun concerns => ?_) (fun concerns => ?_) same.issued same.live
    (by rw [same.guards]) ?_ ?_
  · rcases advances.apart_of apart with rfl | other
    · exact kept.stands thread concerns
    · exact absurd concerns other.2
  · rcases advances.apart_of apart with rfl | other
    · exact concerns
    · exact absurd concerns other.1
  · exact Bool.eq_false_iff.mpr fun resolved => apart (resolves_touches resolved)
  · rintro request reservation happened same
    cases happened
    exact apart (congrArg some same)

end Moves

section Touches
variable [Sha256] [Rfc3339] {store : StoreOptions} {w after : World} {phases : Nat → Phase}
  {history : List (Event Answer Call)} {place : Place} {thread : Nat} {reservation : Reservation}
  {guard : ReservationGuard} {new : GuardState}

/-- A step of a thread, after which a reservation is where it says. -/
abbrev Moved (phases : Nat → Phase) (history : List (Event Answer Call)) (thread : Nat) (op : Op)
    (answer : Answer op) (next : Phase) (after : World) (id : String) (later : Place) : Prop :=
  Kept after (Function.update phases thread next) (history ++ [.act thread op answer]) id later

omit [Sha256] [Rfc3339] in
theorem Kept.standing {id : String} {phase : Phase} (kept : Kept w phases history id place)
    (here : phases thread = phase) (concerns : phase.reservation = some id) :
    Stands id place thread phase := by
  subst here
  exact kept.stands thread concerns

theorem Kept.reserved {request : MutationRequest}
    (kept : Kept w phases history reservation.reservationId place)
    (exec : exec store (.reserve request) w (.ok reservation) after) :
    Moved phases history thread (.reserve request) (.ok reservation) (.reserved reservation.reservationId)
      after reservation.reservationId (.fresh thread) := by
  obtain ⟨newReservationId, now, contexts, step, rfl⟩ := exec
  have absent : place = .absent := by
    have unmade := kept.issued.not.mp (step.fresh _ rfl)
    cases place with
    | absent => rfl
    | _ => exact absurd nofun unmade
  subst absent
  refine kept.move ?_ ?_ kept.guarded rfl (fun _ => .fresh) ?_ ?_ ?_ ?_
  · rw [step.issued]
    simp [LlmContext.Answer.reservationId, Place.maker]
  · rw [step.live_iff]
    simp [LlmContext.Answer.reservationId, Place.live]
  · intro other different phase stands
    cases stands
  · intro other member
    exact .inr ⟨List.mem_singleton.mp member, rfl⟩
  · rintro maker ⟨⟩
  · intro _ _ _ _
    rfl

omit [Sha256] [Rfc3339] in
theorem Kept.onward {id : String} {op : Op} {answer : Answer op} {next : Phase} {later : Place}
    (kept : Kept w phases history id place)
    (sole : ∀ other phase, Stands id place other phase → other = thread)
    (own : Stands id later thread next) (concerns : next.reservation = some id)
    (threads : ∀ other ∈ later.threads, other = thread)
    (issued : id ∈ after.contexts.issued ↔ id ∈ w.contexts.issued)
    (maker : later.maker = place.maker) (live : after.contexts.Live id ↔ later.live = true)
    (guarded : after.guards.lookup id = some .active ↔ later.guarded = true)
    (resolved : place.resolved + (resolves id (.act thread op answer)).toNat = later.resolved)
    (made : ∀ request reservation, (Event.act thread op answer : Event Answer Call) ≠
      .act thread (.reserve request) (.ok reservation)) :
    Moved phases history thread op answer next after id later := by
  refine kept.move (maker ▸ issued.trans kept.issued) live guarded resolved (fun _ => own) ?_ ?_
    (fun _ same => maker.trans same) fun request reservation happened => absurd happened (made _ _)
  · intro other different phase stands
    exact absurd (sole other phase stands) different
  · intro other member
    exact .inr ⟨threads other member, concerns⟩

theorem Kept.guarding (kept : Kept w phases history reservation.reservationId place)
    (phase : phases thread = .reserved reservation.reservationId)
    (exec : exec store (.newGuard reservation) w () after) :
    Moved phases history thread (.newGuard reservation) () (.guarded reservation.reservationId)
      after reservation.reservationId (.guard thread) := by
  obtain rfl := (kept.standing phase rfl).reserved
  cases exec
  refine kept.onward ?_ .guard rfl ?_ Iff.rfl rfl kept.live ?_ rfl (by rintro _ _ ⟨⟩)
  · rintro other phase ⟨⟩
    rfl
  · exact fun other => List.mem_singleton.mp
  · simp [Place.guarded, AList.lookup_insert]

/-- Where a reservation is once the thread that made it has won its guard. -/
def Place.won (maker : Nat) : GuardState → Place
  | .committing => .committing maker
  | _ => .aborting maker maker

/-- A thread that wins the guard of its own reservation. -/
theorem Kept.won (kept : Kept w phases history guard.id place) (held : (phases thread).Held guard.id)
    (closes : new ≠ .active) (exec : exec store (.compareExchange guard .active new) w true after) :
    Moved phases history thread (.compareExchange guard .active new) true (.won guard.id new)
      after guard.id (.won thread new) := by
  obtain ⟨active, rfl⟩ := exec
  have guarded := kept.guarded.mp (of_decide_eq_true active.symm)
  obtain rfl : place = .guard thread := by
    rcases (kept.standing rfl held.reservation).held held with ⟨rfl, -⟩ | open_
    · rfl
    · rw [open_.1] at guarded
      cases guarded
  have sole : ∀ other phase, Stands guard.id (.guard thread) other phase → other = thread := by
    rintro other phase ⟨⟩
    rfl
  have closed : (w.guards.insert guard.id new).lookup guard.id ≠ some .active := by
    rw [AList.lookup_insert]
    exact fun same => closes (Option.some.inj same)
  cases new with
  | active => exact absurd rfl closes
  | committing =>
    refine kept.onward sole .committing rfl ?_ Iff.rfl rfl kept.live (iff_of_false closed nofun) rfl
      (by rintro _ _ ⟨⟩)
    exact fun other => List.mem_singleton.mp
  | aborted | committed =>
    refine kept.onward sole .aborting rfl ?_ Iff.rfl rfl kept.live (iff_of_false closed nofun) rfl
      (by rintro _ _ ⟨⟩)
    simp [Place.won, Place.threads]

theorem Kept.lost (kept : Kept w phases history guard.id place) (held : (phases thread).Held guard.id)
    (exec : exec store (.compareExchange guard .active new) w false after) :
    Moved phases history thread (.compareExchange guard .active new) false (.passed guard.id)
      after guard.id place := by
  obtain ⟨missed, rfl⟩ := exec
  have taken := kept.guarded.not.mp (of_decide_eq_false missed.symm)
  rcases (kept.standing rfl held.reservation).held held with ⟨rfl, -⟩ | ⟨-, tries⟩
  · exact absurd rfl taken
  · exact kept.stay (fun _ => tries _ (.inr rfl)) (fun _ => rfl) Iff.rfl Iff.rfl Iff.rfl rfl (by rintro _ _ ⟨⟩)

theorem Kept.noted (kept : Kept w phases history guard.id place)
    (passed : phases thread = .passed guard.id) (closes : new ≠ .active)
    (exec : exec store (.storeState guard new) w () after) :
    Moved phases history thread (.storeState guard new) () (.passed guard.id) after guard.id place := by
  cases exec
  rcases (kept.standing passed rfl).held (.inr rfl) with ⟨-, ⟨⟩⟩ | ⟨taken, tries⟩
  have open_ : w.guards.lookup guard.id ≠ some .active := kept.guarded.not.mpr (by simp [taken])
  have closed : (w.guards.insert guard.id new).lookup guard.id ≠ some .active := by
    rw [AList.lookup_insert]
    exact fun same => closes (Option.some.inj same)
  exact kept.stay (fun _ => tries _ (.inr rfl)) (fun _ => rfl) Iff.rfl Iff.rfl
    (iff_of_false closed open_) rfl (by rintro _ _ ⟨⟩)

/-- A thread that cancels wins the guard of somebody else. -/
theorem Kept.wonToCancel (kept : Kept w phases history guard.id place)
    (watching : phases thread = .watching) (closes : new ≠ .active)
    (exec : exec store (.compareExchange guard .active new) w true after) :
    ∃ later, Moved phases history thread (.compareExchange guard .active new) true
      (.aborting guard.id false) after guard.id later := by
  obtain ⟨active, rfl⟩ := exec
  have guarded := kept.guarded.mp (of_decide_eq_true active.symm)
  obtain ⟨maker, rfl⟩ : ∃ maker, place = .guard maker := by
    cases place with
    | guard maker => exact ⟨maker, rfl⟩
    | _ => cases guarded
  have concerns := kept.holds maker (List.mem_singleton_self maker)
  have other : thread ≠ maker := by
    rintro rfl
    rw [watching] at concerns
    cases concerns
  have closed : (w.guards.insert guard.id new).lookup guard.id ≠ some .active := by
    rw [AList.lookup_insert]
    exact fun same => closes (Option.some.inj same)
  refine ⟨.aborting maker thread, kept.move kept.issued kept.live (iff_of_false closed nofun) rfl
    (fun _ => .cancelling other) ?_ ?_ (fun _ same => same) (by rintro _ _ ⟨⟩)⟩
  · rintro _ different phase ⟨⟩
    exact .forestalled (.inl rfl) other
  · intro concerned member
    rcases List.mem_pair.mp member with rfl | rfl
    · exact .inl ⟨Ne.symm other, List.mem_singleton_self _⟩
    · exact .inr ⟨rfl, rfl⟩

theorem Kept.lostToCancel (kept : Kept w phases history guard.id place)
    (watching : phases thread = .watching)
    (exec : exec store (.compareExchange guard .active new) w false after) :
    Moved phases history thread (.compareExchange guard .active new) false .watching
      after guard.id place := by
  obtain ⟨-, rfl⟩ := exec
  refine kept.stay nofun (fun concerns => ?_) Iff.rfl Iff.rfl Iff.rfl rfl (by rintro _ _ ⟨⟩)
  rw [watching] at concerns
  cases concerns

theorem Kept.committed {assistant : LlmContext.Message} {receipt : LlmContext.Receipt}
    (kept : Kept w phases history reservation.reservationId place)
    (committing : phases thread = .committing reservation.reservationId)
    (exec : exec store (.commit reservation assistant) w (.ok receipt) after) :
    Moved phases history thread (.commit reservation assistant) (.ok receipt)
      (.passed reservation.reservationId) after reservation.reservationId (.spent thread) := by
  obtain rfl := (kept.standing committing rfl).committing_
  obtain ⟨factory, now, contexts, step, rfl⟩ := exec
  refine kept.onward ?_ (.spent (.inr rfl)) rfl ?_ ?_ rfl ?_ kept.guarded ?_ (by rintro _ _ ⟨⟩)
  · rintro other phase ⟨⟩
    rfl
  · exact fun other => List.mem_singleton.mp
  · rw [step.issued]
    exact Iff.rfl
  · rw [step.live_iff]
    simp [LlmContext.Event.ended, LlmContext.Answer.reservationId, Place.live]
  · simp [resolves, Place.resolved, Except.isOk, Except.toBool]

theorem Kept.failed {assistant : LlmContext.Message} {e : LlmContext.StoreError}
    (kept : Kept w phases history reservation.reservationId place)
    (committing : phases thread = .committing reservation.reservationId)
    (exec : exec store (.commit reservation assistant) w (.error e) after) :
    Moved phases history thread (.commit reservation assistant) (.error e)
      (.aborting reservation.reservationId true) after reservation.reservationId
      (.aborting thread thread) := by
  obtain rfl := (kept.standing committing rfl).committing_
  obtain ⟨factory, now, contexts, step, rfl⟩ := exec
  refine kept.onward ?_ .aborting rfl ?_ ?_ rfl ?_ kept.guarded rfl (by rintro _ _ ⟨⟩)
  · rintro other phase ⟨⟩
    rfl
  · simp [Place.threads]
  · rw [step.issued]
    exact Iff.rfl
  · rw [step.live_iff, kept.live]
    simp [LlmContext.Event.ended, LlmContext.Answer.reservationId, Place.live]

theorem Kept.aborts {own : Bool} {errorCode : Option String} {answer : LlmContext.StoreResult Unit}
    (sound : Sound store w.contexts) (kept : Kept w phases history reservation.reservationId place)
    (aborting : phases thread = .aborting reservation.reservationId own)
    (exec : exec store (.abort reservation errorCode) w answer after) :
    answer = .ok () ∧ ¬ after.contexts.Live reservation.reservationId := by
  obtain ⟨maker, rfl, -⟩ := (kept.standing aborting rfl).aborting_
  obtain ⟨now, contexts, step, rfl⟩ := exec
  obtain rfl := step.aborts sound (kept.live.mpr rfl)
  refine ⟨rfl, ?_⟩
  rw [step.live_iff]
  simp [LlmContext.Event.ended, LlmContext.Answer.reservationId]

theorem Kept.aborted {own : Bool} {errorCode : Option String} {answer : LlmContext.StoreResult Unit}
    {next : Phase} (sound : Sound store w.contexts)
    (kept : Kept w phases history reservation.reservationId place)
    (aborting : phases thread = .aborting reservation.reservationId own)
    (goes : next = if own then .passed reservation.reservationId else .watching)
    (exec : exec store (.abort reservation errorCode) w answer after) :
    ∃ later, Moved phases history thread (.abort reservation errorCode) answer next after
      reservation.reservationId later := by
  obtain ⟨rfl, ended⟩ := kept.aborts sound aborting exec
  obtain ⟨maker, rfl, made⟩ := (kept.standing aborting rfl).aborting_
  obtain ⟨now, contexts, step, rfl⟩ := exec
  refine ⟨.spent maker, kept.move ?_ (iff_of_false ended nofun) kept.guarded ?_ ?_ ?_ ?_
    (fun _ same => same) (by rintro _ _ ⟨⟩)⟩
  · rw [step.issued]
    exact kept.issued
  · simp [resolves, Place.resolved, Except.isOk, Except.toBool]
  · intro concerns
    cases own with
    | false =>
      subst goes
      cases concerns
    | true =>
      obtain rfl := made.mp rfl
      subst goes
      exact .spent (.inr rfl)
  · intro other different phase stands
    cases stands with
    | aborting | cancelling => exact absurd rfl different
    | forestalled held _ => exact .spent held
  · intro other member
    obtain rfl := List.mem_singleton.mp member
    cases own with
    | false => exact .inl ⟨fun same => by simpa using made.mpr same.symm, List.mem_cons_self⟩
    | true => exact .inr ⟨(made.mp rfl).symm, goes ▸ rfl⟩

end Touches

end LlmActionServer
end Nps.Nwp
