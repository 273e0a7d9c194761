import NpsSdk.Nwp.ContextOutcomes
import NpsSdk.Nwp.ReservationLedger

/-! How reservations end: whoever takes part, at most one commit or abort of each succeeds, and none
is left to a request that has returned. -/
namespace Nps.Nwp.LlmActionServer
open Interaction Prog
open Nip (Sha256)
open ActionServer (ActionContext ParsedActionFrame)
open LlmContext (MutationRequest Reservation Rfc3339 Sound StoreOptions)

abbrev Requests := Pool Answer World Call (Option Outcome)

section Ledgers
variable [Sha256] [Rfc3339] [Serde] {options : StatefulLlmActionOptions} {store : StoreOptions}
  {pool after : Requests} {history : List (Event Answer Call)}

/-- Every reservation has a place, and every thread keeps to the protocol. -/
structure Ledger (store : StoreOptions) (pool : Requests) (history : List (Event Answer Call))
    (phases : Nat → Phase) : Prop where
  phased : Phased Advances Call.Belongs (fun call phase _ => call.Ended phase) pool phases
  unborn : ∀ thread, pool.threads.length ≤ thread → phases thread = .idle
  sound : Sound store pool.shared.contexts
  kept : ∀ id, ∃ place, Kept pool.shared phases history id place

variable {phases : Nat → Phase}

omit [Serde] in
theorem Kept.touched {w later : World} {id : String} {place : Place} {thread : Nat} {next : Phase}
    {op : Op} {answer : Answer op} (sound : Sound store w.contexts)
    (kept : Kept w phases history id place) (advances : Advances (phases thread) op answer next)
    (exec : exec store op w answer later) (touched : op.touches answer = some id) :
    ∃ place, Kept later (Function.update phases thread next) (history ++ [.act thread op answer]) id
      place := by
  generalize here : phases thread = phase at advances
  cases advances with
  | apart plain resting =>
    cases op with
    | reserve | newGuard | compareExchange | storeState | commit | abort => exact False.elim plain
    | _ => cases touched
  | refused => cases touched
  | reserved =>
    obtain rfl := Option.some.inj touched
    exact ⟨_, kept.reserved exec⟩
  | guarded =>
    obtain rfl := Option.some.inj touched
    exact ⟨_, kept.guarding here exec⟩
  | won held closes =>
    obtain rfl := Option.some.inj touched
    exact ⟨_, kept.won (here ▸ held) closes exec⟩
  | lost held =>
    obtain rfl := Option.some.inj touched
    exact ⟨_, kept.lost (here ▸ held) exec⟩
  | wonToCancel closes =>
    obtain rfl := Option.some.inj touched
    exact kept.wonToCancel here closes exec
  | lostToCancel =>
    obtain rfl := Option.some.inj touched
    exact ⟨_, kept.lostToCancel here exec⟩
  | noted closes =>
    obtain rfl := Option.some.inj touched
    exact ⟨_, kept.noted here closes exec⟩
  | committed =>
    obtain rfl := Option.some.inj touched
    exact ⟨_, kept.committed here exec⟩
  | failed =>
    obtain rfl := Option.some.inj touched
    exact ⟨_, kept.failed here exec⟩
  | aborted =>
    obtain rfl := Option.some.inj touched
    exact kept.aborted sound here rfl exec
  | cancelled =>
    obtain rfl := Option.some.inj touched
    exact kept.aborted sound here rfl exec

omit [Serde] in
theorem exec_sound {op : Op} {w later : World} {answer : Answer op} (exec : exec store op w answer later)
    (sound : Sound store w.contexts) : Sound store later.contexts := by
  have called : ∀ {call answer}, Calls store call answer w later → Sound store later.contexts := by
    rintro call answer ⟨now, contexts, step, rfl⟩
    exact step.sound sound
  cases op with
  | execute | authorizer | emit | newGuard | storeState =>
    cases exec
    exact sound
  | isCancelled | swapCancelled | takeListeners =>
    obtain ⟨-, rfl⟩ := exec
    exact sound
  | addListener | compareExchange =>
    obtain ⟨-, rfl⟩ := exec
    split <;> exact sound
  | reserve | commit =>
    obtain ⟨_, calls⟩ := exec
    exact called calls
  | abort | snapshot | status | release | sweepExpired => exact called exec

theorem Ledger.act {thread : Nat} {op : Op} {answer : Answer op} (ledger : Ledger store pool history phases)
    (step : (server options store).Step pool (.act thread op answer) after) :
    ∃ next, Advances (phases thread) op answer next ∧
      Ledger store after (history ++ [.act thread op answer]) (Function.update phases thread next) := by
  obtain ⟨next, advances, phased⟩ := ledger.phased.act (fun _ => rfl)
    (fun belongs advances => advances.belongs belongs) step
  have acted : exec store op pool.shared answer after.shared ∧ thread < pool.threads.length ∧
      pool.threads.length ≤ after.threads.length := by
    cases step with
    | act found exec =>
      have bound := (List.getElem?_eq_some_iff.mp found).1
      exact ⟨exec, bound, by simp⟩
  obtain ⟨exec, bound, grows⟩ := acted
  refine ⟨next, advances, phased, fun other late => ?_, exec_sound exec ledger.sound, fun id => ?_⟩
  · rw [Function.update_of_ne (by omega)]
    exact ledger.unborn other (grows.trans late)
  · obtain ⟨place, kept⟩ := ledger.kept id
    by_cases touched : op.touches answer = some id
    · exact kept.touched ledger.sound advances exec touched
    · exact ⟨place, kept.frame advances exec touched⟩

theorem Ledger.start (ledger : Ledger store pool history phases) (call : Call) :
    Ledger store { pool with threads := pool.threads ++ [(call, (server options store).program call)] }
      (history ++ [.start call]) (Function.update phases pool.threads.length call.start) := by
  have own : call.Belongs call.start := by
    unfold Call.Belongs Call.start
    cases call.cancels <;> rfl
  have unconcerned : call.start.reservation = none := by
    unfold Call.start
    split <;> rfl
  have idle := ledger.unborn pool.threads.length (Nat.le_refl _)
  have same : ∀ thread, (Function.update phases pool.threads.length call.start thread).reservation =
      (phases thread).reservation := by
    intro thread
    by_cases new : thread = pool.threads.length
    · subst new
      rw [Function.update_self, idle, unconcerned]
      rfl
    · rw [Function.update_of_ne new]
  refine ⟨ledger.phased.start own (call_follows call), fun thread late => ?_, ledger.sound,
    fun id => ?_⟩
  · rw [List.length_append, List.length_singleton] at late
    rw [Function.update_of_ne (by omega)]
    exact ledger.unborn thread (by omega)
  · obtain ⟨place, kept⟩ := ledger.kept id
    refine ⟨place, kept.issued, kept.live, kept.guarded, ?_, fun thread concerns => ?_,
      fun thread member => ?_, fun thread request reservation happened => ?_⟩
    · rw [List.countP_append, kept.resolved]
      rfl
    · have old : thread ≠ pool.threads.length := by
        rintro rfl
        rw [same, idle] at concerns
        cases concerns
      rw [Function.update_of_ne old] at concerns ⊢
      exact kept.stands thread concerns
    · rw [same]
      exact kept.holds thread member
    · rcases List.mem_append.mp happened with before | last
      · exact kept.made thread request reservation before
      · cases List.mem_singleton.mp last

omit [Sha256] [Rfc3339] in
theorem Ledger.empty {start : Nip.Instant} :
    Ledger store ⟨{ contexts := { clock := start } }, []⟩ [] fun _ => .idle := by
  have nothing : ∀ {id : String}, AList.lookup id (∅ : Assoc String LlmContext.ReservationData) = none :=
    AList.lookup_empty _
  have unborn : ∀ thread, Phase.idle.reservation ≠ some thread := fun _ same => by cases same
  refine ⟨⟨?_, ?_⟩, fun _ _ => rfl, ⟨.empty, fun id data live => ?_⟩, fun id => ⟨.absent, ?_⟩⟩
  · intro thread caller p found
    cases found
  · intro thread caller p found
    cases found
  · cases nothing.symm.trans live
  · refine ⟨iff_of_false List.not_mem_nil (by simp [Place.maker]), ?_, ?_, rfl,
      fun _ concerns => absurd concerns (unborn id), fun thread member => ?_,
      fun thread request reservation happened => absurd happened List.not_mem_nil⟩
    · unfold LlmContext.World.Live
      rw [nothing]
      exact iff_of_false Bool.false_ne_true Bool.false_ne_true
    · exact iff_of_false (by simp) Bool.false_ne_true
    · exact absurd member List.not_mem_nil

theorem run_ledger {start : Nip.Instant} {events : List (Event Answer Call)}
    (run : Transition.Run (server options store).Step ⟨{ contexts := { clock := start } }, []⟩ events pool) :
    ∃ phases, Ledger store pool events phases := by
  refine (run.recorded []).invariant
    (P := fun recorded : Requests × List (Event Answer Call) =>
      ∃ phases, Ledger store recorded.1 recorded.2 phases) ?_ ⟨_, .empty⟩
  rintro ⟨pool, history⟩ event ⟨after, later⟩ ⟨phases, ledger⟩ ⟨step, rfl⟩
  cases event with
  | start call =>
    cases step
    exact ⟨_, ledger.start call⟩
  | act thread op answer =>
    obtain ⟨next, -, kept⟩ := ledger.act step
    exact ⟨_, kept⟩

end Ledgers

/-- Exactly one commit or abort of the reservation has succeeded, and it is no longer live. -/
def EndedOnce (pool : Requests) (events : List (Event Answer Call)) (id : String) : Prop :=
  events.countP (resolves id) = 1 ∧ ¬ pool.shared.contexts.Live id

/-- A thread that cancels has won the guard of the reservation: what it does next is to abort it, and
that succeeds. -/
def LeftToCancel [Sha256] [Rfc3339] (store : StoreOptions) (pool : Requests)
    (events : List (Event Answer Call)) (id : String) : Prop :=
  events.countP (resolves id) = 0 ∧ pool.shared.contexts.Live id ∧
    ∃ (thread : Nat) (token : Nat) (reservation : Reservation) (errorCode : Option String)
      (next : LlmContext.StoreResult Unit → Program (Option Outcome)),
      pool.threads[thread]? = some (.cancel token, .call (.abort reservation errorCode) next) ∧
      reservation.reservationId = id ∧
      ∀ answer after, exec store (.abort reservation errorCode) pool.shared answer after →
        answer = .ok () ∧ ¬ after.contexts.Live id

def Returned [Serde] (pool : Requests) (events : List (Event Answer Call)) (reservation : Reservation) :
    Prop :=
  ∃ thread frame context outcome request,
    pool.threads[thread]? = some (.execute frame context, .done outcome) ∧ ¬ Streams frame ∧
      .act thread (.reserve request) (.ok reservation) ∈ events

section Returned
variable [Sha256] [Rfc3339] [Serde] {options : StatefulLlmActionOptions} {store : StoreOptions}
  {pool : Requests} {events : List (Event Answer Call)} {phases : Nat → Phase} {id : String}

omit [Sha256] [Rfc3339] [Serde] in
theorem answers_exist (op : Op) : Nonempty (Answer op) := by
  cases op with
  | execute | authorizer | emit => exact ⟨.error (.internal "")⟩
  | isCancelled | swapCancelled | addListener | compareExchange => exact ⟨false⟩
  | takeListeners => exact ⟨[]⟩
  | newGuard | storeState => exact ⟨()⟩
  | reserve | commit | abort | snapshot | status | release | sweepExpired =>
    exact ⟨.error LlmContext.repeated⟩

/-- A thread that is to abort a reservation for whoever cancels does it next. -/
theorem Ledger.cancelling (ledger : Ledger store pool events phases) {thread maker : Nat}
    (kept : Kept pool.shared phases events id (.aborting maker thread)) (other : thread ≠ maker) :
    LeftToCancel store pool events id := by
  have concerns := kept.holds thread (by simp [Place.threads])
  have stands := kept.stands thread concerns
  generalize phase : phases thread = now at concerns stands
  cases stands with
  | aborting => exact absurd rfl other
  | forestalled held different => exact absurd rfl different
  | cancelling different =>
    have born : thread < pool.threads.length := by
      by_contra late
      rw [ledger.unborn thread (Nat.le_of_not_lt late)] at phase
      cases phase
    obtain ⟨⟨caller, p⟩, found⟩ : ∃ entry, pool.threads[thread]? = some entry :=
      ⟨_, List.getElem?_eq_getElem born⟩
    have belongs := ledger.phased.belongs thread caller p found
    have follows := ledger.phased.follows thread caller p found
    rw [phase] at belongs follows
    cases caller with
    | execute | sweepExpired => cases belongs
    | cancel token =>
      cases p with
      | done result => cases follows
      | call op next =>
        obtain ⟨answer⟩ := answers_exist op
        obtain ⟨later, advances, -⟩ := follows answer
        cases advances with
        | apart plain resting => cases resting
        | won held => cases held.resting
        | lost held => cases held.resting
        | cancelled =>
          refine ⟨kept.resolved, kept.live.mpr rfl, thread, token, _, _, next, found, rfl, ?_⟩
          exact fun answer after exec => kept.aborts ledger.sound phase exec

theorem Ledger.returned (ledger : Ledger store pool events phases) {reservation : Reservation}
    (returned : Returned pool events reservation) :
    EndedOnce pool events reservation.reservationId ∨
      LeftToCancel store pool events reservation.reservationId := by
  obtain ⟨thread, frame, context, outcome, request, found, unary, happened⟩ := returned
  obtain ⟨place, kept⟩ := ledger.kept reservation.reservationId
  have made := kept.made thread request reservation happened rfl
  have concerns := kept.holds thread (Place.maker_threads made)
  have stands := kept.stands thread concerns
  have ended : (Call.execute frame context).Ended (phases thread) :=
    ledger.phased.follows thread _ _ found
  obtain idle | ⟨id, passed | ⟨streams, -⟩⟩ := ended
  · rw [idle] at concerns
    cases concerns
  · rw [passed] at stands
    cases stands with
    | forestalled held different => exact .inr (ledger.cancelling kept different)
    | spent held => exact .inl ⟨kept.resolved, kept.live.not.mpr Bool.false_ne_true⟩
  · exact absurd streams unary

end Returned

/-- Whatever clients, deadlines and providers do, at most one commit or abort of a reservation
succeeds, and it has succeeded by the time that a request for one response returns, unless a thread
that cancels has won the guard and is about to abort. -/
theorem reservations_resolved [Sha256] [Rfc3339] [Serde] {options : StatefulLlmActionOptions}
    {store : StoreOptions} {start : Nip.Instant} {events : List (Event Answer Call)} {pool : Requests}
    (run : Transition.Run (server options store).Step ⟨{ contexts := { clock := start } }, []⟩
      events pool) :
    (∀ id, events.countP (resolves id) ≤ 1) ∧
      ∀ reservation, Returned pool events reservation →
        EndedOnce pool events reservation.reservationId ∨
          LeftToCancel store pool events reservation.reservationId := by
  obtain ⟨phases, ledger⟩ := run_ledger run
  refine ⟨fun id => ?_, fun reservation => ledger.returned⟩
  obtain ⟨place, kept⟩ := ledger.kept id
  rw [kept.resolved]
  exact place.resolved_le

def ResolvedOnReturn [Sha256] [Rfc3339] [Serde] (options : StatefulLlmActionOptions)
    (store : StoreOptions) : Prop :=
  ∀ {start : Nip.Instant} {events : List (Event Answer Call)} {pool : Requests},
    Transition.Run (server options store).Step ⟨{ contexts := { clock := start } }, []⟩ events pool →
    ∀ reservation, Returned pool events reservation → EndedOnce pool events reservation.reservationId

namespace Provided

scoped instance digest : Sha256 := ⟨fun bytes => bytes⟩

scoped instance format : Rfc3339 := ⟨fun _ => none⟩

/-- Every request is for a new context. -/
scoped instance serde : Serde where
  readRequest _ := .ok {
    model := "m1"
    messages := [{ role := "user", content := some "hi" }]
    context := some { operation := .create } }
  readResponse _ := .ok { stopReason := .endTurn, content := some "hello" }
  readChunk _ := .error "no chunk"
  readStatus _ := .error "no status"
  readRelease _ := .error "no release"
  writeResponse _ := .ok .null
  writeChunk _ := .ok .null
  writeStatus _ := .ok .null
  writeReceipt _ := .ok .null

def options : StatefulLlmActionOptions where
  securityScope := "default"
  runtimeRevision := "1"
  authorizer := true

def store : StoreOptions := .normalized {}

def frame : ParsedActionFrame where
  actionId := LlmContext.llmComplete
  params := some .null
  idempotencyKey := some "key-1"
  requestId := some "request-1"

def context : ActionContext where
  agentNid := some "urn:nps:agent:example.org:a1"
  requestId := some "request-1"
  taskId := none
  spec := {}
  timeoutMs := 0
  priority := "normal"
  wireInputBytes := 0
  cancellation := 0

def reservation : Reservation := ⟨"reservation-1", .create, "request-1"⟩

def called (call : LlmContext.Call) (w : World) : LlmContext.World :=
  let performed := call.perform store w.contexts.store w.contexts.clock
  ⟨performed.2, w.contexts.clock, performed.1.reservationId.toList ++ w.contexts.issued⟩

def newReservationId (w : World) : LlmContext.StoreResult String :=
  if "reservation-1" ∈ w.contexts.issued then .error LlmContext.repeated else .ok "reservation-1"

def factory (_ : Nat) : LlmContext.StoreResult String := .ok "context-0000000000000001"

/-- The provider answers, and nothing is refused. -/
def handler (op : Op) (w : World) : Answer op × World :=
  let s := w.contexts.store
  let now := w.contexts.clock
  match op with
  | .execute _ _ => (.ok { result := some .null }, w)
  | .authorizer _ _ _ _ _ => (.ok (), w)
  | .emit _ => (.ok (), w)
  | .isCancelled token => (decide (token ∈ w.cancelled), w)
  | .swapCancelled token =>
    (decide (token ∈ w.cancelled), { w with cancelled := token :: w.cancelled })
  | .addListener token listener =>
    if token ∈ w.cancelled then (false, w)
    else (true, { w with
      listeners := Function.update w.listeners token (w.listeners token ++ [listener]) })
  | .takeListeners token =>
    (w.listeners token, { w with listeners := Function.update w.listeners token [] })
  | .newGuard reservation =>
    ((), { w with guards := w.guards.insert reservation.reservationId .active })
  | .compareExchange guard current new =>
    if w.guards.lookup guard.id = some current then
      (true, { w with guards := w.guards.insert guard.id new })
    else (false, w)
  | .storeState guard new => ((), { w with guards := w.guards.insert guard.id new })
  | .reserve request =>
    ((s.reserve store now request (newReservationId w)).1,
      { w with contexts := called (.reserve request (newReservationId w)) w })
  | .commit reservation assistant =>
    ((s.commit store now reservation assistant factory).1,
      { w with contexts := called (.commit reservation assistant factory) w })
  | .abort reservation errorCode =>
    ((s.abort store now reservation errorCode).1,
      { w with contexts := called (.abort reservation errorCode) w })
  | .snapshot owner contextId =>
    ((s.snapshot store now owner contextId).1,
      { w with contexts := called (.snapshot owner contextId) w })
  | .status owner contextId idempotencyKey =>
    ((s.status store now owner contextId idempotencyKey).1,
      { w with contexts := called (.status owner contextId idempotencyKey) w })
  | .release owner contextId baseVersion idempotencyKey =>
    ((s.release store now owner contextId baseVersion idempotencyKey).1,
      { w with contexts := called (.release owner contextId baseVersion idempotencyKey) w })
  | .sweepExpired =>
    ((s.sweepExpired store now).1, { w with contexts := called .sweepExpired w })

theorem calls_called {call : LlmContext.Call} {answer : LlmContext.Answer} {w : World}
    (answered : (call.perform store w.contexts.store w.contexts.clock).1 = answer)
    (fresh : ∀ id ∈ answer.reservationId, id ∉ w.contexts.issued) :
    Calls store call answer w { w with contexts := called call w } := by
  refine ⟨w.contexts.clock, called call w, ⟨⟨Int.le_refl _, rfl⟩, ?_, fresh, ?_⟩, rfl⟩
  · exact Prod.ext answered rfl
  · subst answered
    rfl

theorem reserved_new {w : World} {request : MutationRequest} {id : String}
    (given : id ∈ (LlmContext.Answer.reserved
      (w.contexts.store.reserve store w.contexts.clock request (newReservationId w)).1).reservationId) :
    id ∉ w.contexts.issued := by
  unfold LlmContext.StoreState.reserve at given
  dsimp only at given
  split at given
  · rename_i data admitted
    have generated := (LlmContext.StoreState.admission_ok admitted).2.1
    obtain rfl : data.reservationId = id := Option.some.inj given
    unfold newReservationId at generated
    split at generated
    · cases generated
    · rename_i new
      exact Except.ok.inj generated ▸ new
  · cases given

theorem handler_faithful (op : Op) (w : World) : exec store op w (handler op w).1 (handler op w).2 := by
  cases op with
  | execute | authorizer | emit | newGuard | storeState => rfl
  | isCancelled | swapCancelled | takeListeners => exact ⟨rfl, rfl⟩
  | addListener token listener =>
    unfold handler
    dsimp only
    split <;> simp_all [exec]
  | compareExchange guard current new =>
    unfold handler
    dsimp only
    split <;> simp_all [exec]
  | reserve request => exact ⟨_, calls_called rfl fun id => reserved_new⟩
  | commit reservation assistant => exact ⟨_, calls_called rfl (by rintro id ⟨⟩)⟩
  | abort | snapshot | status | release | sweepExpired => exact calls_called rfl (by rintro id ⟨⟩)

def initial : Requests := ⟨{ contexts := { clock := 0 } }, []⟩

def played (moves : List (Move Call)) : List (Event Answer Call) × Requests :=
  (server options store).play handler moves initial

theorem played_run (moves : List (Move Call)) :
    Transition.Run (server options store).Step initial (played moves).1 (played moves).2 :=
  System.run_play handler_faithful moves initial

theorem unary : ¬ Streams frame := by
  rintro ⟨request, ok, streams⟩
  cases ok
  cases streams

/-- The request has made its reservation when somebody cancels and wins its guard. -/
def interrupted : List (Move Call) :=
  [.start (.execute frame context), .start (.cancel 0), .run 0 4, .run 1 3, .run 0 3]

theorem interrupted_returned : Returned (played interrupted).2 (played interrupted).1 reservation :=
  ⟨0, frame, context, _, _, rfl, unary, List.mem_of_getElem? (i := 2) rfl⟩

/-- Whoever cancels has not called the store yet, and the request has returned. -/
theorem still_live :
    ¬ ∀ (_ : Sha256) (_ : Rfc3339) (_ : Serde) (options : StatefulLlmActionOptions)
      (store : StoreOptions), ResolvedOnReturn options store := by
  intro claimed
  have ended := claimed digest format serde options store (played_run interrupted) reservation
    interrupted_returned
  exact ended.2 rfl

def undisturbed : List (Move Call) := [.start (.execute frame context), .run 0 11]

theorem committed_once : EndedOnce (played undisturbed).2 (played undisturbed).1 "reservation-1" := by
  have returned : Returned (played undisturbed).2 (played undisturbed).1 reservation :=
    ⟨0, frame, context, _, _, rfl, unary, List.mem_of_getElem? (i := 1) rfl⟩
  refine ((reservations_resolved (played_run undisturbed)).2 reservation returned).resolve_right ?_
  rintro ⟨-, -, thread, token, _, _, _, found, -⟩
  match thread with
  | 0 => cases found
  | thread + 1 => cases found

end Provided

end Nps.Nwp.LlmActionServer
