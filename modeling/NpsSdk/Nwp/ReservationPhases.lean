import NpsSdk.Lib.Protocol
import NpsSdk.Nwp.LlmActionServer

/-! Where a thread is with a reservation: it has made it, put a guard around it, won the guard, or
passed it. Completions and cancellations keep to this order. -/
namespace Nps.Nwp.LlmActionServer
open Interaction Prog
open Nip (Sha256)
open ActionServer (ActionContext ActionExecutionResult ActionStream ParsedActionFrame)
open LlmContext (Message MutationRequest Owner Receipt Reservation Rfc3339 StoreError StoreOptions
  StoreResult)

inductive Phase where
  | idle
  /-- A thread that cancels. -/
  | watching
  /-- The reservation was made, and has no guard yet. -/
  | reserved (id : String)
  /-- The thread's own reservation has a guard, which the thread has not tried to win. -/
  | guarded (id : String)
  | committing (id : String)
  | aborting (id : String) (own : Bool)
  /-- The thread has won its own guard and called the store, or has lost it. -/
  | passed (id : String)
deriving DecidableEq

namespace Phase

def resting : Phase → Bool
  | idle | watching | guarded _ | passed _ => true
  | reserved _ | committing _ | aborting _ _ => false

def Held (phase : Phase) (id : String) : Prop := phase = guarded id ∨ phase = passed id

def won (id : String) : GuardState → Phase
  | .committing => committing id
  | _ => aborting id true

end Phase

/-- An operation that touches neither reservations nor guards. -/
def Op.Apart : Op → Prop
  | .reserve _ | .newGuard _ | .compareExchange _ _ _ | .storeState _ _ | .commit _ _ | .abort _ _ =>
    False
  | _ => True

inductive Advances : Protocol Answer Phase where
  | apart {phase : Phase} {op : Op} {answer : Answer op} : op.Apart → phase.resting = true →
      Advances phase op answer phase
  | refused {request : MutationRequest} {e : StoreError} :
      Advances .idle (.reserve request) (.error e) .idle
  | reserved {request : MutationRequest} {reservation : Reservation} :
      Advances .idle (.reserve request) (.ok reservation) (.reserved reservation.reservationId)
  | guarded {reservation : Reservation} : Advances (.reserved reservation.reservationId)
      (.newGuard reservation) () (.guarded reservation.reservationId)
  | won {phase : Phase} {guard : ReservationGuard} {new : GuardState} : phase.Held guard.id →
      new ≠ .active → Advances phase (.compareExchange guard .active new) true (.won guard.id new)
  | lost {phase : Phase} {guard : ReservationGuard} {new : GuardState} : phase.Held guard.id →
      Advances phase (.compareExchange guard .active new) false (.passed guard.id)
  | wonToCancel {guard : ReservationGuard} {new : GuardState} : new ≠ .active →
      Advances .watching (.compareExchange guard .active new) true (.aborting guard.id false)
  | lostToCancel {guard : ReservationGuard} {new : GuardState} :
      Advances .watching (.compareExchange guard .active new) false .watching
  | noted {guard : ReservationGuard} {new : GuardState} : new ≠ .active →
      Advances (.passed guard.id) (.storeState guard new) () (.passed guard.id)
  | committed {reservation : Reservation} {assistant : Message} {receipt : Receipt} :
      Advances (.committing reservation.reservationId) (.commit reservation assistant) (.ok receipt)
        (.passed reservation.reservationId)
  | failed {reservation : Reservation} {assistant : Message} {e : StoreError} :
      Advances (.committing reservation.reservationId) (.commit reservation assistant) (.error e)
        (.aborting reservation.reservationId true)
  | aborted {reservation : Reservation} {errorCode : Option String} {answer : StoreResult Unit} :
      Advances (.aborting reservation.reservationId true) (.abort reservation errorCode) answer
        (.passed reservation.reservationId)
  | cancelled {reservation : Reservation} {errorCode : Option String} {answer : StoreResult Unit} :
      Advances (.aborting reservation.reservationId false) (.abort reservation errorCode) answer
        .watching

def Phase.watches : Phase → Bool
  | watching | aborting _ false => true
  | _ => false

def Call.cancels : Call → Bool
  | .cancel _ => true
  | _ => false

def Call.start (call : Call) : Phase := if call.cancels then .watching else .idle

def Call.Belongs (call : Call) (phase : Phase) : Prop := phase.watches = call.cancels

section Reading
variable [Serde]

def Streams (frame : ParsedActionFrame) : Prop :=
  ∃ request, decodeParams Serde.readRequest frame LlmContext.llmComplete = .ok request ∧
    request.stream = true

/-- The phases in which a thread may end: a guard is left to itself only by a stream. -/
def Call.Ended : Call → Phase → Prop
  | .execute frame _, phase =>
    phase = .idle ∨ ∃ id, phase = .passed id ∨ (Streams frame ∧ phase = .guarded id)
  | .cancel _, phase => phase = .watching
  | .sweepExpired, phase => phase = .idle

end Reading

section Steps
variable {phase next : Phase} {caller : Call} {op : Op} {answer : Answer op}

theorem Advances.belongs (advances : Advances phase op answer next) (belongs : caller.Belongs phase) :
    caller.Belongs next := by
  have same : next.watches = phase.watches := by
    cases advances with
    | apart => rfl
    | @won phase guard new held closes => rcases held with rfl | rfl <;> cases new <;> rfl
    | lost held => rcases held with rfl | rfl <;> rfl
    | _ => rfl
  exact same.trans belongs

end Steps

section Guards
variable {phase : Phase} {guard : ReservationGuard}

theorem Phase.Held.resting (held : phase.Held guard.id) : phase.resting = true := by
  rcases held with rfl | rfl <;> rfl

theorem abort_follows {final : Phase → Unit → Prop} (held : phase.Held guard.id)
    (rest : final (.passed guard.id) ()) (errorCode : String) :
    Follows Advances final phase (guard.abort errorCode) := by
  intro taken
  cases taken with
  | false => exact ⟨_, .lost held, rest⟩
  | true => exact ⟨_, .won held (by decide), fun answer => ⟨_, .aborted, rest⟩⟩

theorem cancelled_follows {final : Phase → Unit → Prop} (rest : final .watching ()) :
    Follows Advances final .watching guard.cancelled := by
  intro taken
  cases taken with
  | false => exact ⟨_, .lostToCancel, rest⟩
  | true => exact ⟨_, .wonToCancel (by decide), fun answer => ⟨_, .cancelled, rest⟩⟩

theorem commit_follows {final : Phase → Except ActionServer.ActionError Receipt → Prop}
    (held : phase.Held guard.id) (rest : ∀ result, final (.passed guard.id) result)
    (assistant : Message) : Follows Advances final phase (guard.commit assistant) := by
  intro taken
  cases taken with
  | false => exact ⟨_, .lost held, rest _⟩
  | true =>
    refine ⟨_, .won held (by decide), fun answer => ?_⟩
    cases answer with
    | ok receipt => exact ⟨_, .committed, fun _ => ⟨_, .noted (by decide), rest _⟩⟩
    | error e =>
      exact ⟨_, .failed, fun answer => ⟨_, .aborted, fun _ => ⟨_, .noted (by decide), rest _⟩⟩⟩

theorem cancel_follows (token : Nat) :
    Follows Advances (fun phase _ => phase = .watching) .watching (cancel token) := by
  have listeners_follow : ∀ listeners, Follows Advances (fun phase _ => phase = .watching) .watching
      (runListeners listeners) := by
    intro listeners
    induction listeners with
    | nil => rfl
    | cons listener rest ih => exact Follows.bind (cancelled_follows ih)
  refine Follows.ask (fun _ => .apart trivial rfl) fun before => ?_
  cases before with
  | true => rfl
  | false => exact Follows.ask (fun _ => .apart trivial rfl) listeners_follow

theorem onCancel_follows {final : Phase → Unit → Prop} (held : phase.Held guard.id)
    (rest : ∀ after, Phase.Held after guard.id → final after ()) (token : Nat) :
    Follows Advances final phase (onCancel token guard) := by
  refine Follows.ask (fun _ => .apart trivial held.resting) fun cancelled => ?_
  cases cancelled with
  | true => exact abort_follows held (rest _ (.inr rfl)) _
  | false =>
    refine Follows.ask (fun _ => .apart trivial held.resting) fun added => ?_
    cases added with
    | true => exact rest _ held
    | false => exact abort_follows held (rest _ (.inr rfl)) _

end Guards

def leftTo : Outcome → Option ReservationGuard
  | .ok { stream := some (.coordinated _ guard _ _ _), .. } => some guard
  | _ => none

/-- A completion that leaves its guard to no stream has passed it, if it has one. -/
def Served (streaming : Prop) (phase : Phase) (outcome : Outcome) : Prop :=
  match leftTo outcome with
  | none => phase = .idle ∨ ∃ id, phase = .passed id
  | some guard => streaming ∧ phase.Held guard.id

section Completions
variable {options : StatefulLlmActionOptions} {frame : ParsedActionFrame} {context : ActionContext}
  {phase : Phase} {guard : ReservationGuard} {owner : Owner}

theorem checkAuthorization_follows {final : Phase → Except ActionServer.ActionError Unit → Prop}
    (resting : phase.resting = true) (rest : ∀ result, final phase result) {action : String}
    {stage : LlmAuthorizationStage} :
    Follows Advances final phase (checkAuthorization options frame context owner action stage) := by
  unfold checkAuthorization
  split
  · exact fun answer => ⟨phase, .apart trivial resting, rest answer⟩
  · exact rest _

theorem resolveBinding_follows {final : Phase → Except ActionServer.ActionError LlmContext.Binding → Prop}
    (resting : phase.resting = true) (rest : ∀ result, final phase result)
    {request : LlmCompleteActionRequest} {contextRequest : LlmContextRequestDto} :
    Follows Advances final phase (resolveBinding options owner request contextRequest) := by
  unfold resolveBinding
  split
  · split
    · exact rest _
    · refine Follows.ask (fun _ => .apart trivial resting) fun snapshot => ?_
      cases snapshot <;> exact rest _
  · exact rest _

theorem failReserved_follows {streaming : Prop} (held : phase.Held guard.id) (message : String) :
    Follows Advances (Served streaming) phase (failReserved guard message) :=
  Follows.bind (abort_follows held (.inr ⟨_, rfl⟩) _)

section Reading
variable [Serde] {result : ActionExecutionResult}

theorem leftTo_unaryResult {failure : String} {response : LlmCompleteActionResponse} :
    leftTo (unaryResult result failure response) = none := by
  unfold unaryResult
  split <;> rfl

theorem served_unaryResult {streaming : Prop} {id failure : String}
    {response : LlmCompleteActionResponse} :
    Served streaming (.passed id) (unaryResult result failure response) := by
  unfold Served
  rw [leftTo_unaryResult]
  exact .inr ⟨id, rfl⟩

theorem concludeUnary_follows {streaming : Prop} (held : phase.Held guard.id)
    (response : LlmCompleteActionResponse) :
    Follows Advances (Served streaming) phase
      (concludeUnary options frame context owner guard result response) := by
  unfold concludeUnary
  split
  · exact Follows.bind (abort_follows held served_unaryResult _)
  · refine Follows.bind (checkAuthorization_follows held.resting fun authorized => ?_)
    cases authorized with
    | error e => exact Follows.bind (abort_follows held (.inr ⟨_, rfl⟩) _)
    | ok u =>
      refine Follows.ask (fun _ => .apart trivial held.resting) fun cancelled => ?_
      cases cancelled with
      | true => exact failReserved_follows held _
      | false =>
        refine Follows.bind (commit_follows held (fun committed => ?_) _)
        cases committed with
        | error e => exact .inr ⟨_, rfl⟩
        | ok receipt => exact served_unaryResult

theorem executeReserved_follows {streaming : Bool} (held : phase.Held guard.id) :
    Follows Advances (Served (streaming = true)) phase
      (executeReserved options frame context owner guard streaming) := by
  refine Follows.ask (fun _ => .apart trivial held.resting) fun executed => ?_
  cases executed with
  | error e => exact Follows.bind (abort_follows held (.inr ⟨_, rfl⟩) _)
  | ok result =>
    refine Follows.ask (fun _ => .apart trivial held.resting) fun cancelled => ?_
    split
    · exact failReserved_follows held _
    · split
      · rename_i streams
        split
        · exact failReserved_follows held _
        · exact ⟨streams, held⟩
      · split
        · exact failReserved_follows held _
        · split
          · exact failReserved_follows held _
          · split
            · exact failReserved_follows held _
            · exact concludeUnary_follows held _

theorem completeReserved_follows {request : LlmCompleteActionRequest}
    {contextRequest : LlmContextRequestDto} {binding : LlmContext.Binding} :
    Follows Advances (Served (request.stream = true)) .idle
      (completeReserved options frame context owner request contextRequest binding) := by
  intro reserved
  cases reserved with
  | error e => exact ⟨_, .refused, .inl rfl⟩
  | ok reservation =>
    refine ⟨_, .reserved, fun _ => ⟨_, .guarded, ?_⟩⟩
    let guard : ReservationGuard := ⟨reservation⟩
    change Follows Advances _ (.guarded guard.id) (onCancel context.cancellation guard >>= fun _ =>
      executeReserved options frame context owner guard request.stream)
    exact Follows.bind (onCancel_follows (.inl rfl) (fun after held => executeReserved_follows held) _)

omit [Serde] in
theorem provided_follows {streaming : Prop} :
    Follows Advances (Served streaming) .idle
      (do return (← ask (.execute frame context)).map served : Program Outcome) := by
  refine Follows.ask (fun _ => .apart trivial rfl) fun executed => ?_
  have plain : leftTo (executed.map served) = none := by
    cases executed with
    | error e => rfl
    | ok result =>
      cases stream : result.stream <;> simp [leftTo, served, Except.map, stream]
  change Served streaming .idle (executed.map served)
  unfold Served
  rw [plain]
  exact .inl rfl

theorem complete_follows : Follows Advances (Served (Streams frame)) .idle
    (complete options frame context) := by
  unfold complete
  split
  · exact .inl rfl
  · rename_i request read
    have streams : request.stream = true → Streams frame := fun streams => ⟨request, read, streams⟩
    split
    · exact .inl rfl
    · exact provided_follows
    · split
      · exact .inl rfl
      · exact .inl rfl
      · refine Follows.bind (resolveBinding_follows rfl fun resolved => ?_)
        cases resolved with
        | error e => exact .inl rfl
        | ok binding =>
          refine Follows.mono (fun phase outcome serves => ?_) completeReserved_follows
          unfold Served at serves ⊢
          split
          · simpa [*] using serves
          · rename_i guard left
            rw [left] at serves
            exact ⟨streams serves.1, serves.2⟩

theorem commitStream_follows {requestFrame : ParsedActionFrame} {supplied : ActionStreamFrame}
    {chunks : List LlmCompleteStreamChunkDto} {state : StreamState} (held : phase.Held guard.id) :
    Follows Advances (fun phase _ => phase.Held guard.id) phase
      (commitStream options guard owner requestFrame context supplied chunks state) := by
  unfold commitStream
  split
  · exact held
  · refine Follows.bind (checkAuthorization_follows held.resting fun authorized => ?_)
    cases authorized with
    | error e => exact held
    | ok u =>
      refine Follows.ask (fun _ => .apart trivial held.resting) fun cancelled => ?_
      cases cancelled with
      | true => exact held
      | false =>
        refine Follows.bind (commit_follows held (fun committed => ?_) _)
        cases committed with
        | error e => exact .inr rfl
        | ok receipt =>
          dsimp only
          split
          · exact .inr rfl
          · exact Follows.ask (fun _ => .apart trivial rfl) fun _ => .inr rfl

theorem coordinateFrame_follows {requestFrame : ParsedActionFrame} {supplied : ActionStreamFrame}
    {state : StreamState} (held : phase.Held guard.id) :
    Follows Advances (fun phase _ => phase.Held guard.id) phase
      (coordinateFrame options guard owner requestFrame context supplied state) := by
  refine Follows.ask (fun _ => .apart trivial held.resting) fun cancelled => ?_
  split
  · exact held
  · split
    · exact held
    · split
      · exact held
      · split
        · exact held
        · dsimp only
          split
          · exact held
          · split
            · unfold concludeStream
              split
              · refine Follows.bind (abort_follows held ?_ _)
                exact Follows.ask (fun _ => .apart trivial rfl) fun _ => .inr rfl
              · exact commitStream_follows held
            · exact Follows.ask (fun _ => .apart trivial held.resting) fun _ => held

theorem coordinateStream_follows {requestFrame : ParsedActionFrame} (source : ActionStream)
    (held : phase.Held guard.id) : Follows Advances (fun phase _ => phase.Held guard.id) phase
      (coordinateStream options guard owner requestFrame context source) := by
  have runs : ∀ (source : ActionStream) (state : StreamState) (phase : Phase), phase.Held guard.id →
      Follows Advances (fun phase _ => phase.Held guard.id) phase
        (runSource options guard owner requestFrame context source state) := by
    intro source
    induction source with
    | finished result => exact fun state phase held => held
    | emits supplied next ih =>
      intro state phase held
      refine Follows.bind (Follows.mono (fun after out held => ?_) (coordinateFrame_follows held))
      exact ih out.1 out.2 after held
  refine Follows.bind (Follows.mono (fun after out held => ?_) (runs source {} phase held))
  dsimp only
  split
  · exact held
  · split
    · exact Follows.bind (abort_follows held (.inr rfl) _)
    · exact held

theorem execute_follows : Follows Advances (Served (Streams frame)) .idle
    (execute options frame context) := by
  unfold execute
  split
  · exact complete_follows
  · split
    · unfold status
      split
      · exact .inl rfl
      · exact .inl rfl
      · refine Follows.ask (fun _ => .apart trivial rfl) fun answer => ?_
        cases answer with
        | error e => exact .inl rfl
        | ok found =>
          dsimp only
          split <;> exact .inl rfl
    · split
      · unfold release
        split
        · exact .inl rfl
        · exact .inl rfl
        · refine Follows.ask (fun _ => .apart trivial rfl) fun answer => ?_
          cases answer with
          | error e => exact .inl rfl
          | ok receipt =>
            dsimp only
            split <;> exact .inl rfl
      · exact provided_follows

theorem serve_follows : Follows Advances (fun phase _ => (Call.execute frame context).Ended phase) .idle
    (serve options frame context) := by
  refine Follows.bind (Follows.mono (fun after outcome serves => ?_) execute_follows)
  dsimp only
  split
  · obtain ⟨streams, held⟩ : Streams frame ∧ _ := serves
    refine Follows.bind (Follows.mono (fun last _ held => ?_) (coordinateStream_follows _ held))
    rcases held with guarded | passed
    · exact .inr ⟨_, .inr ⟨streams, guarded⟩⟩
    · exact .inr ⟨_, .inl passed⟩
  · rename_i other
    have none_ : leftTo outcome = none := by
      unfold leftTo
      split
      · exact (other _ _ _ _ _ _ _ _ rfl).elim
      · rfl
    unfold Served at serves
    rw [none_] at serves
    rcases serves with idle | ⟨id, passed⟩
    · exact .inl idle
    · exact .inr ⟨id, .inl passed⟩

variable [Sha256] [Rfc3339] {store : StoreOptions}

theorem call_follows (call : Call) : Follows Advances (fun phase _ => call.Ended phase) call.start
    ((server options store).program call) := by
  cases call with
  | execute frame context => exact Follows.bind serve_follows
  | cancel token => exact Follows.bind (cancel_follows token)
  | sweepExpired => exact fun answer => ⟨_, .apart trivial rfl, rfl⟩

end Reading
end Completions

end Nps.Nwp.LlmActionServer
