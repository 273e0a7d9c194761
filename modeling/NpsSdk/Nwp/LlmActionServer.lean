import NpsSdk.Nwp.ActionServer
import NpsSdk.Nwp.ContextRuns

/-! The coordinator of stateful LLM completions: a context is reserved, the provider is asked, and
the reservation is committed or aborted through a guard that it shares with whoever cancels. -/
namespace Nps.Nwp.LlmActionServer
open Interaction Prog
open Outcome (ensure)
open Json (Value)
open Nip (Sha256)
open ActionServer (ActionError ActionContext ActionExecutionResult ActionStream ParsedActionFrame asBool)
open LlmContext (Binding Message MutationRequest Operation Owner Receipt Reservation Rfc3339 Snapshot
  Status StoreError StoreOptions StoreResult ToolCall ToolDefinition llmComplete llmContextRelease)

def llmContextStatus : String := "llm.context.status"

/-- The codes of each status, the default apart. -/
def npsStatuses : List (String × List String) := [
  ("NPS-AUTH-FORBIDDEN", ["NWP-AUTH-NID-SCOPE-VIOLATION", "NWP-AUTH-NID-CAPABILITY-MISSING",
    "NWP-AUTH-ASSURANCE-TOO-LOW", "NWP-AUTH-REPUTATION-BLOCKED", "NWP-REPUTATION-REJECTED",
    "NWP-REPUTATION-BANNED", "NWP-LLM-CONTEXT-FORBIDDEN", "NWP-HTTP-ORIGIN-FORBIDDEN",
    "NWP-TOPOLOGY-UNAUTHORIZED"]),
  ("NPS-AUTH-UNAUTHENTICATED", ["NWP-AUTH-NID-EXPIRED", "NWP-AUTH-NID-REVOKED",
    "NWP-AUTH-NID-UNTRUSTED-ISSUER"]),
  ("NPS-CLIENT-RATE-LIMITED", ["NWP-REPUTATION-THROTTLED"]),
  ("NPS-CLIENT-BAD-PARAM", ["NWP-QUERY-FILTER-INVALID", "NWP-QUERY-FIELD-UNKNOWN",
    "NWP-QUERY-CURSOR-INVALID", "NWP-QUERY-REGEX-UNSAFE", "NWP-QUERY-AGGREGATE-INVALID",
    "NWP-SUBSCRIBE-LEASE-INVALID", "NWP-DEPTH-EXCEEDED", "NWP-MANIFEST-VERSION-UNSUPPORTED",
    "NWP-HTTP-ACCEPT-UNSATISFIABLE", "NWP-HTTP-REQUEST-ID-MISMATCH",
    "NWP-TOPOLOGY-UNSUPPORTED-SCOPE", "NWP-TOPOLOGY-DEPTH-UNSUPPORTED",
    "NWP-TOPOLOGY-FILTER-UNSUPPORTED"]),
  ("NPS-SERVER-UNSUPPORTED", ["NWP-QUERY-VECTOR-UNSUPPORTED", "NWP-QUERY-AGGREGATE-UNSUPPORTED",
    "NWP-QUERY-STREAM-UNSUPPORTED", "NWP-LLM-CONTEXT-OPERATION-UNSUPPORTED",
    "NWP-SUBSCRIBE-FILTER-UNSUPPORTED", "NWP-RESERVED-TYPE-UNSUPPORTED",
    "NWP-CAPABILITY-ADVERTISED-UNIMPLEMENTED", "NWP-BRIDGE-DIRECTION-UNSUPPORTED",
    "NWP-BRIDGE-PROTOCOL-UNSUPPORTED"]),
  ("NPS-CLIENT-NOT-FOUND", ["NWP-ACTION-NOT-FOUND", "NWP-LLM-CONTEXT-NOT-FOUND",
    "NWP-TASK-NOT-FOUND", "NWP-SUBSCRIBE-STREAM-NOT-FOUND", "NWP-BRIDGE-SERVER-TOOL-NOT-FOUND"]),
  ("NPS-CLIENT-UNPROCESSABLE", ["NWP-ACTION-PARAMS-INVALID", "NWP-GRAPH-CYCLE",
    "NWP-BRIDGE-TARGET-INVALID", "NWP-BRIDGE-ENDPOINT-INVALID"]),
  ("NPS-CLIENT-CONFLICT", ["NWP-ACTION-IDEMPOTENCY-CONFLICT", "NWP-LLM-CONTEXT-VERSION-CONFLICT",
    "NWP-LLM-CONTEXT-BINDING-MISMATCH", "NWP-TASK-ALREADY-CANCELLED", "NWP-TASK-ALREADY-COMPLETED",
    "NWP-TASK-ALREADY-FAILED", "NWP-SUBSCRIBE-SEQ-TOO-OLD", "NWP-ANCHOR-NOT-LEADER",
    "NWP-ANCHOR-EPOCH-FENCED"]),
  ("NPS-CLIENT-GONE", ["NWP-LLM-CONTEXT-EXPIRED", "NWP-SUBSCRIBE-LEASE-EXPIRED"]),
  ("NPS-LIMIT-RESOURCE", ["NWP-LLM-CONTEXT-LIMIT-EXCEEDED"]),
  ("NPS-LIMIT-EXCEEDED", ["NWP-SUBSCRIBE-LIMIT-EXCEEDED"]),
  ("NPS-SERVER-UNAVAILABLE", ["NWP-SUBSCRIBE-INTERRUPTED", "NWP-NODE-UNAVAILABLE"]),
  ("NPS-LIMIT-BUDGET", ["NWP-BUDGET-EXCEEDED"]),
  ("NPS-CLIENT-REQUEST-TOO-LARGE", ["NWP-CGN-LIMIT-EXCEEDED"]),
  ("NPS-CLIENT-BAD-FRAME", ["NWP-MANIFEST-NODE-TYPE-REMOVED", "NWP-MANIFEST-NODE-TYPE-UNKNOWN",
    "NWP-HTTP-CONTENT-TYPE-UNSUPPORTED", "NWP-HTTP-FRAME-BODY-MALFORMED"]),
  ("NPS-LIMIT-RATE", ["NWP-RATE-LIMIT-EXCEEDED"]),
  ("NPS-LIMIT-PAYLOAD", ["NWP-HTTP-BODY-TOO-LARGE"]),
  ("NPS-DOWNSTREAM-UNAVAILABLE", ["NWP-BRIDGE-UPSTREAM-FAILED"])]

def toNpsStatus (code : String) : String :=
  ((npsStatuses.find? fun entry => code ∈ entry.2).map Prod.fst).getD "NPS-SERVER-INTERNAL"

/-- The HTTP statuses of those that a code is mapped to. -/
def toHttpStatus : String → Option Nat
  | "NPS-CLIENT-BAD-FRAME" | "NPS-CLIENT-BAD-PARAM" => some 400
  | "NPS-AUTH-UNAUTHENTICATED" => some 401
  | "NPS-AUTH-FORBIDDEN" => some 403
  | "NPS-CLIENT-NOT-FOUND" => some 404
  | "NPS-CLIENT-CONFLICT" => some 409
  | "NPS-CLIENT-GONE" => some 410
  | "NPS-CLIENT-REQUEST-TOO-LARGE" | "NPS-LIMIT-PAYLOAD" => some 413
  | "NPS-CLIENT-UNPROCESSABLE" => some 422
  | "NPS-CLIENT-RATE-LIMITED" | "NPS-LIMIT-RATE" | "NPS-LIMIT-BUDGET" | "NPS-LIMIT-RESOURCE"
  | "NPS-LIMIT-EXCEEDED" => some 429
  | "NPS-SERVER-INTERNAL" => some 500
  | "NPS-SERVER-UNSUPPORTED" => some 501
  | "NPS-DOWNSTREAM-UNAVAILABLE" => some 502
  | "NPS-SERVER-UNAVAILABLE" => some 503
  | _ => none

def nodeUnavailable : String := "NWP-NODE-UNAVAILABLE"

def paramsError (message : String) : ActionError :=
  ⟨422, "NPS-CLIENT-UNPROCESSABLE", "NWP-ACTION-PARAMS-INVALID", message⟩

def contextForbidden : ActionError :=
  ⟨403, "NPS-AUTH-FORBIDDEN", "NWP-LLM-CONTEXT-FORBIDDEN",
    "stateful LLM context authorization is not configured"⟩

def storeError (error : StoreError) : ActionError :=
  let npsStatus := toNpsStatus error.errorCode
  ⟨(toHttpStatus npsStatus).getD 500, npsStatus, error.errorCode, error.message⟩

inductive LlmStopReason where
  | endTurn
  | toolUse
  | toolCalls
  | maxTokens
  | length
  | error
deriving DecidableEq

structure LlmContextRequestDto where
  operation : Operation
  contextId : Option String := none
  baseVersion : Option Nat := none
  ttlSeconds : Option Nat := none

structure LlmCompleteActionRequest where
  kind : String := llmComplete
  model : String
  stream : Bool := false
  messages : List Message
  tools : Option (List ToolDefinition) := none
  context : Option LlmContextRequestDto := none

structure LlmUsageDto where
  inputTokens : Option Nat := none
  outputTokens : Option Nat := none
  cacheHit : Option Bool := none
  reusedTokens : Option Nat := none
  evaluatedTokens : Option Nat := none
  wireInputBytes : Option Nat := none

structure LlmCompleteActionResponse where
  stopReason : LlmStopReason
  content : Option String := none
  toolCalls : Option (List ToolCall) := none
  error : Option String := none
  usage : Option LlmUsageDto := none
  context : Option Receipt := none

structure LlmCompleteStreamChunkDto where
  contentDelta : Option String := none
  toolCalls : Option (List ToolCall) := none
  stopReason : Option LlmStopReason := none
  error : Option String := none
  usage : Option LlmUsageDto := none
  context : Option Receipt := none

structure LlmContextStatusRequestDto where
  contextId : Option String := none
  idempotencyKey : Option String := none

structure LlmContextReleaseRequestDto where
  contextId : String
  baseVersion : Nat

/-- The readers and writers that are derived for the types above, with the texts of their errors. -/
class Serde where
  readRequest : Value → Except String LlmCompleteActionRequest
  readResponse : Value → Except String LlmCompleteActionResponse
  readChunk : Value → Except String LlmCompleteStreamChunkDto
  readStatus : Value → Except String LlmContextStatusRequestDto
  readRelease : Value → Except String LlmContextReleaseRequestDto
  writeResponse : LlmCompleteActionResponse → Except String Value
  writeChunk : LlmCompleteStreamChunkDto → Except String Value
  writeStatus : Status → Except String Value
  writeReceipt : Receipt → Except String Value

inductive LlmAuthorizationStage where
  | admission
  | commit
deriving DecidableEq

structure StatefulLlmActionOptions where
  securityScope : String
  runtimeRevision : String
  supportsTools : Bool := false
  supportsStream : Bool := false
  /-- There is a check of capabilities. -/
  authorizer : Bool := false

inductive GuardState where
  | active
  | committing
  | aborted
  | committed
deriving DecidableEq

/-- Guards of one reservation share one state. -/
structure ReservationGuard where
  reservation : Reservation

def ReservationGuard.id (guard : ReservationGuard) : String := guard.reservation.reservationId

inductive Op where
  /-- The provider that is wrapped. -/
  | execute (frame : ParsedActionFrame) (context : ActionContext)
  | authorizer (owner : Owner) (action : String) (stage : LlmAuthorizationStage)
      (requiredCapabilities : List String) (context : ActionContext)
  /-- What the host says to a frame of a stream. -/
  | emit (frame : ActionStreamFrame)
  | isCancelled (token : Nat)
  | swapCancelled (token : Nat)
  /-- Under the lock of the listeners; it is added unless the token is cancelled by then. -/
  | addListener (token : Nat) (listener : ReservationGuard)
  | takeListeners (token : Nat)
  | newGuard (reservation : Reservation)
  | compareExchange (guard : ReservationGuard) (current new : GuardState)
  | storeState (guard : ReservationGuard) (new : GuardState)
  | reserve (request : MutationRequest)
  | commit (reservation : Reservation) (assistant : Message)
  | abort (reservation : Reservation) (errorCode : Option String)
  | snapshot (owner : Owner) (contextId : String)
  | status (owner : Owner) (contextId idempotencyKey : Option String)
  | release (owner : Owner) (contextId : String) (baseVersion : Nat) (idempotencyKey : String)
  | sweepExpired

abbrev Answer : Op → Type
  | .execute _ _ => Except ActionError ActionExecutionResult
  | .authorizer _ _ _ _ _ => Except ActionError Unit
  | .emit _ => Except ActionError Unit
  | .isCancelled _ => Bool
  | .swapCancelled _ => Bool
  | .addListener _ _ => Bool
  | .takeListeners _ => List ReservationGuard
  | .newGuard _ => Unit
  | .compareExchange _ _ _ => Bool
  | .storeState _ _ => Unit
  | .reserve _ => StoreResult Reservation
  | .commit _ _ => StoreResult Receipt
  | .abort _ _ => StoreResult Unit
  | .snapshot _ _ => StoreResult Snapshot
  | .status _ _ _ => StoreResult Status
  | .release _ _ _ _ => StoreResult Receipt
  | .sweepExpired => StoreResult Nat

abbrev Program (α : Type) := Prog Answer α

abbrev ask (op : Op) : Program (Answer op) := Prog.perform op

/-- What the requests share: the store, the states of the guards by their reservations, and the
tokens of cancellation. -/
structure World where
  contexts : LlmContext.World
  guards : Assoc String GuardState := ∅
  cancelled : List Nat := []
  listeners : Nat → List ReservationGuard := fun _ => []

section Exec
variable [Sha256] [Rfc3339] (store : StoreOptions)

def Calls (call : LlmContext.Call) (answer : LlmContext.Answer) (s t : World) : Prop :=
  ∃ now after, LlmContext.Step store s.contexts ⟨now, call, answer⟩ after ∧
    t = { s with contexts := after }

/-- What an operation answers and leaves. Providers, checks and hosts answer as they like, and ids
come from anywhere. -/
def exec : (op : Op) → World → Answer op → World → Prop
  | .execute _ _, s, _, t => t = s
  | .authorizer _ _ _ _ _, s, _, t => t = s
  | .emit _, s, _, t => t = s
  | .isCancelled token, s, answer, t => answer = decide (token ∈ s.cancelled) ∧ t = s
  | .swapCancelled token, s, answer, t =>
    answer = decide (token ∈ s.cancelled) ∧ t = { s with cancelled := token :: s.cancelled }
  | .addListener token listener, s, answer, t =>
    answer = decide (token ∉ s.cancelled) ∧
      t = if answer then { s with
            listeners := Function.update s.listeners token (s.listeners token ++ [listener]) }
          else s
  | .takeListeners token, s, answer, t =>
    answer = s.listeners token ∧ t = { s with listeners := Function.update s.listeners token [] }
  | .newGuard reservation, s, _, t =>
    t = { s with guards := s.guards.insert reservation.reservationId .active }
  | .compareExchange guard current new, s, answer, t =>
    answer = decide (s.guards.lookup guard.id = some current) ∧
      t = if answer then { s with guards := s.guards.insert guard.id new } else s
  | .storeState guard new, s, _, t => t = { s with guards := s.guards.insert guard.id new }
  | .reserve request, s, answer, t =>
    ∃ newReservationId, Calls store (.reserve request newReservationId) (.reserved answer) s t
  | .commit reservation assistant, s, answer, t =>
    ∃ factory, Calls store (.commit reservation assistant factory) (.committed answer) s t
  | .abort reservation errorCode, s, answer, t =>
    Calls store (.abort reservation errorCode) (.aborted answer) s t
  | .snapshot owner contextId, s, answer, t =>
    Calls store (.snapshot owner contextId) (.snapshot answer) s t
  | .status owner contextId idempotencyKey, s, answer, t =>
    Calls store (.status owner contextId idempotencyKey) (.status answer) s t
  | .release owner contextId baseVersion idempotencyKey, s, answer, t =>
    Calls store (.release owner contextId baseVersion idempotencyKey) (.released answer) s t
  | .sweepExpired, s, answer, t => Calls store .sweepExpired (.swept answer) s t

end Exec

namespace ReservationGuard
variable (guard : ReservationGuard)

/-- Whoever gets here first aborts the mutation; what the store says is not looked at. -/
def abort (errorCode : String) : Program Unit := do
  if ← ask (.compareExchange guard .active .aborted) then
    let _ ← ask (.abort guard.reservation (some errorCode))

def commit (assistant : Message) : Program (Except ActionError Receipt) := do
  if ← ask (.compareExchange guard .active .committing) then
    match ← ask (.commit guard.reservation assistant) with
    | .ok receipt =>
      ask (.storeState guard .committed)
      return .ok receipt
    | .error error =>
      let _ ← ask (.abort guard.reservation (some error.errorCode))
      ask (.storeState guard .aborted)
      return .error (storeError error)
  else return .error (.internal "LLM context reservation is no longer active")

def cancelled : Program Unit := guard.abort nodeUnavailable

end ReservationGuard

/-- A listener that comes too late is run at once. -/
def onCancel (token : Nat) (listener : ReservationGuard) : Program Unit := do
  if ← ask (.isCancelled token) then listener.cancelled
  else if ← ask (.addListener token listener) then return ()
  else listener.cancelled

def runListeners : List ReservationGuard → Program Unit
  | [] => return ()
  | listener :: rest => do
    listener.cancelled
    runListeners rest

/-- Only the first to cancel a token runs its listeners. -/
def cancel (token : Nat) : Program Unit := do
  if ← ask (.swapCancelled token) then return ()
  else
    let listeners ← ask (.takeListeners token)
    runListeners listeners

/-- A stream as it goes to the host: the provider's own, or one with what its coordinator keeps. -/
inductive ServedStream where
  | provided (stream : ActionStream)
  | coordinated (source : ActionStream) (guard : ReservationGuard) (owner : Owner)
      (requestFrame : ParsedActionFrame) (actionContext : ActionContext)

structure ServedResult where
  result : Option Value := none
  stream : Option ServedStream := none
  anchorRef : Option String := none
  tokenEst : Nat := 0

def served (result : ActionExecutionResult) : ServedResult where
  result := result.result
  stream := result.stream.map .provided
  anchorRef := result.anchorRef
  tokenEst := result.tokenEst

/-- The outcome of a request, with any stream still to be written. -/
abbrev Outcome := Except ActionError ServedResult

def decodeParams {α : Type} (read : Value → Except String α) (frame : ParsedActionFrame)
    (action : String) : Except ActionError α :=
  match frame.params with
  | none => .error (paramsError s!"{action} requires params")
  | some value => (read value).mapError fun error => paramsError s!"invalid {action} params: {error}"

def requiredCapabilities (frame : ParsedActionFrame) : List String :=
  if frame.actionId = llmContextStatus ∨ frame.actionId = llmContextRelease then ["llm:context"]
  else
    let params := (frame.params.bind Value.asObject).getD []
    let stream := (Json.get "stream" params).bind asBool = some true
    let tools := ((Json.get "tools" params).bind Value.asArray).any fun tools => !tools.isEmpty
    ["llm:complete", "llm:context"] ++ (if stream then ["llm:stream"] else []) ++
      if tools then ["llm:tool_call"] else []

section Provider
variable (options : StatefulLlmActionOptions) (frame : ParsedActionFrame) (context : ActionContext)

def ownerOf : Except ActionError Owner :=
  match context.agentNid.filter fun value => Text.trim value ≠ "" with
  | none => .error ⟨401, "NPS-AUTH-UNAUTHENTICATED", "NWP-AUTH-NID-SCOPE-VIOLATION",
      "stateful LLM context actions require an authenticated agent NID"⟩
  | some nid => .ok ⟨nid, options.securityScope⟩

def checkAuthorization (owner : Owner) (action : String) (stage : LlmAuthorizationStage) :
    Program (Except ActionError Unit) :=
  if options.authorizer then ask (.authorizer owner action stage (requiredCapabilities frame) context)
  else return .error contextForbidden

def checkComplete (request : LlmCompleteActionRequest) : Except ActionError Unit := do
  ensure (request.kind = llmComplete) (paramsError "params.kind must be 'llm.complete'")
  ensure (Text.trim request.model ≠ "") (paramsError "llm.complete requires a non-empty model")
  ensure (options.supportsTools ∨ (request.tools.getD []).isEmpty)
    (paramsError "this node does not advertise LLM tool-definition support")
  ensure (¬ (request.stream ∧ !options.supportsStream))
    (paramsError "this node does not advertise LLM streaming support")
  ensure (¬ (request.stream ∧ frame.async_))
    (paramsError "stream=true cannot be combined with async=true")

def checkLocator (request : LlmContextRequestDto) : Except ActionError Unit :=
  ensure (¬ (request.operation ∈ [.append, .fork, .reset] ∧
      (request.contextId = none ∨ request.baseVersion = none)))
    (paramsError "append/fork/reset require context_id and base_version")

/-- What is appended to or forked keeps its system messages, and its tools unless others come. -/
def resolveBinding (owner : Owner) (request : LlmCompleteActionRequest)
    (contextRequest : LlmContextRequestDto) : Program (Except ActionError Binding) :=
  if contextRequest.operation = .append ∨ contextRequest.operation = .fork then
    match contextRequest.contextId with
    | none => return .error (paramsError "append/fork require context_id and base_version")
    | some contextId => do
      match ← ask (.snapshot owner contextId) with
      | .error error => return .error (storeError error)
      | .ok snapshot => return .ok {
          model := request.model
          systemMessages := snapshot.binding.systemMessages
          tools := request.tools.getD snapshot.binding.tools
          runtimeRevision := options.runtimeRevision }
  else return .ok {
    model := request.model
    systemMessages := request.messages.filter fun message => Text.lowerAscii message.role = "system"
    tools := request.tools.getD []
    runtimeRevision := options.runtimeRevision }

section Unary
variable (owner : Owner) (guard : ReservationGuard) (result : ActionExecutionResult)

def failReserved (message : String) : Program Outcome := do
  guard.abort nodeUnavailable
  return .error (.internal message)

def unaryResult [Serde] (failure : String) (response : LlmCompleteActionResponse) : Outcome :=
  match Serde.writeResponse response with
  | .error error => .error (.internal s!"{failure}: {error}")
  | .ok value => .ok {
      result := some value
      anchorRef := result.anchorRef <|> some "nps:system:llm.complete:response"
      tokenEst := result.tokenEst }

/-- A response that was read: a failed one aborts the mutation, any other commits it. -/
def concludeUnary [Serde] (response : LlmCompleteActionResponse) : Program Outcome := do
  if response.stopReason = .error then
    guard.abort nodeUnavailable
    return unaryResult result "serialize failed stateful completion response"
      { response with context := none }
  else match ← checkAuthorization options frame context owner llmComplete .commit with
  | .error error =>
    guard.abort error.errorCode
    return .error error
  | .ok () =>
    if ← ask (.isCancelled context.cancellation) then
      failReserved guard "stateful llm.complete was cancelled"
    else
      let assistant : Message :=
        { role := "assistant", content := response.content, toolCalls := response.toolCalls }
      match ← guard.commit assistant with
      | .error error => return .error error
      | .ok receipt =>
        return unaryResult result "serialize stateful completion response"
          { response with context := some receipt }

end Unary

def executeReserved [Serde] (owner : Owner) (guard : ReservationGuard) (streaming : Bool) :
    Program Outcome := do
  match ← ask (.execute frame context) with
  | .error error =>
    guard.abort error.errorCode
    return .error error
  | .ok result =>
    if ← ask (.isCancelled context.cancellation) then
      failReserved guard "stateful llm.complete was cancelled"
    else if streaming then
      match result.stream with
      | none => failReserved guard "stateful streaming llm.complete returned no StreamFrame sequence"
      | some source =>
        return .ok {
          stream := some (.coordinated source guard owner frame context)
          anchorRef := result.anchorRef <|> some "nps:system:llm.complete:stream"
          tokenEst := result.tokenEst }
    else if result.stream.isSome then
      failReserved guard "stateful unary llm.complete returned a StreamFrame sequence"
    else match result.result with
    | none => failReserved guard "stateful llm.complete returned no result payload"
    | some payload =>
      match Serde.readResponse payload with
      | .error error =>
        failReserved guard s!"stateful llm.complete returned an invalid official response: {error}"
      | .ok response => concludeUnary options frame context owner guard result response

/-- A context is reserved before the provider is asked. -/
def completeReserved [Serde] (owner : Owner) (request : LlmCompleteActionRequest)
    (contextRequest : LlmContextRequestDto) (binding : Binding) : Program Outcome := do
  let mutation : MutationRequest := {
    operation := contextRequest.operation
    owner
    contextId := contextRequest.contextId
    baseVersion := contextRequest.baseVersion
    binding
    messages := request.messages
    ttlSeconds := contextRequest.ttlSeconds
    idempotencyKey := frame.idempotencyKey.getD ""
    requestId := frame.requestId.getD "" }
  match ← ask (.reserve mutation) with
  | .error error => return .error (storeError error)
  | .ok reservation =>
    ask (.newGuard reservation)
    let guard : ReservationGuard := ⟨reservation⟩
    onCancel context.cancellation guard
    executeReserved options frame context owner guard request.stream

def complete [Serde] : Program Outcome :=
  match decodeParams Serde.readRequest frame llmComplete with
  | .error error => return .error error
  | .ok request =>
    match checkComplete options frame request, request.context with
    | .error error, _ => return .error error
    | .ok (), none => do return (← ask (.execute frame context)).map served
    | .ok (), some contextRequest =>
      match checkLocator contextRequest, ownerOf options context with
      | .error error, _ | .ok (), .error error => return .error error
      | .ok (), .ok owner => do
        match ← resolveBinding options owner request contextRequest with
        | .error error => return .error error
        | .ok binding => completeReserved options frame context owner request contextRequest binding

/-- What the coordinator of a stream keeps from one frame to the next. -/
structure StreamState where
  content : String := ""
  toolCalls : List ToolCall := []
  resolved : Bool := false
  terminalSeen : Bool := false

/-- Only the last frame of a stream may have these. -/
def LlmCompleteStreamChunkDto.terminal (chunk : LlmCompleteStreamChunkDto) : Bool :=
  chunk.stopReason.isSome || chunk.error.isSome || chunk.usage.isSome || chunk.context.isSome

section Streams
variable [Serde] (guard : ReservationGuard) (owner : Owner) (requestFrame : ParsedActionFrame)
  (actionContext : ActionContext)

def readChunks (data : List Value) : Except ActionError (List LlmCompleteStreamChunkDto) :=
  (data.mapM Serde.readChunk).mapError fun error =>
    .internal s!"stateful llm.complete returned an invalid stream payload: {error}"

def writeChunks (failure : String) (chunks : List LlmCompleteStreamChunkDto) :
    Except ActionError (List Value) :=
  (chunks.mapM Serde.writeChunk).mapError fun error => .internal s!"{failure}: {error}"

/-- The last frame, when all went well: the mutation is committed, and its receipt goes with the
last chunk that has a reason to stop. -/
def commitStream (frame : ActionStreamFrame) (chunks : List LlmCompleteStreamChunkDto)
    (state : StreamState) : Program (Except ActionError Unit × StreamState) := do
  match chunks.reverse.findIdx? fun chunk => chunk.stopReason.isSome with
  | none =>
    return (.error (.internal "successful LLM stream terminal frame requires stop_reason"), state)
  | some fromEnd =>
    match ← checkAuthorization options requestFrame actionContext owner requestFrame.actionId .commit with
    | .error error => return (.error error, state)
    | .ok () =>
      if ← ask (.isCancelled actionContext.cancellation) then
        return (.error (.internal "action stream was cancelled"), state)
      else
        let assistant : Message :=
          { role := "assistant"
            content := if state.content = "" then none else some state.content
            toolCalls := if state.toolCalls = [] then none else some state.toolCalls }
        match ← guard.commit assistant with
        | .error error => return (.error error, state)
        | .ok receipt =>
          let chunks := chunks.modify (chunks.length - 1 - fromEnd) fun chunk =>
            { chunk with context := some receipt }
          match writeChunks "serialize terminal stateful LLM stream chunk" chunks with
          | .error error => return (.error error, state)
          | .ok data =>
            let answer ← ask (.emit { frame with data })
            return (answer, { state with resolved := true })

def concludeStream (frame : ActionStreamFrame) (chunks : List LlmCompleteStreamChunkDto)
    (state : StreamState) : Program (Except ActionError Unit × StreamState) := do
  let state := { state with terminalSeen := true }
  if frame.errorCode.isSome ∨
      chunks.any fun chunk => chunk.error.isSome || chunk.stopReason = some .error then
    let code := frame.errorCode.getD nodeUnavailable
    guard.abort code
    let answer ← ask (.emit { frame with errorCode := some code })
    return (answer, { state with resolved := true })
  else commitStream options guard owner requestFrame actionContext frame chunks state

def coordinateFrame (frame : ActionStreamFrame) (state : StreamState) :
    Program (Except ActionError Unit × StreamState) := do
  if ← ask (.isCancelled actionContext.cancellation) then
    return (.error (.internal "action stream was cancelled"), state)
  else if state.terminalSeen then
    return (.error (.internal "LLM stream emitted frames after terminal"), state)
  else match readChunks frame.data with
  | .error error => return (.error error, state)
  | .ok chunks =>
    if !frame.isLast ∧ chunks.any LlmCompleteStreamChunkDto.terminal then
      return (.error (.internal
        "LLM stream stop_reason, error, usage, and context are terminal-only fields"), state)
    else
      let state := { state with
        content := state.content ++ String.join (chunks.filterMap (·.contentDelta))
        toolCalls := state.toolCalls ++ (chunks.filterMap (·.toolCalls)).flatten }
      let chunks := chunks.map fun chunk => { chunk with context := none }
      match writeChunks "serialize stateful LLM stream chunk" chunks with
      | .error error => return (.error error, state)
      | .ok data =>
        let frame := { frame with data }
        if frame.isLast then
          concludeStream options guard owner requestFrame actionContext frame chunks state
        else return (← ask (.emit frame), state)

def runSource : ActionStream → StreamState → Program (Except ActionError Unit × StreamState)
  | .finished result, state => return (result, state)
  | .emits frame next, state => do
    let (answer, state) ← coordinateFrame options guard owner requestFrame actionContext frame state
    runSource (next answer) state

def coordinateStream (source : ActionStream) : Program (Except ActionError Unit) := do
  let (written, state) ← runSource options guard owner requestFrame actionContext source {}
  let outcome : Except ActionError Unit := do
    written
    ensure state.terminalSeen (.internal "stateful llm.complete stream ended without a terminal frame")
  match outcome with
  | .ok () => return .ok ()
  | .error error =>
    if !state.resolved then guard.abort nodeUnavailable
    return .error error

end Streams

def status [Serde] : Program Outcome :=
  match decodeParams Serde.readStatus frame llmContextStatus, ownerOf options context with
  | .error error, _ | .ok _, .error error => return .error error
  | .ok request, .ok owner => do
    match ← ask (.status owner request.contextId request.idempotencyKey) with
    | .error error => return .error (storeError error)
    | .ok status =>
      match Serde.writeStatus status with
      | .error error => return .error (.internal s!"serialize context status: {error}")
      | .ok value => return .ok {
          result := some value
          anchorRef := some "nps:system:llm.context.status:response" }

def release [Serde] : Program Outcome :=
  match decodeParams Serde.readRelease frame llmContextRelease, ownerOf options context with
  | .error error, _ | .ok _, .error error => return .error error
  | .ok request, .ok owner => do
    match ← ask (.release owner request.contextId request.baseVersion
        (frame.idempotencyKey.getD "")) with
    | .error error => return .error (storeError error)
    | .ok receipt =>
      match Serde.writeReceipt receipt with
      | .error error => return .error (.internal s!"serialize context release: {error}")
      | .ok value => return .ok {
          result := some value
          anchorRef := some "nps:system:llm.context.release:response" }

def execute [Serde] : Program Outcome :=
  if frame.actionId = llmComplete then complete options frame context
  else if frame.actionId = llmContextStatus then status options frame context
  else if frame.actionId = llmContextRelease then release options frame context
  else do return (← ask (.execute frame context)).map served

def serve [Serde] : Program Outcome := do
  let outcome ← execute options frame context
  if let .ok { stream := some (.coordinated source guard owner requestFrame actionContext), .. } := outcome then
    let _ ← coordinateStream options guard owner requestFrame actionContext source
  return outcome

end Provider

/-- Requests are executed; clients, deadlines and providers cancel. -/
inductive Call where
  | execute (frame : ParsedActionFrame) (context : ActionContext)
  | cancel (token : Nat)
  | sweepExpired

/-- A server with its store under any number of requests; only these have an outcome. -/
def server [Sha256] [Rfc3339] [Serde] (options : StatefulLlmActionOptions) (store : StoreOptions) :
    System Answer World Call (Option Outcome) where
  program
    | .execute frame context => some <$> serve options frame context
    | .cancel token => (fun _ => none) <$> cancel token
    | .sweepExpired => (fun _ => none) <$> ask .sweepExpired
  exec := exec store

end Nps.Nwp.LlmActionServer
