import NpsSdk.Lib.Assoc
import NpsSdk.Lib.Outcome
import NpsSdk.Lib.Text
import NpsSdk.Nip.Platform

/-! The in-process store of stateful LLM contexts: mutations are reserved first and then
committed or aborted, all under one lock. -/
namespace Nps.Nwp.LlmContext
open Json (Value)
open Nip (Instant Duration Sha256)
open Outcome
open Wire (Bytes)

/-- RFC 3339 texts exist for the years of four digits only. -/
class Rfc3339 where
  format : Instant → Option String

structure ToolCall where
  callId : String
  toolName : String
  argumentsJson : String
deriving DecidableEq

structure Message where
  role : String
  content : Option String := none
  toolCallId : Option String := none
  toolName : Option String := none
  toolCalls : Option (List ToolCall) := none
deriving DecidableEq

structure ToolParameter where
  name : String
  kind : String
  description : Option String
  required : Bool
deriving DecidableEq

structure ToolDefinition where
  name : String
  description : Option String
  parameters : Option (List ToolParameter)
deriving DecidableEq

structure Binding where
  model : String
  systemMessages : List Message
  tools : List ToolDefinition
  runtimeRevision : String
deriving DecidableEq

def optionalField (key : String) (field : Option Value) : List (String × Value) :=
  (field.map fun value => (key, value)).toList

def ToolCall.json (call : ToolCall) : Value :=
  .object [("call_id", .string call.callId), ("tool_name", .string call.toolName),
    ("arguments_json", .string call.argumentsJson)]

def Message.json (message : Message) : Value :=
  .object <| ("role", .string message.role) ::
    optionalField "content" (message.content.map .string) ++
    optionalField "tool_call_id" (message.toolCallId.map .string) ++
    optionalField "tool_name" (message.toolName.map .string) ++
    optionalField "tool_calls" (message.toolCalls.map fun calls => .array (calls.map ToolCall.json))

def ToolParameter.json (parameter : ToolParameter) : Value :=
  .object <| [("name", .string parameter.name), ("type", .string parameter.kind)] ++
    optionalField "description" (parameter.description.map .string) ++
    [("required", .bool parameter.required)]

def ToolDefinition.json (tool : ToolDefinition) : Value :=
  .object <| ("name", .string tool.name) ::
    optionalField "description" (tool.description.map .string) ++
    optionalField "parameters" (tool.parameters.map fun parameters =>
      .array (parameters.map ToolParameter.json))

def Binding.json (binding : Binding) : Value :=
  .object [("model", .string binding.model),
    ("system_messages", .array (binding.systemMessages.map Message.json)),
    ("tools", .array (binding.tools.map ToolDefinition.json)),
    ("runtime_revision", .string binding.runtimeRevision)]

def hexEncode (bytes : Bytes) : String :=
  String.ofList (bytes.flatMap fun byte =>
    [Nat.digitChar (byte.toNat / 16), Nat.digitChar (byte.toNat % 16)])

def bindingFingerprint [Sha256] (binding : Binding) : String :=
  hexEncode (Sha256.digest (Text.utf8 binding.json.text))

inductive Operation where
  | create
  | append
  | fork
  | reset
  | release
deriving DecidableEq

inductive ContextState where
  | busy
  | active
  | released
  | expired
  | failed
deriving DecidableEq

structure Owner where
  nid : String
  securityScope : String
deriving DecidableEq

structure MutationRequest where
  operation : Operation
  owner : Owner
  contextId : Option String
  baseVersion : Option Nat
  binding : Binding
  messages : List Message
  ttlSeconds : Option Nat
  idempotencyKey : String
  requestId : String

structure Reservation where
  reservationId : String
  operation : Operation
  requestId : String
deriving DecidableEq

structure Receipt where
  contextId : String
  version : Nat
  operation : Operation
  state : ContextState
  expiresAt : Option String
  parentContextId : Option String
  parentVersion : Option Nat
deriving DecidableEq

structure Status where
  state : ContextState
  contextId : Option String
  version : Option Nat
  expiresAt : Option String
  requestId : Option String
  errorCode : Option String
deriving DecidableEq

structure Snapshot where
  contextId : String
  version : Nat
  state : ContextState
  transcript : List Message
  binding : Binding
  expiresAt : Option Instant

structure StoreError where
  errorCode : String
  message : String
  currentVersion : Option Nat := none
deriving DecidableEq

abbrev StoreResult := Except StoreError

def paramsInvalid (message : String) : StoreError := ⟨"NWP-ACTION-PARAMS-INVALID", message, none⟩

def internalError (message : String) : StoreError := ⟨"NPS-SERVER-INTERNAL", message, none⟩

def notFound : StoreError :=
  ⟨"NWP-LLM-CONTEXT-NOT-FOUND", "context or retained outcome not found", none⟩

def idempotencyConflict (message : String) : StoreError :=
  ⟨"NWP-ACTION-IDEMPOTENCY-CONFLICT", message, none⟩

def versionConflict (current : Nat) : StoreError :=
  ⟨"NWP-LLM-CONTEXT-VERSION-CONFLICT", "the context version is stale or a mutation is running",
    some current⟩

def bindingMismatch (message : String) : StoreError :=
  ⟨"NWP-LLM-CONTEXT-BINDING-MISMATCH", message, none⟩

structure ContextEntry where
  contextId : String
  owner : Owner
  version : Nat
  state : ContextState
  binding : Binding
  bindingFingerprint : String
  transcript : List Message
  ttlSeconds : Nat
  expiresAt : Option Instant
  tombstoneUntil : Option Instant
  reservationId : Option String

structure ReservationData where
  reservationId : String
  request : MutationRequest
  bindingFingerprint : String
  baseTranscript : List Message
  effectiveTtlSeconds : Option Nat
  parentContextId : Option String
  parentVersion : Option Nat

inductive OutcomeState where
  | busy
  | completed
  | failed
deriving DecidableEq

structure IdempotencyEntry where
  state : OutcomeState
  retainUntil : Instant
  requestId : Option String
  errorCode : Option String := none
  receipt : Option Receipt := none
  contextId : Option String := none
  baseVersion : Option Nat := none

structure IdempotencyKey where
  owner : Owner
  action : String
  key : String
deriving DecidableEq

structure StoreState where
  contexts : Assoc String ContextEntry := ∅
  idempotency : Assoc IdempotencyKey IdempotencyEntry := ∅
  reservations : Assoc String ReservationData := ∅

structure StoreOptions where
  maxContextsPerPrincipal : Nat := 32
  defaultTtlSeconds : Nat := 3600
  maxTtlSeconds : Nat := 3600
  tombstoneSeconds : Nat := 86400
  idempotencyTtl : Duration := Nip.Duration.seconds 86400
  supportedOperations : Option (List Operation) := none

/-- Zeros stand for the defaults, and no list of operations for all of them. -/
def StoreOptions.normalized (options : StoreOptions) : StoreOptions where
  maxContextsPerPrincipal :=
    if options.maxContextsPerPrincipal = 0 then 32 else options.maxContextsPerPrincipal
  defaultTtlSeconds := if options.defaultTtlSeconds = 0 then 3600 else options.defaultTtlSeconds
  maxTtlSeconds := if options.maxTtlSeconds = 0 then 3600 else options.maxTtlSeconds
  tombstoneSeconds := if options.tombstoneSeconds = 0 then 86400 else options.tombstoneSeconds
  idempotencyTtl :=
    if options.idempotencyTtl ≤ 0 then Nip.Duration.seconds 86400 else options.idempotencyTtl
  supportedOperations :=
    some (options.supportedOperations.getD [.create, .append, .fork, .reset, .release])

def llmComplete : String := "llm.complete"
def llmContextRelease : String := "llm.context.release"

def completeKey (request : MutationRequest) : IdempotencyKey :=
  ⟨request.owner, llmComplete, request.idempotencyKey⟩

def nonempty (value : String) : Option String := if value = "" then none else some value

/-- 22 to 128 characters of unpadded base64url. -/
def validateContextId (value : String) : StoreResult Unit :=
  ensure (22 ≤ value.utf8ByteSize ∧ value.utf8ByteSize ≤ 128 ∧
      value.toList.all fun c => c.isAlphanum || c = '_' || c = '-')
    (paramsInvalid "context_id must be a 22-128 character unpadded base64url locator")

/-- Only a create has no context to name, and it must not name one. -/
def validateLocator (request : MutationRequest) : StoreResult Unit :=
  match request.operation with
  | .create =>
    ensure (request.contextId = none ∧ request.baseVersion = none)
      (paramsInvalid "create forbids context_id and base_version")
  | _ =>
    match request.contextId, request.baseVersion with
    | some contextId, some _ => validateContextId contextId
    | _, _ => .error (paramsInvalid "append/fork/reset require context_id and base_version")

def validateRequest (request : MutationRequest) : StoreResult Unit := do
  ensure (request.operation ≠ .release) (paramsInvalid "release uses the lifecycle action")
  ensure (Text.trim request.idempotencyKey ≠ "")
    (paramsInvalid "a stateful request requires idempotency_key")
  ensure (request.ttlSeconds ≠ some 0) (paramsInvalid "ttl_seconds must be greater than zero")
  validateLocator request
  ensure (request.operation = .fork ∨ request.messages ≠ [])
    (paramsInvalid "only fork may carry an empty message delta")
  ensure (¬ ((request.operation = .append ∨ request.operation = .fork) ∧
      request.messages.any fun message => Text.lowerAscii message.role = "system"))
    (bindingMismatch "append/fork deltas must not contain system messages")

def ensureSupported (options : StoreOptions) (operation : Operation) : StoreResult Unit :=
  ensure (operation ∈ options.supportedOperations.getD [])
    ⟨"NWP-LLM-CONTEXT-OPERATION-UNSUPPORTED", "context operation is not advertised", none⟩

namespace StoreState
variable (s : StoreState)

def live (owner : Owner) : Nat :=
  s.contexts.count fun entry => entry.owner = owner ∧ entry.state = .active

def pending (owner : Owner) : Nat :=
  s.reservations.count fun reservation => reservation.request.owner = owner ∧
    (reservation.request.operation = .create ∨ reservation.request.operation = .fork)

def ensureAllocationAvailable (options : StoreOptions) (owner : Owner) : StoreResult Unit :=
  ensure (s.live owner + s.pending owner < options.maxContextsPerPrincipal)
    ⟨"NWP-LLM-CONTEXT-LIMIT-EXCEEDED", "the principal's live context limit has been reached", none⟩

def requireMutable (owner : Owner) (contextId : String) : StoreResult ContextEntry := do
  let entry ← (s.contexts.lookup contextId).elim (.error notFound) .ok
  ensure (entry.owner = owner)
    ⟨"NWP-LLM-CONTEXT-FORBIDDEN", "the caller does not own this context", none⟩
  match entry.state with
  | .expired => .error ⟨"NWP-LLM-CONTEXT-EXPIRED", "the context expired", some entry.version⟩
  | .released => .error notFound
  | _ => .ok entry

def requireReservation (reservation : Reservation) : StoreResult ReservationData := do
  let current ← (s.reservations.lookup reservation.reservationId).elim
    (.error (internalError "context reservation is not active")) .ok
  ensure (current.reservationId = reservation.reservationId)
    (internalError "context reservation identity mismatch")
  return current

end StoreState

def tombstone (options : StoreOptions) (now : Instant) : Option Instant :=
  some (now + Nip.Duration.seconds options.tombstoneSeconds)

/-- The entry's time has come, and no mutation of it is under way. -/
def ContextEntry.lapsed (now : Instant) (entry : ContextEntry) : Bool :=
  entry.state = .active && entry.reservationId.isNone &&
    entry.expiresAt.any fun expiresAt => expiresAt ≤ now

def ContextEntry.expire (options : StoreOptions) (now : Instant) (entry : ContextEntry) :
    ContextEntry :=
  if entry.lapsed now then
    { entry with state := .expired, expiresAt := none, tombstoneUntil := tombstone options now }
  else entry

def ContextEntry.kept (now : Instant) (entry : ContextEntry) : Bool :=
  !(entry.state = .expired || entry.state = .released) ||
    entry.tombstoneUntil.all fun until_ => until_ > now

def IdempotencyEntry.kept (now : Instant) (outcome : IdempotencyEntry) : Bool :=
  outcome.state = .busy || outcome.retainUntil > now

namespace StoreState

def swept (s : StoreState) (options : StoreOptions) (now : Instant) : StoreState where
  contexts := (s.contexts.mapValues (·.expire options now)).retain (·.kept now)
  idempotency := s.idempotency.retain (·.kept now)
  reservations := s.reservations

/-- `sweep_locked`, with the number of its changes. -/
def sweepLocked (s : StoreState) (options : StoreOptions) (now : Instant) : Nat × StoreState :=
  let expired := s.contexts.count (·.lapsed now)
  let after := s.swept options now
  (expired + (s.contexts.entries.length - after.contexts.entries.length) +
    (s.idempotency.entries.length - after.idempotency.entries.length), after)

def clampTtl (options : StoreOptions) (value : Nat) : Nat := min value options.maxTtlSeconds

/-- A fork without a time of its own lives as long as its base is still to live. -/
def effectiveTtl (options : StoreOptions) (request : MutationRequest) (entry : ContextEntry)
    (now : Instant) : Option Nat :=
  match request.ttlSeconds with
  | some value => some (clampTtl options value)
  | none =>
    if request.operation = .fork then
      entry.expiresAt.map fun expiresAt =>
        (min (max ((expiresAt - now + 999999999).tdiv 1000000000) 1) (2 ^ 32 - 1)).toNat
    else if entry.ttlSeconds ≠ 0 then some entry.ttlSeconds else none

def ensureRoomToFork (s : StoreState) (options : StoreOptions) (request : MutationRequest) :
    StoreResult Unit :=
  if request.operation = .fork then s.ensureAllocationAvailable options request.owner else .ok ()

/-- The reservation of a mutation that passes every check; nothing has been written yet. -/
def admission [Sha256] (s : StoreState) (options : StoreOptions) (now : Instant)
    (request : MutationRequest) (newReservationId : StoreResult String) :
    StoreResult ReservationData := do
  validateRequest request
  ensureSupported options request.operation
  ensure ((s.idempotency.lookup (completeKey request)).isNone)
    (idempotencyConflict "an outcome already exists for this idempotency key")
  if request.operation = .create then
    s.ensureAllocationAvailable options request.owner
    let reservationId ← newReservationId
    return {
      reservationId, request
      bindingFingerprint := bindingFingerprint request.binding
      baseTranscript := []
      effectiveTtlSeconds :=
        some (clampTtl options (request.ttlSeconds.getD options.defaultTtlSeconds))
      parentContextId := none
      parentVersion := none }
  else
    match request.contextId, request.baseVersion with
    | some contextId, some baseVersion =>
      let entry ← s.requireMutable request.owner contextId
      ensure (entry.reservationId = none ∧ entry.version = baseVersion)
        (versionConflict entry.version)
      ensure (request.operation = .reset ∨
          entry.bindingFingerprint = bindingFingerprint request.binding)
        (bindingMismatch "the request binding differs from the retained binding")
      s.ensureRoomToFork options request
      let reservationId ← newReservationId
      return {
        reservationId, request
        bindingFingerprint := bindingFingerprint request.binding
        baseTranscript := entry.transcript
        effectiveTtlSeconds := effectiveTtl options request entry now
        parentContextId := if request.operation = .fork then some entry.contextId else none
        parentVersion := if request.operation = .fork then some entry.version else none }
    -- The request was validated: both are there.
    | _, _ => .error (internalError "validated context_id")

/-- Write down an admitted reservation. -/
def install (s : StoreState) (options : StoreOptions) (now : Instant) (data : ReservationData) :
    StoreState where
  contexts :=
    if data.request.operation = .create ∨ data.request.operation = .fork then s.contexts
    else match data.request.contextId with
      | some contextId => s.contexts.modify contextId fun entry =>
          { entry with reservationId := some data.reservationId }
      | none => s.contexts
  reservations := s.reservations.insert data.reservationId data
  idempotency := s.idempotency.insert (completeKey data.request)
    { state := .busy
      retainUntil := now + options.idempotencyTtl
      requestId := nonempty data.request.requestId }

def reserve [Sha256] (s : StoreState) (options : StoreOptions) (now : Instant)
    (request : MutationRequest) (newReservationId : StoreResult String) :
    StoreResult Reservation × StoreState :=
  let s := s.swept options now
  match s.admission options now request newReservationId with
  | .ok data => (.ok ⟨data.reservationId, request.operation, request.requestId⟩,
      s.install options now data)
  | .error e => (.error e, s)

/-- The first of the factory's ids that is free, out of eight. -/
def nextContextId (s : StoreState) (factory : Nat → StoreResult String) :
    (tries attempt : Nat) → StoreResult String
  | 0, _ => .error (internalError "context ID factory repeatedly produced collisions")
  | tries + 1, attempt => do
    let value ← factory attempt
    validateContextId value
    if (s.contexts.lookup value).isNone then return value
    s.nextContextId factory tries (attempt + 1)

def settle (s : StoreState) (data : ReservationData) (outcome : IdempotencyEntry) : StoreState :=
  { s with
    idempotency := s.idempotency.insert (completeKey data.request) outcome
    reservations := s.reservations.erase data.reservationId }

def completed [Rfc3339] (s : StoreState) (options : StoreOptions) (now : Instant)
    (data : ReservationData) (contextId : String) (version : Nat) (expiry : Option Instant) :
    StoreResult Receipt × StoreState :=
  let receipt : Receipt :=
    { contextId, version
      operation := data.request.operation
      state := .active
      expiresAt := expiry.bind Rfc3339.format
      parentContextId := data.parentContextId
      parentVersion := data.parentVersion }
  (.ok receipt, s.settle data
    { state := .completed
      retainUntil := now + options.idempotencyTtl
      requestId := nonempty data.request.requestId
      receipt := some receipt })

def createdEntry (data : ReservationData) (contextId : String) (expiry : Option Instant)
    (assistant : Message) : ContextEntry where
  contextId := contextId
  owner := data.request.owner
  version := 1
  state := .active
  binding := data.request.binding
  bindingFingerprint := data.bindingFingerprint
  transcript := (if data.request.operation = .fork then data.baseTranscript else []) ++
    data.request.messages ++ [assistant]
  ttlSeconds := data.effectiveTtlSeconds.getD 0
  expiresAt := expiry
  tombstoneUntil := none
  reservationId := none

def mutatedEntry (data : ReservationData) (entry : ContextEntry) (expiry : Option Instant)
    (assistant : Message) : ContextEntry :=
  let entry := { entry with
    version := entry.version + 1
    state := .active
    reservationId := none
    expiresAt := expiry
    ttlSeconds := data.effectiveTtlSeconds.getD 0 }
  if data.request.operation = .reset then
    { entry with
      binding := data.request.binding
      bindingFingerprint := data.bindingFingerprint
      transcript := data.request.messages ++ [assistant] }
  else { entry with transcript := entry.transcript ++ data.request.messages ++ [assistant] }

/-- `commit` of a create or a fork. -/
def commitNew [Rfc3339] (s : StoreState) (options : StoreOptions) (now : Instant)
    (current : ReservationData) (expiry : Option Instant) (assistant : Message)
    (factory : Nat → StoreResult String) : StoreResult Receipt × StoreState :=
  match s.nextContextId factory 8 0 with
  | .error e => (.error e, s)
  | .ok contextId =>
    completed { s with
      contexts := s.contexts.insert contextId (createdEntry current contextId expiry assistant) }
      options now current contextId 1 expiry

/-- `commit` of an append or a reset. -/
def commitExisting [Rfc3339] (s : StoreState) (options : StoreOptions) (now : Instant)
    (current : ReservationData) (contextId : String) (expiry : Option Instant)
    (assistant : Message) : StoreResult Receipt × StoreState :=
  match s.contexts.lookup contextId with
  | none => (.error notFound, s)
  | some entry =>
    let entry := mutatedEntry current entry expiry assistant
    completed { s with contexts := s.contexts.insert contextId entry }
      options now current entry.contextId entry.version expiry

def commit [Rfc3339] (s : StoreState) (options : StoreOptions) (now : Instant)
    (reservation : Reservation) (assistant : Message) (factory : Nat → StoreResult String) :
    StoreResult Receipt × StoreState :=
  match s.requireReservation reservation with
  | .error e => (.error e, s)
  | .ok current =>
    let expiry := current.effectiveTtlSeconds.map fun (count : Nat) =>
      now + Nip.Duration.seconds count
    match current.request.operation, current.request.contextId with
    | .create, _ | .fork, _ => s.commitNew options now current expiry assistant factory
    | .append, some contextId | .reset, some contextId =>
      s.commitExisting options now current contextId expiry assistant
    -- No such reservation is ever admitted: these are panics in the source.
    | .append, none | .reset, none => (.error (internalError "reserved context_id"), s)
    | .release, _ => (.error (internalError "release cannot be reserved"), s)

/-- Take the reservation off its context, if it is still on it. -/
def clearReservation (s : StoreState) (data : ReservationData) : StoreState :=
  match data.request.contextId with
  | some contextId =>
    { s with contexts := s.contexts.modify contextId fun entry =>
        if entry.reservationId = some data.reservationId then { entry with reservationId := none }
        else entry }
  | none => s

def abort (s : StoreState) (options : StoreOptions) (now : Instant) (reservation : Reservation)
    (errorCode : Option String) : StoreResult Unit × StoreState :=
  match s.requireReservation reservation with
  | .error e => (.error e, s)
  | .ok current =>
    let s := (s.clearReservation current).settle current
      { state := .failed
        retainUntil := now + options.idempotencyTtl
        requestId := nonempty current.request.requestId
        errorCode }
    (.ok (), s.swept options now)

def admissionToRelease (s : StoreState) (owner : Owner) (contextId : String) (baseVersion : Nat) :
    StoreResult ContextEntry := do
  let entry ← s.requireMutable owner contextId
  ensure (entry.reservationId = none ∧ entry.version = baseVersion) (versionConflict entry.version)
  return entry

/-- What a repeated release is answered with. -/
def replayRelease (prior : IdempotencyEntry) (contextId : String) (baseVersion : Nat) :
    StoreResult Receipt :=
  if prior.state = .completed ∧ prior.contextId = some contextId ∧
      prior.baseVersion = some baseVersion then
    prior.receipt.elim (.error (internalError "completed release outcome has no receipt")) .ok
  else .error (idempotencyConflict "a release with this idempotency key already exists")

def validateRelease (options : StoreOptions) (contextId idempotency : String) : StoreResult Unit := do
  ensureSupported options .release
  validateContextId contextId
  ensure (Text.trim idempotency ≠ "") (paramsInvalid "release requires idempotency_key")

def release (s : StoreState) (options : StoreOptions) (now : Instant) (owner : Owner)
    (contextId : String) (baseVersion : Nat) (idempotency : String) :
    StoreResult Receipt × StoreState :=
  let s := s.swept options now
  let key : IdempotencyKey := ⟨owner, llmContextRelease, idempotency⟩
  match validateRelease options contextId idempotency with
  | .error e => (.error e, s)
  | .ok () =>
    match s.idempotency.lookup key with
    | some prior => (replayRelease prior contextId baseVersion, s)
    | none =>
      match s.admissionToRelease owner contextId baseVersion with
      | .error e => (.error e, s)
      | .ok entry =>
        let entry := { entry with
          version := entry.version + 1
          state := .released
          expiresAt := none
          tombstoneUntil := tombstone options now }
        let receipt : Receipt :=
          { contextId
            version := entry.version
            operation := .release
            state := .released
            expiresAt := none
            parentContextId := none
            parentVersion := none }
        (.ok receipt,
          { s with
            contexts := s.contexts.insert contextId entry
            idempotency := s.idempotency.insert key
              { state := .completed
                retainUntil := now + options.idempotencyTtl
                requestId := none
                receipt := some receipt
                contextId := some contextId
                baseVersion := some baseVersion } })

def statusByContext [Rfc3339] (s : StoreState) (owner : Owner) (contextId : String) :
    StoreResult Status := do
  validateContextId contextId
  let entry ← (s.contexts.lookup contextId).elim (.error notFound) .ok
  ensure (entry.owner = owner)
    ⟨"NWP-LLM-CONTEXT-FORBIDDEN", "the caller does not own this context", none⟩
  return {
    state := if entry.reservationId.isSome then .busy else entry.state
    contextId := some entry.contextId
    version := some entry.version
    expiresAt := entry.expiresAt.bind Rfc3339.format
    requestId := do
      let id ← entry.reservationId
      let reservation ← s.reservations.lookup id
      nonempty reservation.request.requestId
    errorCode := none }

def statusFromReceipt [Rfc3339] (s : StoreState) (owner : Owner) (receipt : Receipt) :
    StoreResult Status :=
  if (s.contexts.lookup receipt.contextId).isSome then s.statusByContext owner receipt.contextId
  else .ok {
    state := receipt.state
    contextId := some receipt.contextId
    version := some receipt.version
    expiresAt := receipt.expiresAt
    requestId := none
    errorCode := none }

def statusByOutcome [Rfc3339] (s : StoreState) (owner : Owner) (idempotency : String) :
    StoreResult Status := do
  let outcome ← (s.idempotency.lookup ⟨owner, llmComplete, idempotency⟩).elim (.error notFound) .ok
  let without (state : ContextState) (errorCode : Option String) : Status :=
    { state, errorCode, contextId := none, version := none, expiresAt := none
      requestId := outcome.requestId }
  match outcome.state with
  | .busy => .ok (without .busy none)
  | .failed => .ok (without .failed outcome.errorCode)
  | .completed =>
    let receipt ← outcome.receipt.elim
      (.error (internalError "completed context outcome has no receipt")) .ok
    s.statusFromReceipt owner receipt

def status [Rfc3339] (s : StoreState) (options : StoreOptions) (now : Instant) (owner : Owner)
    (contextId idempotency : Option String) : StoreResult Status × StoreState :=
  let s := s.swept options now
  (match contextId, idempotency with
    | none, some key => s.statusByOutcome owner key
    | some id, none => s.statusByContext owner id
    | _, _ => .error (paramsInvalid "status requires exactly one locator"), s)

def snapshot (s : StoreState) (options : StoreOptions) (now : Instant) (owner : Owner)
    (contextId : String) : StoreResult Snapshot × StoreState :=
  let s := s.swept options now
  ((s.requireMutable owner contextId).map fun entry =>
    { contextId := entry.contextId
      version := entry.version
      state := entry.state
      transcript := entry.transcript
      binding := entry.binding
      expiresAt := entry.expiresAt }, s)

def sweepExpired (s : StoreState) (options : StoreOptions) (now : Instant) :
    StoreResult Nat × StoreState :=
  let (changed, s) := s.sweepLocked options now
  (.ok changed, s)

end StoreState
end Nps.Nwp.LlmContext
