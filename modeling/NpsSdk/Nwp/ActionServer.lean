import NpsSdk.Lib.Interaction
import NpsSdk.Lib.Ip
import NpsSdk.Nwp.IdempotencyCache
import NpsSdk.Nwp.MemoryNode

/-! An action node: requests to invoke an action are checked, answered from earlier outcomes or
handed to the provider, at once or as a task of their own. -/
namespace Nps.Nwp.ActionServer
open Interaction Prog
open Json (Value Fields)

structure ActionSpec where
  description : Option String := none
  paramsAnchor : Option String := none
  resultAnchor : Option String := none
  async_ : Bool := false
  idempotent : Option Bool := none
  timeoutMsDefault : Option Nat := none
  timeoutMsMax : Option Nat := none
  requiredCapability : Option String := none

structure ActionNodeOptions where
  actions : Assoc String ActionSpec
  pathPrefix : String
  defaultTimeoutMs : Nat := 5000
  maxTimeoutMs : Nat := 300000
  /-- In nanoseconds. -/
  idempotencyTtl : Int := 86400000000000
  rejectPrivateCallbackUrls : Bool := true

def ActionNodeOptions.pfx (opt : ActionNodeOptions) : String :=
  Text.trimEnd (· == '/') opt.pathPrefix

structure InvokeRequest extends NodeRequest where
  /-- The number of bytes of the body. -/
  wireInputBytes : Nat

def InvokeRequest.agentNid (req : InvokeRequest) : Option String := req.header "X-NWP-Agent"

structure ActionResponse where
  status : Nat
  headers : List (String × String)
  body : List Value

def refused (status : Nat) (npsStatus errorCode message : String) : ActionResponse :=
  let response := errorResp status npsStatus errorCode message
  ⟨response.status, response.headers, [response.body]⟩

def badRequest (message : String) : ActionResponse :=
  refused 400 "NPS-CLIENT-BAD-REQUEST" "NWP-ACTION-PARAMS-INVALID" message

structure ActionError where
  httpStatus : Nat
  npsStatus : String
  errorCode : String
  message : String

def ActionError.internal (message : String) : ActionError :=
  ⟨500, "NPS-SERVER-INTERNAL", "NWP-NODE-UNAVAILABLE", message⟩

def ActionError.response (error : ActionError) : ActionResponse :=
  refused error.httpStatus error.npsStatus error.errorCode error.message

structure ParsedActionFrame where
  actionId : String
  params : Option Value := none
  idempotencyKey : Option String := none
  timeoutMs : Nat := 0
  async_ : Bool := false
  callbackUrl : Option String := none
  priority : Option String := none
  requestId : Option String := none

def asBool : Value → Option Bool
  | .bool value => some value
  | _ => none

def ParsedActionFrame.fromJson (body : Value) : Except String ParsedActionFrame :=
  match body.asObject with
  | none => .error "ActionFrame must be a JSON object."
  | some obj =>
    let text (name : String) : Option String := (Json.get name obj).bind Value.asStr
    match (text "action_id").filter (· ≠ "") with
    | none => .error "invalid ActionFrame: missing action_id."
    | some actionId => .ok {
        actionId
        params := present "params" obj
        idempotencyKey := text "idempotency_key"
        -- `as u32` drops the upper half
        timeoutMs := ((Json.get "timeout_ms" obj).bind Value.asU64).getD 0 % 2 ^ 32
        async_ := ((Json.get "async" obj).bind asBool).getD false
        callbackUrl := text "callback_url"
        priority := text "priority"
        requestId := text "request_id" }

def InvokeRequest.frame (req : InvokeRequest) : Except String ParsedActionFrame :=
  req.body.bind ParsedActionFrame.fromJson

structure ParsedUrl where
  scheme : String
  host : String

def schemeChar (c : Char) : Bool := c.isAlphanum || c = '+' || c = '-' || c = '.'

/-- The host of an authority without user information: an address in brackets, or all up to the
port. -/
def hostOf (hostport : List Char) : List Char :=
  if ']' ∈ hostport then hostport.takeWhile (· ≠ ']') ++ [']']
  else hostport.takeWhile (· ≠ ':')

def parseAbsoluteUrl (url : String) : Option ParsedUrl := do
  let (scheme, rest) ← Text.splitOnce? "://" url
  if scheme = "" ∨ !scheme.toList.all schemeChar ∨ rest = "" then none
  else
    let authority := rest.toList.takeWhile fun c => c ≠ '/' && c ≠ '?' && c ≠ '#'
    let hostport := (authority.reverse.takeWhile (· ≠ '@')).reverse
    if authority = [] ∨ hostOf hostport = [] then none
    else return ⟨scheme, String.ofList (hostOf hostport)⟩

def parseU8 (text : String) : Option Nat :=
  if text.toList.head? = some '-' then none
  else ((Text.parseInt? text).map Int.toNat).filter (· ≤ 255)

def parseIpv4 (text : String) : Option (List Nat) :=
  let parts := Text.split '.' text
  if parts.length = 4 then parts.mapM parseU8 else none

def isPrivateOctets : List Nat → Bool
  | a :: b :: _ =>
    a = 127 || a = 10 || a = 0 || (a = 172 && 16 ≤ b && b ≤ 31) || (a = 192 && b = 168) ||
      (a = 169 && b = 254)
  | _ => false

/-- An address of version 6 is judged by its text; one that ends in an address of version 4 is
judged by that. -/
def isPrivateIpv6 (text : String) : Bool :=
  let lower := Text.lowerAscii text
  if lower = "::1" ∨ Text.startsWith "fe80" lower ∨ Text.startsWith "fc" lower ∨
      Text.startsWith "fd" lower then true
  else
    let last := String.ofList (lower.toList.reverse.takeWhile (· ≠ ':')).reverse
    match parseIpv4 last with
    | some octets => isPrivateOctets octets
    | none => false

def isPrivateHost (host : String) : Bool :=
  if host = "" ∨ Text.lowerAscii host = "localhost" then true
  else
    let stripped := Text.trimEnd (· == ']') (Text.trimStart (· == '[') host)
    match parseIpv4 stripped with
    | some octets => isPrivateOctets octets
    | none => if ':' ∈ stripped.toList then isPrivateIpv6 stripped else false

/-- What is wrong with the URL, if anything. -/
def validateCallbackUrl (callbackUrl : String) (rejectPrivate : Bool) : Option String :=
  if Text.trim callbackUrl = "" then some "callback_url must not be empty."
  else match parseAbsoluteUrl callbackUrl with
  | none => some s!"callback_url '{callbackUrl}' is not a valid absolute URI."
  | some parsed =>
    if Text.lowerAscii parsed.scheme ≠ "https" then
      some s!"callback_url MUST use the https:// scheme (got '{parsed.scheme}://')."
    else if rejectPrivate ∧ isPrivateHost parsed.host then
      some s!"callback_url host '{parsed.host}' resolves to a private or loopback address (SSRF guard)."
    else none

/-- What a stream does: it hands out frames, and goes on with what becomes of each. -/
inductive ActionStream where
  | finished (result : Except ActionError Unit)
  | emits (frame : ActionStreamFrame) (next : Except ActionError Unit → ActionStream)

/-- The stream of frames that were kept. -/
def replayActionStream : List ActionStreamFrame → ActionStream
  | [] => .finished (.ok ())
  | frame :: rest => .emits frame fun
    | .ok () => replayActionStream rest
    | .error e => .finished (.error e)

structure ActionExecutionResult where
  result : Option Value := none
  stream : Option ActionStream := none
  anchorRef : Option String := none
  tokenEst : Nat := 0

/-- A provider is told which token of cancellation goes with its work. -/
structure ActionContext where
  agentNid : Option String
  requestId : Option String
  taskId : Option String
  spec : ActionSpec
  timeoutMs : Nat
  priority : String
  wireInputBytes : Nat
  cancellation : Nat

inductive Received where
  | outcome (result : Except ActionError ActionExecutionResult)
  | timeout
  | disconnected

structure AsyncTask where
  taskId : String
  frame : ParsedActionFrame
  context : ActionContext
  timeoutMs : Nat

inductive Op where
  | authorize (frame : ParsedActionFrame) (context : ActionContext)
  /-- A thread starts to execute the action. -/
  | execute (frame : ParsedActionFrame) (context : ActionContext)
  | receive (timeoutMs : Nat)
  | nowUtc
  /-- Whether the time of a task is over. -/
  | pastDeadline
  | genHex (bytes : Nat)
  | cacheGet (scope idempotencyKey : String) (now : OffsetDateTime)
  | tryStore (scope idempotencyKey : String) (entry : IdempotentEntry) (now : OffsetDateTime)
  | taskGet (taskId : String)
  | tryTransition (now : OffsetDateTime) (taskId expected new : String)
  | task (now : OffsetDateTime) (op : TaskOp)
  | newCancellation
  | isCancelled (cancellation : Nat)
  | cancel (cancellation : Nat)
  | putCancellation (taskId : String) (cancellation : Nat)
  | getCancellation (taskId : String)
  | removeCancellation (taskId : String)
  | spawn (task : AsyncTask)

abbrev Answer : Op → Type
  | .authorize _ _ => Except ActionError Unit
  | .execute _ _ => Unit
  | .receive _ => Received
  | .nowUtc => OffsetDateTime
  | .pastDeadline => Bool
  | .genHex _ => String
  | .cacheGet _ _ _ => Option IdempotentEntry
  | .tryStore _ _ _ _ => Bool
  | .taskGet _ => Option ActionTaskRecord
  | .tryTransition _ _ _ _ => Bool
  | .task _ _ => Unit
  | .newCancellation => Nat
  | .isCancelled _ => Bool
  | .cancel _ => Unit
  | .putCancellation _ _ => Unit
  | .getCancellation _ => Option Nat
  | .removeCancellation _ => Unit
  | .spawn _ => Unit

abbrev Program (α : Type) := Prog Answer α

abbrev ask (op : Op) : Program (Answer op) := Prog.perform op

/-- What the requests to a node share. -/
structure World where
  idempotency : InMemoryIdempotencyCache := ∅
  taskStore : InMemoryActionTaskStore := .new
  taskCancellations : Assoc String Nat := ∅
  /-- The tokens that were cancelled, and the next one. -/
  cancelled : List Nat := []
  tokens : Nat := 0
  counter : Nat := 1

def lowerHex16 (n : Nat) : String := Text.lowerAscii (Text.upperHex 16 n)

def hexOf (bytes nanos counter : Nat) : String :=
  String.ofList ((lowerHex16 nanos ++ lowerHex16 counter).toList.take (bytes * 2))

/-- What an operation answers and leaves. Providers and clocks answer as they like, and a provider
may cancel its own token. -/
def exec : (op : Op) → World → Answer op → World → Prop
  | .cacheGet scope idempotencyKey now, s, answer, t =>
    answer = (s.idempotency.get now scope idempotencyKey).1 ∧
      t = { s with idempotency := (s.idempotency.get now scope idempotencyKey).2 }
  | .tryStore scope idempotencyKey entry now, s, answer, t =>
    answer = (s.idempotency.tryStore now scope idempotencyKey entry).1 ∧
      t = { s with idempotency := (s.idempotency.tryStore now scope idempotencyKey entry).2 }
  | .taskGet taskId, s, answer, t => answer = s.taskStore.get taskId ∧ t = s
  | .tryTransition now taskId expected new, s, answer, t =>
    answer = (s.taskStore.tryTransition now taskId expected new).1 ∧
      t = { s with taskStore := (s.taskStore.tryTransition now taskId expected new).2 }
  | .task now op, s, _, t => t = { s with taskStore := op.apply s.taskStore now }
  | .newCancellation, s, answer, t => answer = s.tokens ∧ t = { s with tokens := s.tokens + 1 }
  | .isCancelled token, s, answer, t =>
    (token ∈ s.cancelled → answer = true) ∧
      t = { s with cancelled := if answer then token :: s.cancelled else s.cancelled }
  | .cancel token, s, _, t => t = { s with cancelled := token :: s.cancelled }
  | .putCancellation taskId token, s, _, t =>
    t = { s with taskCancellations := s.taskCancellations.insert taskId token }
  | .getCancellation taskId, s, answer, t => answer = s.taskCancellations.lookup taskId ∧ t = s
  | .removeCancellation taskId, s, _, t =>
    t = { s with taskCancellations := s.taskCancellations.erase taskId }
  | .genHex bytes, s, answer, t =>
    (∃ nanos < 2 ^ 64, answer = hexOf bytes nanos s.counter) ∧
      t = { s with counter := (s.counter + 1) % 2 ^ 64 }
  | .authorize _ _, s, _, t => t = s
  | .execute _ _, s, _, t => t = s
  | .receive _, s, _, t => t = s
  | .nowUtc, s, _, t => t = s
  | .pastDeadline, s, _, t => t = s
  | .spawn _, s, _, t => t = s

section Responses
variable (opt : ActionNodeOptions)

def jsonResponse (status : Nat) (contentType : String) (more : List (String × String))
    (body : List Value) : ActionResponse where
  status
  headers := [("content-type", contentType), ("x-nwp-node-type", "action")] ++ more
  body

def writeAsyncResponse (taskId status : String) (requestId : Option String)
    (estimatedMs : Option Nat) : ActionResponse :=
  let fields : Fields := Json.sortEntries [
    ("task_id", .string taskId),
    ("status", .string status),
    ("poll_url", .string (opt.pfx ++ "/invoke"))]
  let fields := Json.insertSome "estimated_ms" (estimatedMs.map fun ms => Json.integer ms) fields
  let fields := Json.insertSome "request_id" (requestId.map .string) fields
  jsonResponse 202 "application/json" [] [.object fields]

def writeCaps (payload : Option Value) (anchorRef requestId : Option String) (tokenEst : Nat) :
    ActionResponse :=
  let data := payload.toList
  let fields : Fields := Json.sortEntries [
    ("anchor_ref", .string (anchorRef.getD "")),
    ("count", Json.integer data.length),
    ("data", .array data)]
  let tokens := if tokenEst > 0 then some tokenEst else none
  let fields := Json.insertSome "token_est" (tokens.map fun n => Json.integer n) fields
  let headers := (anchorRef.map fun anchor => ("x-nwp-schema", anchor)).toList ++
    (tokens.map fun n => ("x-nwp-tokens", toString n)).toList ++
    (requestId.map fun id => ("x-nwp-request-id", id)).toList
  jsonResponse 200 "application/nwp-capsule" headers [.object fields]

def frameValue (frame : ActionStreamFrame) : Value :=
  let member (name : String) (value : Option Value) : Fields := (value.map (name, ·)).toList
  .object ([("stream_id", .string frame.streamId), ("seq", Json.integer frame.seq),
      ("is_last", .bool frame.isLast)] ++
    member "anchor_ref" (frame.anchorRef.map .string) ++
    [("data", .array frame.data)] ++
    member "window_size" (frame.windowSize.map fun n => Json.integer n) ++
    member "error_code" (frame.errorCode.map .string))

end Responses

/-- The frames that were written and whether one of them was the last. -/
structure Written where
  emitted : List ActionStreamFrame := []
  terminal : Bool := false

/-- Write one frame of a stream, if it is its turn. -/
def emit (streamId : String) (cancellation : Nat) (supplied : ActionStreamFrame)
    (written : Written) : Program (Except ActionError Unit × Written) := do
  if ← ask (.isCancelled cancellation) then
    return (.error (.internal "action stream was cancelled"), written)
  else if written.terminal then
    return (.error (.internal "action stream emitted frames after its terminal frame"), written)
  else if supplied.seq ≠ written.emitted.length then
    return (.error (.internal "action stream sequence is not contiguous from zero"), written)
  else if supplied.errorCode.isSome ∧ !supplied.isLast then
    return (.error (.internal "action stream error_code is terminal-only"), written)
  else
    return (.ok (), { emitted := written.emitted ++ [{ supplied with streamId }]
                      terminal := supplied.isLast })

/-- Run a stream to its end. -/
def runStream (streamId : String) (cancellation : Nat) :
    ActionStream → Written → Program (Except ActionError Unit × Written)
  | .finished result, written => return (result, written)
  | .emits frame next, written => do
    let (answer, written) ← emit streamId cancellation frame written
    runStream streamId cancellation (next answer) written

/-- The response, and the frames of a stream that ended well. -/
def writeStream (stream : ActionStream) (cancellation : Nat) (requestId : Option String) :
    Program (ActionResponse × Option (List ActionStreamFrame)) := do
  let streamId ← ask (.genHex 16)
  let (result, written) ← runStream streamId cancellation stream {}
  let failure : Option ActionError :=
    match result with
    | .error e => some e
    | .ok () =>
      if written.terminal then none
      else some (.internal "action stream ended without a terminal frame")
  let respond (emitted : List ActionStreamFrame) : ActionResponse :=
    jsonResponse 200 "application/x-ndjson"
      (requestId.map fun id => ("x-nwp-request-id", id)).toList (emitted.map frameValue)
  match failure with
  | none =>
    let completed := written.emitted.getLast?.any (·.errorCode.isNone)
    return (respond written.emitted, if completed then some written.emitted else none)
  | some error =>
    if written.terminal then
      return (respond written.emitted, none)
    else if ← ask (.isCancelled cancellation) then
      return (respond written.emitted, none)
    else
      let last : ActionStreamFrame :=
        { streamId, seq := written.emitted.length, isLast := true, errorCode := some error.errorCode }
      return (respond (written.emitted ++ [last]), none)

class Formats where
  rfc3339 : OffsetDateTime → String
  number : Float → Value

def readStringParam (params : Option Value) (name : String) : Option String := do
  let obj ← params.bind Value.asObject
  (Json.get name obj).bind Value.asStr

/-- The task that a request is about, when its caller owns it. -/
def ownTask (frame : ParsedActionFrame) (agentNid : Option String) :
    Program (Except ActionResponse (String × ActionTaskRecord)) :=
  match (readStringParam frame.params "task_id").filter (· ≠ "") with
  | none => return .error (badRequest "params.task_id is required.")
  | some taskId => do
    match ← ask (.taskGet taskId) with
    | none => return .error (refused 404 "NPS-CLIENT-NOT-FOUND" "NWP-TASK-NOT-FOUND"
        s!"Unknown task_id '{taskId}'.")
    | some record =>
      if record.agentNid ≠ agentNid then
        return .error (refused 403 "NPS-AUTH-FORBIDDEN" "NWP-AUTH-NID-SCOPE-VIOLATION"
          "the caller does not own this task.")
      else return .ok (taskId, record)

def statusFields [Formats] (record : ActionTaskRecord) : Fields :=
  let fields : Fields := Json.sortEntries [
    ("task_id", .string record.taskId),
    ("status", .string record.status),
    ("created_at", .string (Formats.rfc3339 record.createdAt)),
    ("updated_at", .string (Formats.rfc3339 record.updatedAt))]
  let fields := Json.insertSome "progress" (record.progress.map Formats.number) fields
  let fields := Json.insertSome "request_id" (record.requestId.map .string) fields
  let fields := Json.insertSome "result" record.result fields
  Json.insertSome "error" record.error fields

def handleTaskStatus [Formats] (frame : ParsedActionFrame) (agentNid : Option String) :
    Program ActionResponse := do
  match ← ownTask frame agentNid with
  | .error response => return response
  | .ok (_, record) =>
    return writeCaps (some (.object (statusFields record))) none frame.requestId 0

def handleTaskCancel (frame : ParsedActionFrame) (agentNid : Option String) :
    Program ActionResponse := do
  match ← ownTask frame agentNid with
  | .error response => return response
  | .ok (taskId, record) =>
    if isTerminal record.status then
      return refused 409 "NPS-CLIENT-CONFLICT" "NWP-TASK-ALREADY-CANCELLED"
        s!"Task '{taskId}' is already in a terminal state ('{record.status}')."
    else do
      let now ← ask .nowUtc
      ask (.task now (.cancel taskId))
      if let some token ← ask (.getCancellation taskId) then ask (.cancel token)
      let payload := Json.document [("task_id", .string taskId), ("status", .string "cancelled")]
      return writeCaps (some payload) none frame.requestId 0

def failure (code message : String) : Value :=
  Json.document [("code", .string code), ("message", .string message)]

def failTask (taskId : String) (error : Value) : Program Unit := do
  let now ← ask .nowUtc
  ask (.task now (.fail taskId error))

/-- Wait for the outcome of a task. Every wait that times out takes ten milliseconds or what is left
of the task's time, so few of them are possible before it is over. -/
def awaitTask (task : AsyncTask) : (left : Nat) → Program Unit
  | 0 => do
    if ← ask (.isCancelled task.context.cancellation) then return ()
    else
      ask (.cancel task.context.cancellation)
      failTask task.taskId (failure "NWP-NODE-UNAVAILABLE" "task timed out")
  | left + 1 => do
    if ← ask (.isCancelled task.context.cancellation) then return ()
    else if ← ask .pastDeadline then
      ask (.cancel task.context.cancellation)
      failTask task.taskId (failure "NWP-NODE-UNAVAILABLE" "task timed out")
    else match ← ask (.receive 10) with
    | .outcome (.ok result) =>
      if ← ask (.isCancelled task.context.cancellation) then return ()
      else
        let now ← ask .nowUtc
        ask (.task now (.complete task.taskId result.result))
    | .outcome (.error error) =>
      if ← ask (.isCancelled task.context.cancellation) then return ()
      else failTask task.taskId (failure error.errorCode error.message)
    | .timeout => awaitTask task left
    | .disconnected =>
      failTask task.taskId (failure "NWP-NODE-UNAVAILABLE" "task worker disconnected")

/-- The thread of a task. -/
def runAsyncTask (task : AsyncTask) : Program Unit := do
  let now ← ask .nowUtc
  if ← ask (.tryTransition now task.taskId "pending" "running") then
    ask (.execute task.frame task.context)
    awaitTask task ((task.timeoutMs + 9) / 10)
  ask (.removeCancellation task.taskId)

def clampTimeout (requested : Nat) (spec : ActionSpec) (opt : ActionNodeOptions) : Nat :=
  let specMax := spec.timeoutMsMax.getD opt.maxTimeoutMs
  let hardMax := min specMax opt.maxTimeoutMs
  if requested = 0 then spec.timeoutMsDefault.getD opt.defaultTimeoutMs else min requested hardMax

section Invoke
variable (opt : ActionNodeOptions) (frame : ParsedActionFrame) (context : ActionContext)

def checkFrame : Except ActionResponse ActionSpec :=
  match opt.actions.lookup frame.actionId with
  | none => .error (refused 404 "NPS-CLIENT-NOT-FOUND" "NWP-ACTION-NOT-FOUND"
      s!"Unknown action_id '{frame.actionId}'.")
  | some spec =>
    match frame.priority.filter fun p => p ≠ "low" && p ≠ "normal" && p ≠ "high" with
    | some p => .error (badRequest s!"priority '{p}' is invalid (allowed: low/normal/high).")
    | none =>
      if frame.async_ ∧ !spec.async_ then
        .error (badRequest s!"action '{frame.actionId}' does not support async execution.")
      else
        match frame.callbackUrl.bind (validateCallbackUrl · opt.rejectPrivateCallbackUrls) with
        | some err => .error (badRequest err)
        | none => .ok spec

/-- Keep an outcome under the idempotency key of the request, if it has one. -/
def remember (result : Option Value) (streamFrames : Option (List ActionStreamFrame))
    (anchorRef taskId : Option String) : Program Unit :=
  match frame.idempotencyKey with
  | none => return ()
  | some key => do
    let now ← ask .nowUtc
    let entry : IdempotentEntry :=
      { actionId := frame.actionId, paramsHash := hashParams frame.params, result, streamFrames
        anchorRef, taskId, expiresAt := now + opt.idempotencyTtl }
    let stored ← ask .nowUtc
    -- whether another outcome was there already is not looked at
    let _ ← ask (.tryStore (idempotencyCacheScope frame.actionId context.agentNid) key entry stored)

def idempotencyConflict : ActionResponse :=
  refused 409 "NPS-CLIENT-CONFLICT" "NWP-ACTION-IDEMPOTENCY-CONFLICT"
    "idempotency_key reuse with different params."

/-- The answer to a request whose key is known. -/
def replay (cached : IdempotentEntry) : Program ActionResponse :=
  if cached.paramsHash ≠ hashParams frame.params then return idempotencyConflict
  else match cached.taskId with
  | some taskId => do
    let record ← ask (.taskGet taskId)
    return writeAsyncResponse opt taskId ((record.map (·.status)).getD "pending") frame.requestId none
  | none =>
    match cached.streamFrames with
    | some frames => do
      let (response, _) ← writeStream (replayActionStream frames) context.cancellation frame.requestId
      return response
    | none => return writeCaps cached.result cached.anchorRef frame.requestId 0

def performAsync : Program ActionResponse := do
  let taskId ← ask (.genHex 16)
  let now ← ask .nowUtc
  ask (.task now (.create taskId frame.actionId frame.requestId context.agentNid))
  remember opt frame context none none none (some taskId)
  ask (.putCancellation taskId context.cancellation)
  ask (.spawn ⟨taskId, frame, { context with taskId := some taskId }, context.timeoutMs⟩)
  return writeAsyncResponse opt taskId "pending" frame.requestId context.spec.timeoutMsDefault

def deliver (result : ActionExecutionResult) : Program ActionResponse := do
  let anchor := result.anchorRef <|> context.spec.resultAnchor
  match result.stream with
  | some stream =>
    let (response, completed) ← writeStream stream context.cancellation frame.requestId
    if let some frames := completed then remember opt frame context none (some frames) anchor none
    return response
  | none =>
    remember opt frame context result.result none anchor none
    return writeCaps result.result anchor frame.requestId result.tokenEst

def performSync : Program ActionResponse := do
  ask (.execute frame context)
  match ← ask (.receive context.timeoutMs) with
  | .outcome (.ok result) => deliver opt frame context result
  | .outcome (.error error) => return error.response
  | .timeout =>
    ask (.cancel context.cancellation)
    return refused 504 "NPS-SERVER-TIMEOUT" "NWP-NODE-UNAVAILABLE" "action execution timed out."
  | .disconnected =>
    ask (.cancel context.cancellation)
    return refused 500 "NPS-SERVER-INTERNAL" "NWP-NODE-UNAVAILABLE"
      "action execution worker disconnected."

def perform : Program ActionResponse :=
  if frame.async_ then performAsync opt frame context else performSync opt frame context

/-- A request with a key is answered from the cache, if its outcome is there. -/
def consult : Program ActionResponse :=
  match frame.idempotencyKey with
  | none => perform opt frame context
  | some key => do
    let now ← ask .nowUtc
    match ← ask (.cacheGet (idempotencyCacheScope frame.actionId context.agentNid) key now) with
    | some cached => replay opt frame context cached
    | none => perform opt frame context

end Invoke

section Requests
variable [Formats] (opt : ActionNodeOptions)

def invoke (req : InvokeRequest) (frame : ParsedActionFrame) : Program ActionResponse :=
  match checkFrame opt frame with
  | .error response => return response
  | .ok spec => do
    let cancellation ← ask .newCancellation
    let context : ActionContext :=
      { agentNid := req.agentNid, requestId := frame.requestId, taskId := none, spec
        timeoutMs := clampTimeout frame.timeoutMs spec opt
        priority := frame.priority.getD "normal", wireInputBytes := req.wireInputBytes, cancellation }
    match ← ask (.authorize frame context) with
    | .error error => return error.response
    | .ok () => consult opt frame context

def handleInvoke (req : InvokeRequest) : Program ActionResponse :=
  match req.frame with
  | .error message => return badRequest message
  | .ok frame =>
    if frame.actionId = "system.task.status" then handleTaskStatus frame req.agentNid
    else if frame.actionId = "system.task.cancel" then handleTaskCancel frame req.agentNid
    else invoke opt req frame

/-- Requests come from outside; tasks are started by them. -/
inductive Call where
  | request (req : InvokeRequest)
  | task (task : AsyncTask)

/-- A node under any number of requests; only these are answered. -/
def node : System Answer World Call (Option ActionResponse) where
  program
    | .request req => some <$> handleInvoke opt req
    | .task task => (fun _ => none) <$> runAsyncTask task
  exec := exec
  spawns
    | .spawn task => [.task task]
    | _ => []

end Requests
end Nps.Nwp.ActionServer
