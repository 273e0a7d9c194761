import NpsSdk.Lib.Base64
import NpsSdk.Nop.Scheduler
import NpsSdk.Nop.Validation

/-! The orchestrator: a task is validated, recorded, run under its time limit and reported. -/
namespace Nps.Nop
open Interaction Prog
open Wire (Bytes)

class HmacSha256 where
  mac : (key message : Bytes) → Bytes

section Callback
variable [HmacSha256]

def callbackMaxRetries : Nat := 3

/-- Either alphabet is read, with or without padding. -/
def decodeBase64url (value : String) : Option Bytes :=
  let normalized := (Text.trim value).toList.map fun c =>
    if c = '-' then '+' else if c = '_' then '/' else c
  let length := (Text.utf8 (String.ofList normalized)).length
  let padded := normalized ++ List.replicate ((4 - length % 4) % 4) '='
  (Base64.decode .standard .canonical (String.ofList padded)).toOption

/-- No signature without a key of 32 bytes. -/
def buildCallbackSignature (callbackSecret : Option String) (payload : String) : Option String := do
  let secret ← callbackSecret
  let key ← decodeBase64url (Text.trim secret)
  if Text.trim secret = "" ∨ key.length ≠ 32 then none
  else
    let hash := HmacSha256.mac key (Text.utf8 payload)
    return "sha256=" ++ Hex.encode hash

def postFrom (url : String) (signature : Option String) (payload : String) (retryBaseDelayMs : Nat) :
    (left : Nat) → (attempt : Nat) → Program Unit
  | 0, _ => return ()
  | left + 1, attempt => do
    if ← ask (.post url signature payload) then return ()
    else
      if attempt < callbackMaxRetries ∧ retryBaseDelayMs > 0 then
        ask (.sleep (retryBaseDelayMs * 2 ^ (attempt - 1)))
      postFrom url signature payload retryBaseDelayMs left (attempt + 1)

def fireCallback (url : String) (callbackSecret : Option String) (payload : String)
    (retryBaseDelayMs : Nat) : Program Unit :=
  postFrom url (buildCallbackSignature callbackSecret payload) payload retryBaseDelayMs
    callbackMaxRetries 1

end Callback

section Preflight
variable (task : TaskFrame)

def uniqueAgents : (seen : List String) → List DagNode → List (String × String)
  | _, [] => []
  | seen, node :: rest =>
    if node.agent ∈ seen then uniqueAgents seen rest
    else (node.agent, node.action) :: uniqueAgents (node.agent :: seen) rest

/-- The answers of the probes as they come in, up to one that is not available. -/
def awaitProbes : (count : Nat) → Futures Answer String PreflightResult → Program (Option String)
  | 0, _ => return none
  | count + 1, probes => do
    let choices ← ask .choose
    match ← awaitNext choices probes with
    | none => return none
    | some ((_, res), probes) =>
      if res.available then awaitProbes count probes
      else
        let reason := res.unavailableReason.getD "no reason given"
        return some s!"Agent '{res.agentNid}' is unavailable: {reason}"

def runPreflight : Program (Option String) :=
  let unique := uniqueAgents [] task.dag.nodes
  awaitProbes unique.length <| unique.map fun (agent, action) =>
    (agent, ask (.preflight agent action 0 none))

end Preflight

/-- The operations at which a program waits, and can be given up. -/
def Op.waits : Op → Bool
  | .newUuid => false
  | .nowMs => false
  | .choose => false
  | .iterate _ => false
  | _ => true

section Lifecycle
variable [CharClasses] [HmacSha256] (opts : NopOrchestratorOptions) (task : TaskFrame)

def callbackUrl : Option String := task.callbackUrl.filter (· ≠ "")

/-- The graph is run, its state recorded, and the callback told. -/
def runAndReport (topoOrder : List String) : Program NopTaskResult := do
  ask (.updateState task.taskId .running)
  let result ← runDag opts task topoOrder
  ask (.updateState task.taskId result.finalState)
  match callbackUrl task with
  | some url =>
    if opts.enableCallback then
      fireCallback url task.callbackSecret result.payload opts.callbackRetryBaseDelayMs
    return result
  | none => return result

def runLifecycle (topoOrder : List String) : Program NopTaskResult := do
  if task.preflight then
    ask (.updateState task.taskId .preflight)
    match ← runPreflight task with
    | some fail =>
      ask (.updateState task.taskId .failed)
      return .failure task.taskId ErrorCodes.resourceInsufficient fail none
    | none => runAndReport opts task topoOrder
  else runAndReport opts task topoOrder

/-- The run of a task under its time limit. -/
def runLimited (topoOrder : List String) : Program NopTaskResult := do
  let timeoutMs := min task.timeoutMs maxTimeoutMs
  match ← withTimeout Op.waits (.timeUp timeoutMs) id (runLifecycle opts task topoOrder) with
  | some result => return result
  | none =>
    ask (.updateState task.taskId .failed)
    return .failure task.taskId ErrorCodes.taskTimeout s!"Task exceeded timeout of {timeoutMs}ms." none

/-- A task that is not known yet is recorded and run. -/
def submit (topoOrder : List String) : Program NopTaskResult := do
  match ← ask (.get task.taskId) with
  | some _ =>
    let message := s!"Task '{task.taskId}' already exists."
    return .failure task.taskId ErrorCodes.taskAlreadyCompleted message none
  | none =>
    let startedAtMs ← ask .nowMs
    let record : NopTaskRecord := { taskId := task.taskId, frame := task, state := .pending, startedAtMs }
    -- a refusal of the store is dropped
    let _ ← ask (.save record)
    runLimited opts task topoOrder

/-- Nothing is returned where the validation of the graph panics. -/
def execute : Program (Option NopTaskResult) :=
  if task.delegateDepth ≥ maxDelegateChainDepth then
    done (some (.failure task.taskId ErrorCodes.delegateChainTooDeep
      s!"Delegation chain depth {task.delegateDepth} exceeds the maximum of {maxDelegateChainDepth}."
      none))
  else match (callbackUrl task).bind validateCallbackUrl with
  | some err => done (some (.failure task.taskId ErrorCodes.taskDagInvalid err none))
  | none =>
    match validateDag task.dag with
    | .error .overflow => done none
    | .error (.refused refusal) =>
      done (some (.failure task.taskId refusal.errorCode refusal.errorMessage none))
    | .ok topoOrder => some <$> submit opts task topoOrder

end Lifecycle

def cancel (taskId : String) : Program Unit := ask (.updateState taskId .cancelled)

end Nps.Nop
