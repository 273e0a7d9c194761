import NpsSdk.Nop.Condition
import NpsSdk.Nop.Store

/-! One node of a task: its condition, its delegation to a worker and its retries. -/
namespace Nps.Nop
open Json (Value Fields)
open Interaction Prog

structure NodeOutcome where
  state : TaskState
  result : Option Value := none
  errorCode : Option String := none
  errorMessage : Option String := none

def NodeOutcome.failed (errorCode : String) (errorMessage : Option String := none) : NodeOutcome :=
  { state := .failed, errorCode := some errorCode, errorMessage }

/-- Why a condition could not be evaluated; the evaluator does not panic. -/
def Fault.message : Fault → String
  | .refused e => e.message
  | .panicked => ""
  | .endless => ""

section Once
variable (opts : NopOrchestratorOptions) (task : TaskFrame) (node : DagNode)

/-- The outcome that the frames of a stream come to, none without a final frame. -/
def readStream : (lastSeq : Nat) → List AlignStreamFrame → Option NodeOutcome
  | _, [] => none
  | lastSeq, frame :: rest =>
    if frame.seq ≠ lastSeq ∧ frame.seq ≠ 0 ∧ frame.seq ≠ lastSeq + 1 then
      some (.failed ErrorCodes.streamSeqGap)
    else if opts.validateSenderNid ∧ frame.senderNid ≠ node.agent then
      some (.failed ErrorCodes.streamNidMismatch)
    else if frame.isFinal then
      match frame.error with
      | some e => some (.failed e.code e.message)
      | none => some { state := .completed, result := frame.data }
    else readStream frame.seq rest

def nodeTimeoutMs : Nat := min (node.timeoutMs.getD task.timeoutMs) maxTimeoutMs

def streamOutcome (delegation : Delegation) : NodeOutcome :=
  match readStream opts node 0 delegation.frames with
  | some outcome => outcome
  | none => .failed ErrorCodes.delegateTimeout <| some <|
      if delegation.timedOut then s!"Node '{node.id}' timed out after {nodeTimeoutMs task node}ms."
      else "Stream ended without final frame."

def delegateFrame (subtaskId idempotencyKey : String) (params : Value) (nowMs : Nat) :
    DelegateFrame where
  parentTaskId := task.taskId
  subtaskId
  nodeId := node.id
  targetAgentNid := node.agent
  action := node.action
  params := some params
  delegatedScope := .object []
  deadlineAt := toString (nowMs + nodeTimeoutMs task node)
  idempotencyKey := some idempotencyKey
  priority := some task.priority
  context := task.context <|> some {}
  delegateDepth := task.delegateDepth + 1
  targetClusterAnchor := none

def executeNodeOnce (subtaskId idempotencyKey : String) (context : Fields) :
    Program NodeOutcome :=
  match buildParams node.inputMapping context with
  | .error e => done (.failed e.errorCode e.message)
  | .ok params => do
    let now ← ask .nowMs
    let frame := delegateFrame task node subtaskId idempotencyKey params now
    let delegation ← ask (.delegate frame)
    return streamOutcome opts task node delegation

end Once

/-- An error is retried when the policy lists it, or lists none. -/
def shouldRetry (policy : Option RetryPolicy) (errorCode : Option String)
    (attempt maxRetries : Nat) : Bool :=
  if attempt > maxRetries then false
  else match policy.bind RetryPolicy.retryOn with
    | none => true
    | some [] => true
    | some retryOn => (errorCode.map retryOn.contains).getD true

section Retry
variable (opts : NopOrchestratorOptions) (task : TaskFrame) (node : DagNode)

def updateSubtask (subtaskId : String) (state : TaskState) (update : SubtaskUpdate) : Program Unit :=
  ask (.updateSubtask task.taskId node.id subtaskId state update)

def maxRetries : Nat := (node.retryPolicy.map RetryPolicy.maxRetries).getD task.maxRetries

def retryDelayMs (attempt : Nat) : Nat :=
  (node.retryPolicy.map fun policy => policy.computeDelayMs (attempt - 1)).getD 1000

/-- The attempts that are left, from one on. -/
def runAttempts (subtaskId idempotencyKey : String) (context : Fields) :
    (left : Nat) → (attempt : Nat) → Program NodeOutcome
  | 0, _ => do
    updateSubtask task node subtaskId .failed
      { errorCode := some ErrorCodes.delegateTimeout
        errorMessage := some s!"Node '{node.id}' exhausted {maxRetries task node} retries." }
    return .failed ErrorCodes.delegateTimeout
  | left + 1, attempt => do
    updateSubtask task node subtaskId .running { attempt }
    let outcome ← executeNodeOnce opts task node subtaskId idempotencyKey context
    if outcome.state = .completed then
      updateSubtask task node subtaskId .completed { result := outcome.result, attempt }
      return outcome
    else if !shouldRetry node.retryPolicy outcome.errorCode attempt (maxRetries task node) then
      updateSubtask task node subtaskId .failed
        { errorCode := outcome.errorCode, errorMessage := outcome.errorMessage, attempt }
      return outcome
    else
      ask (.sleep (retryDelayMs node attempt))
      runAttempts subtaskId idempotencyKey context left (attempt + 1)

variable [CharClasses]

/-- The condition decides once, before the first attempt, whether the node is run; without a
condition it is. -/
def executeNodeWithRetry (context : Fields) : Program NodeOutcome := do
  let subtaskId ← ask .newUuid
  let idempotencyKey ← ask .newUuid
  match Condition.evaluate (node.condition.getD "") context with
  | .ok true =>
    runAttempts opts task node subtaskId idempotencyKey context (maxRetries task node + 1) 1
  | .ok false =>
    updateSubtask task node subtaskId .skipped {}
    return { state := .skipped }
  | .error fault =>
    updateSubtask task node subtaskId .failed
      { errorCode := some ErrorCodes.conditionEvalError, errorMessage := some fault.message, attempt := 1 }
    return .failed ErrorCodes.conditionEvalError

end Retry
end Nps.Nop
