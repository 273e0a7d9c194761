import NpsSdk.Lib.Json
import NpsSdk.Lib.Text

/-! Tasks, their graphs and the frames exchanged with workers. -/
namespace Nps.Nop
open Json

def maxDagNodes : Nat := 32
def maxDelegateChainDepth : Int := 3
def maxConditionLength : Nat := 512
def maxInputMappingDepth : Nat := 8
def maxTimeoutMs : Nat := 3600000

namespace ErrorCodes
def taskTimeout : String := "NOP-TASK-TIMEOUT"
def taskDagInvalid : String := "NOP-TASK-DAG-INVALID"
def taskDagCycle : String := "NOP-TASK-DAG-CYCLE"
def taskDagTooLarge : String := "NOP-TASK-DAG-TOO-LARGE"
def taskAlreadyCompleted : String := "NOP-TASK-ALREADY-COMPLETED"
def taskCancelled : String := "NOP-TASK-CANCELLED"
def delegateRejected : String := "NOP-DELEGATE-REJECTED"
def delegateChainTooDeep : String := "NOP-DELEGATE-CHAIN-TOO-DEEP"
def delegateTimeout : String := "NOP-DELEGATE-TIMEOUT"
def syncDependencyFailed : String := "NOP-SYNC-DEPENDENCY-FAILED"
def streamSeqGap : String := "NOP-STREAM-SEQ-GAP"
def streamNidMismatch : String := "NOP-STREAM-NID-MISMATCH"
def resourceInsufficient : String := "NOP-RESOURCE-INSUFFICIENT"
def conditionEvalError : String := "NOP-CONDITION-EVAL-ERROR"
def inputMappingError : String := "NOP-INPUT-MAPPING-ERROR"
def compensationFailed : String := "NOP-COMPENSATION-FAILED"
def compensationNotSupported : String := "NOP-COMPENSATION-NOT-SUPPORTED"
end ErrorCodes

inductive TaskState where
  | pending | preflight | running | waitingSync | completed | failed | cancelled | skipped
  | compensating | compensated
deriving DecidableEq, Repr

def TaskState.asStr : TaskState → String
  | pending => "pending"
  | preflight => "preflight"
  | running => "running"
  | waitingSync => "waiting_sync"
  | completed => "completed"
  | failed => "failed"
  | cancelled => "cancelled"
  | skipped => "skipped"
  | compensating => "compensating"
  | compensated => "compensated"

namespace CompensationPolicy

def runsOnFailure (policy : String) : Bool :=
  ["best_effort", "strict", "on_failure", "always"].contains policy

def runsOnSuccess (policy : String) : Bool := policy == "always"

def isStrict (policy : String) : Bool := policy == "strict"

end CompensationPolicy

structure RetryPolicy where
  maxRetries : Nat := 0
  backoff : String := "exponential"
  initialDelayMs : Nat := 1000
  maxDelayMs : Nat := 30000
  retryOn : Option (List String) := none

/-- The factors are integers or powers of two, so the delay is computed exactly. -/
def RetryPolicy.computeDelayMs (policy : RetryPolicy) (attempt : Nat) : Nat :=
  let factor :=
    if policy.backoff = "fixed" then 1
    else if policy.backoff = "linear" then attempt + 1
    else 2 ^ attempt
  min (policy.initialDelayMs * factor) policy.maxDelayMs

structure DagNode where
  id : String
  action : String
  agent : String
  inputFrom : Option (List String) := none
  inputMapping : Option Fields := none
  timeoutMs : Option Nat := none
  retryPolicy : Option RetryPolicy := none
  condition : Option String := none
  minRequired : Nat := 0
  compensateAction : Option String := none
  compensateParamsMapping : Option Fields := none

structure DagEdge where
  source : String
  target : String
deriving DecidableEq

structure TaskDag where
  nodes : List DagNode
  edges : List DagEdge := []

structure TaskContext where
  sessionId : Option String := none
  traceId : Option String := none
  spanId : Option String := none
  traceFlags : Option Nat := none
  baggage : Option (List (String × String)) := none
  custom : Option Value := none

structure TaskFrame where
  taskId : String
  dag : TaskDag
  timeoutMs : Nat := 30000
  maxRetries : Nat := 2
  priority : String := "normal"
  callbackUrl : Option String := none
  callbackSecret : Option String := none
  preflight : Bool := false
  context : Option TaskContext := none
  delegateDepth : Int := 0
  compensationPolicy : String := "best_effort"

structure NopOrchestratorOptions where
  maxConcurrentNodes : Nat
  validateSenderNid : Bool := true
  enableCallback : Bool := true
  callbackRetryBaseDelayMs : Nat := 1000
  defaultAggregateStrategy : String := "merge"

structure DelegateFrame where
  parentTaskId : String
  subtaskId : String
  nodeId : String
  targetAgentNid : String
  action : String
  params : Option Value
  delegatedScope : Value
  deadlineAt : String
  idempotencyKey : Option String
  priority : Option String
  context : Option TaskContext
  delegateDepth : Int
  targetClusterAnchor : Option String

structure StreamError where
  code : String
  message : String

/-- What the orchestrator reads of a worker's frame. -/
structure AlignStreamFrame where
  seq : Nat
  data : Option Value := none
  isFinal : Bool
  senderNid : String
  error : Option StreamError := none

structure PreflightResult where
  agentNid : String
  available : Bool
  unavailableReason : Option String := none

structure SagaCompensationResult where
  attempted : Nat
  succeeded : Nat
  failed : Nat
  failedNodeIds : List String

structure NopTaskResult where
  taskId : String
  finalState : TaskState
  aggregatedResult : Option Value := none
  errorCode : Option String := none
  errorMessage : Option String := none
  nodeResults : Fields := []
  compensation : Option SagaCompensationResult := none

namespace NopTaskResult

def success (taskId : String) (aggregatedResult : Option Value) (nodeResults : Fields)
    (compensation : Option SagaCompensationResult) : NopTaskResult :=
  { taskId, finalState := .completed, aggregatedResult, nodeResults, compensation }

def failure (taskId errorCode errorMessage : String)
    (compensation : Option SagaCompensationResult) : NopTaskResult :=
  { taskId, finalState := .failed, errorCode := some errorCode, errorMessage := some errorMessage,
    compensation }

def payload (result : NopTaskResult) : String :=
  let compensation (c : SagaCompensationResult) : Value := document [
    ("attempted", integer c.attempted), ("succeeded", integer c.succeeded),
    ("failed", integer c.failed), ("failed_node_ids", stringArray c.failedNodeIds)]
  let some? (key : String) (value : Option Value) : Fields := (value.map ((key, ·))).toList
  -- struct fields are written in order of declaration, absent ones not at all
  (Value.object ([("task_id", .string result.taskId),
      ("final_state", .string result.finalState.asStr)] ++
    some? "aggregated_result" result.aggregatedResult ++
    some? "error_code" (result.errorCode.map .string) ++
    some? "error_message" (result.errorMessage.map .string) ++
    [("node_results", .object result.nodeResults)] ++
    some? "compensation" (result.compensation.map compensation))).text

end NopTaskResult
end Nps.Nop
