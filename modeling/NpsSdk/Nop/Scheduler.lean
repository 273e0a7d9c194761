import Mathlib.Data.List.Dedup
import NpsSdk.Nop.NodeExecution

/-! The run of a task's graph: nodes whose dependencies are settled are started, several at a
time, until all have settled or the task is given up; what was done is then compensated and
the results of the end nodes are put together. -/
namespace Nps.Nop
open Json (Value Fields)
open Interaction Prog

/-- Objects are merged, the later over the earlier; other results go under names of their own. -/
def mergeFrom : (i : Nat) → List Value → Fields → Fields
  | _, [], merged => merged
  | i, .object obj :: rest, merged =>
    mergeFrom (i + 1) rest (obj.foldl (fun merged entry => Json.insert entry.1 entry.2 merged) merged)
  | i, other :: rest, merged => mergeFrom (i + 1) rest (Json.insert s!"_result_{i}" other merged)

def aggregate (strategy : String) (results : List Value) (minRequired : Nat) : Value :=
  match results with
  | [] => .object []
  | first :: rest =>
    if strategy = "first" then first
    else if strategy = "all" then .array (first :: rest)
    else if strategy = "fastest_k" then
      .array ((first :: rest).take (if minRequired > 0 then minRequired else (first :: rest).length))
    else .object (mergeFrom 0 (first :: rest) [])

def aggregateEndNodes (endNodeIds : List String) (allResults : Fields) (strategy : String) : Value :=
  aggregate strategy (endNodeIds.filterMap (Json.get · allResults)) 0

abbrev NodeStates := List (String × TaskState)

namespace TaskDag
variable (dag : TaskDag)

/-- The keys of the map of all nodes. -/
def nodeIds : List String := (dag.nodes.map DagNode.id).dedup

/-- The map of all nodes keeps the last node of an id. -/
def node? (id : String) : Option DagNode := dag.nodes.reverse.find? (·.id = id)

def endNodes : List String := dag.nodeIds.filter (· ∉ dag.edges.map DagEdge.source)

end TaskDag

namespace DagNode
variable (node : DagNode) (states : NodeStates)

def deps : List String := node.inputFrom.getD []

def required : Nat := if node.minRequired > 0 then node.minRequired else node.deps.length

def succeeded : Nat :=
  node.deps.countP fun dep =>
    Json.get dep states = some .completed || Json.get dep states = some .skipped

def failed : Nat := node.deps.countP fun dep => Json.get dep states = some .failed

end DagNode

def areDepsDone (node : DagNode) (states : NodeStates) : Bool :=
  node.deps = [] || node.required ≤ node.succeeded states ||
    node.deps.length - node.failed states < node.required

/-- With no dependencies a node that is reached cannot recover. -/
def canEndNodeStillSucceed (dag : TaskDag) (states : NodeStates) (endNodeId : String) : Bool :=
  (dag.node? endNodeId).elim false fun node =>
    node.deps ≠ [] && node.required ≤ node.deps.length - node.failed states

/-- Breadth-first search; every edge enters the queue once at most. -/
def search (endNodeId : String) (edges : List DagEdge) :
    (fuel : Nat) → (queue visited : List String) → Bool
  | 0, _, _ => false
  | _, [], _ => false
  | fuel + 1, current :: queue, visited =>
    if current = endNodeId then true
    else if current ∈ visited then search endNodeId edges fuel queue visited
    else
      let neighbors := (edges.filter (·.source = current)).map DagEdge.target
      search endNodeId edges fuel (queue ++ neighbors) (current :: visited)

def canReachEndNode (endNodeId failedNodeId : String) (edges : List DagEdge) : Bool :=
  search endNodeId edges (edges.length + 2) [failedNodeId] []

section Compensation
variable (opts : NopOrchestratorOptions) (task : TaskFrame)

def blankAction (node : DagNode) : Bool :=
  (node.compensateAction.map fun action => decide (Text.trim action = "")).getD true

def compensationNode (node : DagNode) : DagNode :=
  { node with
    action := node.compensateAction.getD ""
    inputMapping := node.compensateParamsMapping }

/-- The nodes whose compensation failed, each of them tried once. -/
def compensateAll (nodeResults : Fields) : List DagNode → Program (List String)
  | [] => return []
  | node :: rest => do
    let subtaskId ← ask .newUuid
    let idempotencyKey ← ask .newUuid
    let outcome ← executeNodeOnce opts task (compensationNode node) subtaskId idempotencyKey nodeResults
    let failed ← compensateAll nodeResults rest
    return if outcome.state = .completed then failed else node.id :: failed

def completedNodes (topoOrder : List String) (nodeStates : NodeStates) : List DagNode :=
  ((topoOrder.filter fun id => Json.get id nodeStates = some .completed).filterMap
    task.dag.node?).reverse

def runSagaCompensation (topoOrder : List String) (nodeResults : Fields) (nodeStates : NodeStates) :
    Program SagaCompensationResult := do
  let completed := completedNodes task topoOrder nodeStates
  let missing := (completed.filter blankAction).map DagNode.id
  let toCompensate := completed.filter fun node => !blankAction node
  if CompensationPolicy.isStrict task.compensationPolicy ∧ missing ≠ [] then
    return ⟨0, 0, missing.length, missing⟩
  else if toCompensate = [] then return ⟨0, 0, 0, []⟩
  else
    ask (.updateState task.taskId .compensating)
    let failedIds ← compensateAll opts task nodeResults toCompensate
    return ⟨toCompensate.length, toCompensate.length - failedIds.length, failedIds.length, failedIds⟩

def compensationFailureErrorCode (compensation : Option SagaCompensationResult) : Option String :=
  if CompensationPolicy.isStrict task.compensationPolicy then
    (compensation.filter fun comp => comp.failed ≠ 0).map fun comp =>
      if comp.attempted = 0 then ErrorCodes.compensationNotSupported
      else ErrorCodes.compensationFailed
  else none

def compensateIf (runs : Bool) (topoOrder : List String) (nodeResults : Fields)
    (nodeStates : NodeStates) : Program (Option SagaCompensationResult) := do
  if runs then return some (← runSagaCompensation opts task topoOrder nodeResults nodeStates)
  else return none

end Compensation

/-- What the scheduler keeps from one round to the next. -/
structure Loop where
  nodeStates : NodeStates := []
  nodeResults : Fields := []
  inFlight : Futures Answer String NodeOutcome := []

/-- The ways out of the loop: there is nothing left to wait for, or an end node is lost. -/
inductive LoopEnd where
  | ended (loop : Loop)
  | aborted (loop : Loop) (failedNodeId : String) (outcome : NodeOutcome)

section Rounds
variable (opts : NopOrchestratorOptions) (task : TaskFrame)

def readyNodes (loop : Loop) : List DagNode :=
  task.dag.nodes.filter fun node =>
    (Json.get node.id loop.nodeStates).isNone && node.id ∉ loop.inFlight.map Prod.fst &&
      areDepsDone node loop.nodeStates

def unsatisfiable (node : DagNode) (states : NodeStates) : Bool :=
  node.deps ≠ [] && node.succeeded states < node.required

/-- Fail the ready nodes that have too few dependencies, and leave the others. -/
def failUnsatisfiable : List DagNode → NodeStates → Program (NodeStates × List DagNode)
  | [], states => return (states, [])
  | node :: rest, states => do
    if unsatisfiable node states then
      let subtaskId ← ask .newUuid
      updateSubtask task node subtaskId .failed
        { errorCode := some ErrorCodes.syncDependencyFailed
          errorMessage := some
            s!"Only {node.succeeded states}/{node.required} required dependencies succeeded."
          attempt := 1 }
      failUnsatisfiable rest (Json.insert node.id .failed states)
    else
      let (states', ready) ← failUnsatisfiable rest states
      return (states', node :: ready)

def mustAbort (endNodeIds : List String) (failedNodeId : String) (states : NodeStates) : Bool :=
  endNodeIds.any fun endNodeId =>
    canReachEndNode endNodeId failedNodeId task.dag.edges &&
      !canEndNodeStillSucceed task.dag states endNodeId

/-- Wait for all that is in flight; what comes of it is not looked at. -/
def drain : (count : Nat) → Futures Answer String NodeOutcome → Program Unit
  | 0, _ => return ()
  | count + 1, inFlight => do
    let choices ← ask .choose
    match ← awaitNext choices inFlight with
    | none => return ()
    | some (_, rest) => drain count rest

def Loop.settle (loop : Loop) (inFlight : Futures Answer String NodeOutcome) (nodeId : String)
    (outcome : NodeOutcome) : Loop where
  nodeStates := Json.insert nodeId outcome.state loop.nodeStates
  nodeResults :=
    if outcome.state = .completed then Json.insertSome nodeId outcome.result loop.nodeResults
    else loop.nodeResults
  inFlight

variable [CharClasses]

/-- Start ready nodes, each with the results so far, as long as there is room. -/
def launch (loop : Loop) (ready : List DagNode) : Futures Answer String NodeOutcome :=
  loop.inFlight ++ (ready.take (opts.maxConcurrentNodes - loop.inFlight.length)).map fun node =>
    (node.id, executeNodeWithRetry opts task node loop.nodeResults)

/-- One turn of the loop: the state after it, or the end. -/
def round (endNodeIds : List String) (loop : Loop) : Program (Loop ⊕ LoopEnd) := do
  if task.dag.nodeIds.length ≤ loop.nodeStates.length then return .inr (.ended loop)
  else
    let (nodeStates, ready) ← failUnsatisfiable task (readyNodes task loop) loop.nodeStates
    let loop := { loop with nodeStates, inFlight := launch opts task loop ready }
    if loop.inFlight.isEmpty then return .inr (.ended loop)
    else
      let choices ← ask .choose
      match ← awaitNext choices loop.inFlight with
      | none => return .inr (.ended loop)
      | some ((nodeId, outcome), inFlight) =>
        let loop := loop.settle inFlight nodeId outcome
        if outcome.state = .failed ∧ mustAbort task endNodeIds nodeId loop.nodeStates then
          drain loop.inFlight.length loop.inFlight
          return .inr (.aborted loop nodeId outcome)
        else return .inl loop

/-- Every round but the last settles a node, so there are no more rounds than nodes. -/
def dagLoop (endNodeIds : List String) : (fuel : Nat) → Loop → Program LoopEnd
  | 0, loop => return .ended loop
  | fuel + 1, loop => do
    match ← round opts task endNodeIds loop with
    | .inl loop => dagLoop endNodeIds fuel loop
    | .inr last => return last

end Rounds

section Conclusion
variable (opts : NopOrchestratorOptions) (task : TaskFrame)

def failedNodes (states : NodeStates) : List String :=
  (states.filter (·.2 = .failed)).map Prod.fst

def syncFailure (compensation : Option SagaCompensationResult) (message : String) : NopTaskResult :=
  .failure task.taskId
    ((compensationFailureErrorCode task compensation).getD ErrorCodes.syncDependencyFailed) message
    compensation

/-- The result of the task after the loop. -/
def conclude (topoOrder endNodeIds : List String) : LoopEnd → Program NopTaskResult
  | .aborted loop failedNodeId outcome => do
    let compensation ← compensateIf opts task
      (CompensationPolicy.runsOnFailure task.compensationPolicy) topoOrder loop.nodeResults
      loop.nodeStates
    let code := outcome.errorCode.getD ""
    return syncFailure task compensation s!"Node '{failedNodeId}' failed: {code}"
  | .ended loop => do
    let endFailed := endNodeIds.any fun id => Json.get id loop.nodeStates = some .failed
    if failedNodes loop.nodeStates ≠ [] ∧ endFailed then
      let compensation ← compensateIf opts task
        (CompensationPolicy.runsOnFailure task.compensationPolicy) topoOrder loop.nodeResults
        loop.nodeStates
      let failed := String.intercalate ", " (failedNodes loop.nodeStates)
      return syncFailure task compensation s!"End node(s) failed: {failed}"
    else
      let aggregated := aggregateEndNodes endNodeIds loop.nodeResults opts.defaultAggregateStrategy
      let compensation ← compensateIf opts task
        (CompensationPolicy.runsOnSuccess task.compensationPolicy) topoOrder loop.nodeResults
        loop.nodeStates
      return .success task.taskId (some aggregated) loop.nodeResults compensation

variable [CharClasses]

def runDag (topoOrder : List String) : Program NopTaskResult := do
  let endNodeIds ← ask (.iterate task.dag.endNodes)
  let last ← dagLoop opts task endNodeIds (task.dag.nodeIds.length + 1) {}
  conclude opts task topoOrder endNodeIds last

end Conclusion
end Nps.Nop
