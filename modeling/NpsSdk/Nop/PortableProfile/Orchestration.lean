import NpsSdk.Lib.Splitting
import NpsSdk.Nip.Platform
import NpsSdk.Nop.Models
import NpsSdk.Nop.PortableProfile.Topology

/-! The orchestration transcript of a portable task: its nodes are run in their stable topological
order, each by the outcomes that its script gives to its attempts. -/
namespace Nps.Nop.PortableProfile
open Json

/-- The operator that occurs first, with what stands before and after it. Of operators at one place
the one that is listed first is taken. -/
def firstOperator (expression : List Char) : List String → Option (String × List Char × List Char)
  | [] => none
  | operator :: rest =>
    match Text.breakOn operator.toList expression, firstOperator expression rest with
    | none, other => other
    | some (before, after), none => some (operator, before, after)
    | some (before, after), some other =>
      if other.2.1.length < before.length then some other else some (operator, before, after)

def operators : List String := ["==", "!=", ">=", "<=", ">", "<"]

/-- Follow the names of a path such as `$.node.field`. -/
def resolvePath (root : Value) (path : String) : Option Value := do
  let path ← Text.stripPrefix? "$." path
  (Text.split '.' path).foldlM field root

def compareNumbers (operator : String) (left right : ℚ) : Option Bool :=
  match operator with
  | "==" => some (left = right)
  | "!=" => some (left ≠ right)
  | ">" => some (left > right)
  | ">=" => some (left ≥ right)
  | "<" => some (left < right)
  | "<=" => some (left ≤ right)
  | _ => none

def compareValues (operator : String) (left right : Value) : Option Bool :=
  match operator with
  | "==" => some (left.same right)
  | "!=" => some (!left.same right)
  | _ => none

def evaluateCondition [Nip.Serde] (expression : String) (results : Fields) : Option Bool := do
  let (operator, before, after) ← firstOperator expression.toList operators
  let path := Text.trim (String.ofList before)
  let literal := Text.trim (String.ofList after)
  let left ← resolvePath (.object results) path
  let right ← (Nip.Serde.fromStr literal).toOption
  match left.asF64, right.asF64 with
  | some leftNumber, some rightNumber => compareNumbers operator leftNumber rightNumber
  | _, _ => compareValues operator left right

def resolveMapping (mapping results : Fields) : Option Fields :=
  mapping.mapM fun entry => do
    let value ← resolvePath (.object results) (← entry.2.asStr)
    return (entry.1, value)

/-- Whether the condition of a node holds, if it can be evaluated. -/
def conditionHolds [Nip.Serde] (node : Value) (results : Fields) : Option Bool :=
  match stringValue node "condition" with
  | some condition => evaluateCondition condition results
  | none => some true

/-- The parameters of a node that has a mapping, if they can be found. -/
def mappedParameters (node : Value) (results : Fields) : Option (Option Fields) :=
  match (field node "input_mapping").bind Value.asObject with
  | some mapping => (resolveMapping mapping results).map some
  | none => some none

inductive Word where
  | preflight | running | skipped | retrying | completed | failed | cancelled | compensating
  | compensated | compensationFailed
deriving DecidableEq

def Word.text : Word → String
  | preflight => "preflight"
  | running => "running"
  | skipped => "skipped"
  | retrying => "retrying"
  | completed => "completed"
  | failed => "failed"
  | cancelled => "cancelled"
  | compensating => "compensating"
  | compensated => "compensated"
  | compensationFailed => "compensation_failed"

inductive Event where
  | task (word : Word)
  | node (id : String) (word : Word)
  | attempt (id : String) (number : Nat)
deriving DecidableEq

def Event.text : Event → String
  | task word => "task:" ++ word.text
  | node id word => id ++ ":" ++ word.text
  | attempt id number => id ++ ":attempt:" ++ toString number

structure Report where
  events : List Event
  state : Word
  error : Option String := none
  aggregate : Value := .null
  states : List (String × Word) := []
  attempts : List (String × Nat) := []
  mapped : Fields := []
  compensation : List String := []

def buildResult (report : Report) : Value := document [
  ("events", stringArray (report.events.map Event.text)),
  ("terminal_state", .string report.state.text),
  ("error_code", optional report.error),
  ("aggregate", report.aggregate),
  ("node_states", .object (report.states.map fun entry => (entry.1, .string entry.2.text))),
  ("attempt_counts", .object (report.attempts.map fun entry => (entry.1, integer entry.2))),
  ("mapped_params", .object report.mapped),
  ("compensation_order", stringArray report.compensation)]

def emptyFailure (error : String) : Report :=
  { events := [.task .failed], state := .failed, error }

/-- What the evaluation has gathered before a node. -/
structure Transcript where
  events : List Event
  results : Fields := []
  states : List (String × Word) := []
  attempts : List (String × Nat) := []
  mapped : Fields := []

def Transcript.settle (t : Transcript) (id : String) (word : Word) : Transcript := {
  t with
  events := t.events ++ [.node id word]
  states := insert id word t.states
  attempts := insert id 0 t.attempts }

def Transcript.report (t : Transcript) (state : Word) (error : Option String) : Report := {
  events := t.events ++ [.task state]
  state
  error
  states := t.states
  attempts := t.attempts
  mapped := t.mapped }

def maxRetries (task node : Value) : Nat :=
  usizeValue node "max_retries" (usizeValue task "max_retries" 0)

def scriptedAttempts (node : Value) : List Value := ((field node "attempts").bind Value.asArray).getD []

def outcomeKind (outcome : Value) : String := (stringValue outcome "kind").getD ""

def outcomeResult (outcome : Value) : Value := (field outcome "result").getD (.object [])

def outcomeError (outcome : Value) : String :=
  if outcomeKind outcome = "timeout" then ErrorCodes.delegateTimeout
  else (stringValue outcome "error_code").getD ErrorCodes.delegateRejected

/-- Whether the node may be tried again after the outcome. -/
def mayRetry (node outcome : Value) : Bool :=
  let retryable := outcomeKind outcome = "timeout" || boolValue outcome "retryable" false
  let selected := match (field node "retry_on").bind Value.asArray with
    | none => true
    | some values => values.any fun value => value.asStr == some (outcomeError outcome)
  retryable && selected

structure Tried where
  count : Nat
  events : List Event := []
  error : Option String := none
  result : Option Value := none
  failed : Bool := false

def Tried.push (tried : Tried) (event : Event) : Tried :=
  { tried with events := tried.events ++ [event] }

/-- The attempts that are left to the node. -/
def tryOutcomes (id : String) (node : Value) (retries scripted : Nat) :
    List Value → Tried → Evaluating Tried
  | [], tried => .ok tried
  | outcome :: rest, tried => do
    let count ← addUsize tried.count 1
    let tried := { tried.push (.attempt id count) with count }
    if outcomeKind outcome = "success" then
      return { tried.push (.node id .completed) with result := some (outcomeResult outcome) }
    else
      let tried := { tried with error := some (outcomeError outcome) }
      -- the index of an attempt is one below its number
      if mayRetry node outcome ∧ count ≤ retries ∧ count < scripted then
        tryOutcomes id node retries scripted rest (tried.push (.node id .retrying))
      else return { tried.push (.node id .failed) with failed := true }

/-- Of the dependencies those that have not been seen are queued and marked as seen. -/
def enqueue (state : List String × List String) (dependency : String) : List String × List String :=
  if dependency ∈ state.2 then state else (state.1 ++ [dependency], dependency :: state.2)

/-- What the nodes in the queue depend on, directly or not. -/
def ancestors (nodes : Fields) : (fuel : Nat) → (pending seen : List String) →
    Evaluating (List String)
  | 0, _, _ => .error .endless
  | _ + 1, [], seen => .ok seen
  | fuel + 1, id :: pending, seen => do
    let node ← nodeAt nodes id
    let (pending, seen) := (dependencies node).foldl enqueue (pending, seen)
    ancestors nodes fuel pending seen

def anyNode (nodes : Fields) (test : Value → Bool) : List String → Evaluating Bool
  | [] => .ok false
  | id :: rest => do
    let node ← nodeAt nodes id
    if test node then return true else anyNode nodes test rest

structure Compensation where
  order : List String := []
  error : Option String := none
  states : List (String × Word)
  events : List Event

def Compensation.push (done : Compensation) (event : Event) : Compensation :=
  { done with events := done.events ++ [event] }

def Compensation.settle (done : Compensation) (id : String) (word : Word) : Compensation :=
  { done.push (.node id word) with states := insert id word done.states }

def unsupported (node : Value) : Bool := (field node "compensate_action").isNone

def rollBack (nodes : Fields) (strict : Bool) : List String → Compensation → Evaluating Compensation
  | [], done => .ok done
  | id :: rest, done => do
    let node ← nodeAt nodes id
    if unsupported node then rollBack nodes strict rest done
    else
      let done := { done.push (.node id .compensating) with order := done.order ++ [id] }
      if stringValue node "compensation_outcome" = some "failure" then
        let done := done.settle id .compensationFailed
        if strict then return { done with error := some ErrorCodes.compensationFailed }
        else rollBack nodes strict rest done
      else rollBack nodes strict rest (done.settle id .compensated)

def compensate (task : Value) (failedId : String) (topo : List String) (nodes : Fields)
    (states : List (String × Word)) (events : List Event) : Evaluating Compensation := do
  let policy := stringValue task "compensation_policy"
  if policy ≠ some "best_effort" ∧ policy ≠ some "strict" then return { states, events }
  else
    let strict := decide (policy = some "strict")
    let ancestors ← ancestors nodes (nodes.length + 2) [failedId] []
    let candidates := topo.reverse.filter fun id =>
      decide (id ∈ ancestors) && decide (get id states = some .completed)
    let lacking ← if strict then anyNode nodes unsupported candidates else .ok false
    if lacking then
      return { states, events, error := some ErrorCodes.compensationNotSupported }
    else rollBack nodes strict candidates { states, events }

/-- A field of a later result takes the place of an earlier one, or its items follow. -/
def mergeField (mergeAll : Bool) (output : Fields) (entry : String × Value) : Fields :=
  match mergeAll, get entry.1 output, entry.2 with
  | true, some (.array existing), .array incoming =>
    insert entry.1 (.array (existing ++ incoming)) output
  | _, _, value => insert entry.1 value output

def aggregateResults (task : Value) (topo : List String) (nodes : Fields)
    (states : List (String × Word)) (results : Fields) : Value :=
  let hasOutgoing := nodes.flatMap fun entry => dependencies entry.2
  let values := (topo.filter fun id =>
    decide (id ∉ hasOutgoing) && decide (get id states = some .completed)).filterMap (get · results)
  let mode := stringValue task "aggregate"
  if values.isEmpty then .null
  else if mode = some "all" then .array values
  else .object ((values.filterMap Value.asObject).foldl
    (fun output object => object.foldl (mergeField (mode = some "merge_all")) output) [])

inductive Step where
  | next (t : Transcript)
  | stop (report : Report)

section Evaluation
variable [Nip.Serde] (task : Value) (nodes : Fields) (topo : List String)

def failNode (id : String) (error : String) (t : Transcript) : Step :=
  .stop ((t.settle id .failed).report .failed (some error))

def attemptNode (id : String) (node : Value) (t : Transcript) : Evaluating Step := do
  let retries := maxRetries task node
  let scripted := scriptedAttempts node
  let limit ← addUsize retries 1
  let tried ← tryOutcomes id node retries scripted.length (scripted.take limit) { count := 0 }
  let events := t.events ++ tried.events
  let attempts := insert id tried.count t.attempts
  match tried.result with
  | some result =>
    return .next {
      t with
      events
      attempts
      results := insert id result t.results
      states := insert id .completed t.states }
  | none =>
    let states := if tried.failed then insert id .failed t.states else t.states
    let compensation ← compensate task id topo nodes states events
    return .stop {
      events := compensation.events ++ [.task .failed]
      state := .failed
      error := some ((compensation.error.or tried.error).getD ErrorCodes.delegateRejected)
      states := compensation.states
      attempts
      mapped := t.mapped
      compensation := compensation.order }

def runNode (id : String) (t : Transcript) : Evaluating Step := do
  let node ← nodeAt nodes id
  if stringValue task "cancel_before" = some id then
    return .stop (t.report .cancelled (some ErrorCodes.taskCancelled))
  else match conditionHolds node t.results with
  | none => return failNode id ErrorCodes.conditionEvalError t
  | some false => return .next (t.settle id .skipped)
  | some true =>
    match mappedParameters node t.results with
    | none => return failNode id ErrorCodes.inputMappingError t
    | some none => attemptNode task nodes topo id node t
    | some (some parameters) =>
      attemptNode task nodes topo id node
        { t with mapped := insert id (.object parameters) t.mapped }

def runNodes : List String → Transcript → Evaluating Report
  | [], t => .ok {
      t.report .completed none with
      aggregate := aggregateResults task topo nodes t.states t.results }
  | id :: rest, t => do
    match ← runNode task nodes topo id t with
    | .next t => runNodes rest t
    | .stop report => return report

def unavailable (node : Value) : Bool := !boolValue node "preflight_available" true

def orchestrate : Evaluating Report := do
  if boolValue task "preflight" false then
    if ← anyNode nodes unavailable topo then
      return {
        events := [.task .preflight, .task .failed]
        state := .failed
        error := some ErrorCodes.resourceInsufficient }
    else runNodes task nodes topo topo { events := [.task .preflight, .task .running] }
  else runNodes task nodes topo topo { events := [.task .running] }

end Evaluation

def evaluateOrchestration [Nip.Serde] (task : Value) : Evaluating Value := do
  match taskNodes task with
  | none => return buildResult (emptyFailure ErrorCodes.taskDagInvalid)
  | some nodes =>
    match ← stableTopology nodes with
    | none => return buildResult (emptyFailure ErrorCodes.taskDagCycle)
    | some topo => return buildResult (← orchestrate task nodes topo)

end Nps.Nop.PortableProfile
