import NpsSdk.Lib.Assoc
import NpsSdk.Lib.Futures
import NpsSdk.Nop.Models

/-! The task store, and the operations through which the orchestrator acts on it, on the
workers and on its clock. -/
namespace Nps.Nop
open Json (Value Fields)
open Interaction

structure NopSubtaskRecord where
  nodeId : String
  subtaskId : String
  state : TaskState
  result : Option Value := none
  errorCode : Option String := none
  errorMessage : Option String := none
  attemptCount : Int := 0

structure NopTaskRecord where
  taskId : String
  frame : TaskFrame
  state : TaskState
  startedAtMs : Nat
  completedAtMs : Option Nat := none
  subtasks : Assoc String NopSubtaskRecord := ∅

structure SubtaskUpdate where
  result : Option Value := none
  errorCode : Option String := none
  errorMessage : Option String := none
  attempt : Int := 0

def NopSubtaskRecord.apply (sub : NopSubtaskRecord) (state : TaskState) (update : SubtaskUpdate) :
    NopSubtaskRecord :=
  { sub with
    state
    attemptCount := if update.attempt > 0 then update.attempt else sub.attemptCount
    result := update.result <|> sub.result
    errorCode := update.errorCode <|> sub.errorCode
    errorMessage := update.errorMessage <|> sub.errorMessage }

abbrev InMemoryNopTaskStore := Assoc String NopTaskRecord

namespace InMemoryNopTaskStore
variable (tasks : InMemoryNopTaskStore)

def save (record : NopTaskRecord) : Except String Unit × InMemoryNopTaskStore :=
  if (tasks.lookup record.taskId).isSome then
    (.error s!"Task already exists: {record.taskId}", tasks)
  else (.ok (), tasks.insert record.taskId record)

def updateState (taskId : String) (state : TaskState) : InMemoryNopTaskStore :=
  tasks.modify taskId fun record => { record with state }

def updateSubtask (taskId nodeId subtaskId : String) (state : TaskState)
    (update : SubtaskUpdate) : InMemoryNopTaskStore :=
  tasks.modify taskId fun record =>
    let sub := (record.subtasks.lookup nodeId).getD { nodeId, subtaskId, state }
    { record with subtasks := record.subtasks.insert nodeId (sub.apply state update) }

end InMemoryNopTaskStore

/-- The frames of a worker's stream until it ends, or until the time of the node is over. -/
structure Delegation where
  frames : List AlignStreamFrame
  timedOut : Bool := false

inductive Op where
  | get (taskId : String)
  | save (record : NopTaskRecord)
  | updateState (taskId : String) (state : TaskState)
  | updateSubtask (taskId nodeId subtaskId : String) (state : TaskState) (update : SubtaskUpdate)
  | newUuid
  | nowMs
  | sleep (ms : Nat)
  | delegate (frame : DelegateFrame)
  | preflight (agentNid action : String) (estimatedNpt : Int)
      (requiredCapabilities : Option (List String))
  /-- Whether the time limit that a program runs under is over. -/
  | timeUp (limitMs : Nat)
  /-- The futures that the executor polls next, by their positions. -/
  | choose
  /-- The keys of a hash map in the order in which they are visited. -/
  | iterate (keys : List String)
  | post (url : String) (signature : Option String) (payload : String)

abbrev Answer : Op → Type
  | .get _ => Option NopTaskRecord
  | .save _ => Except String Unit
  | .updateState _ _ => Unit
  | .updateSubtask _ _ _ _ _ => Unit
  | .newUuid => String
  | .nowMs => Nat
  | .sleep _ => Unit
  | .delegate _ => Delegation
  | .preflight _ _ _ _ => PreflightResult
  | .timeUp _ => Bool
  | .choose => List Nat
  | .iterate _ => List String
  | .post _ _ _ => Bool

abbrev Program (α : Type) := Prog Answer α

abbrev ask (op : Op) : Program (Answer op) := Prog.perform op

/-- What an operation answers and leaves of the tasks: workers, clocks and the executor answer
as they like. -/
def exec : (op : Op) → InMemoryNopTaskStore → Answer op → InMemoryNopTaskStore → Prop
  | .get taskId, s, answer, t => answer = s.lookup taskId ∧ t = s
  | .save record, s, answer, t => (answer, t) = s.save record
  | .updateState taskId state, s, _, t => t = s.updateState taskId state
  | .updateSubtask taskId nodeId subtaskId state update, s, _, t =>
    t = s.updateSubtask taskId nodeId subtaskId state update
  | .iterate keys, s, answer, t => answer.Perm keys ∧ t = s
  | .newUuid, s, _, t => t = s
  | .nowMs, s, _, t => t = s
  | .sleep _, s, _, t => t = s
  | .delegate _, s, _, t => t = s
  | .preflight _ _ _ _, s, _, t => t = s
  | .timeUp _, s, _, t => t = s
  | .choose, s, _, t => t = s
  | .post _ _ _, s, _, t => t = s

end Nps.Nop
