import NpsSdk.Ncp.DataFrames
import NpsSdk.Nop.ClusterDelegation

/-! The frames that tasks are sent and reported in, and their wire dictionaries. -/
namespace Nps.Nop.Frames
open Nps.Core Json
open Nps.Ncp (optU64 u64)
open Nps.Nip (getStr optStr stringList)
open ClusterDelegation (DelegateFrame)

def optI64 (dict : FrameDict) (key : String) : Option Int64 :=
  match get key dict with
  | some (.number n) => n.asI64.map .ofInt
  | _ => none

def i64 (value : Int64) : Value := .number (.int value.toInt)

structure TaskFrame where
  taskId : String
  dag : Value
  timeoutMs : Option UInt64 := none
  callbackUrl : Option String := none
  context : Option Value := none
  priority : Option String := none
  depth : Option Int64 := none
  compensationPolicy : Option String := none
  /-- How long the result is cached. -/
  resultTtlSeconds : UInt64 := 3600

namespace TaskFrame

def toDict (frame : TaskFrame) : FrameDict :=
  let m := insert "task_id" (.string frame.taskId) []
  let m := insert "dag" frame.dag m
  let m := insertSome "timeout_ms" (frame.timeoutMs.map u64) m
  let m := insertSome "callback_url" (frame.callbackUrl.map .string) m
  let m := insertSome "context" frame.context m
  let m := insertSome "priority" (frame.priority.map .string) m
  let m := insertSome "depth" (frame.depth.map i64) m
  let m := insertSome "compensation_policy" (frame.compensationPolicy.map .string) m
  insertSome "result_ttl_seconds"
    (if frame.resultTtlSeconds ≠ 3600 then some (u64 frame.resultTtlSeconds) else none) m

def fromDict (dict : FrameDict) : NpsResult TaskFrame := do
  let taskId ← getStr dict "task_id"
  return {
    taskId
    dag := (get "dag" dict).getD .null
    timeoutMs := optU64 dict "timeout_ms"
    callbackUrl := optStr dict "callback_url"
    context := get "context" dict
    priority := optStr dict "priority"
    depth := optI64 dict "depth"
    compensationPolicy := optStr dict "compensation_policy"
    resultTtlSeconds := (optU64 dict "result_ttl_seconds").getD 3600 }

end TaskFrame

namespace DelegateFrame

/-- The names of the specification, not those that older releases wrote. -/
def toDict (frame : DelegateFrame) : FrameDict :=
  let m := insert "parent_task_id" (.string frame.taskId) []
  let m := insert "subtask_id" (.string frame.subtaskId) m
  let m := insert "action" (.string frame.action) m
  let m := insert "target_agent_nid" (.string frame.targetNid) m
  let m := insertSome "inputs" frame.inputs m
  let m := insertSome "config" frame.config m
  let m := insertSome "idempotency_key" (frame.idempotencyKey.map .string) m
  insertSome "target_cluster_anchor" (frame.targetClusterAnchor.map .string) m

/-- The older names are still read. -/
def fromDict (dict : FrameDict) : NpsResult DelegateFrame := do
  let taskId ← (optStr dict "parent_task_id").elim (getStr dict "task_id") .ok
  let targetNid ← (optStr dict "target_agent_nid").elim (getStr dict "target_nid") .ok
  let subtaskId ← getStr dict "subtask_id"
  let action ← getStr dict "action"
  return {
    taskId, subtaskId, action, targetNid
    inputs := get "inputs" dict
    config := get "config" dict
    idempotencyKey := optStr dict "idempotency_key"
    targetClusterAnchor := optStr dict "target_cluster_anchor" }

end DelegateFrame

structure SyncFrame where
  taskId : String
  syncId : String
  subtaskIds : List String
  minRequired : Int64
  aggregate : String
  timeoutMs : Option UInt64 := none

namespace SyncFrame

def toDict (frame : SyncFrame) : FrameDict :=
  let m := insert "task_id" (.string frame.taskId) []
  let m := insert "sync_id" (.string frame.syncId) m
  let m := insert "subtask_ids" (stringArray frame.subtaskIds) m
  let m := insert "min_required" (i64 frame.minRequired) m
  let m := insert "aggregate" (.string frame.aggregate) m
  insertSome "timeout_ms" (frame.timeoutMs.map u64) m

def fromDict (dict : FrameDict) : NpsResult SyncFrame := do
  let taskId ← getStr dict "task_id"
  let syncId ← getStr dict "sync_id"
  return {
    taskId, syncId
    subtaskIds := (stringList dict "subtask_ids").getD []
    minRequired := (optI64 dict "min_required").getD 0
    aggregate := (optStr dict "aggregate").getD "merge"
    timeoutMs := optU64 dict "timeout_ms" }

end SyncFrame

structure AlignStreamFrame where
  syncId : String
  taskId : String
  subtaskId : String
  seq : UInt64
  isFinal : Bool
  sourceNid : Option String := none
  result : Option Value := none
  error : Option Value := none
  windowSize : Option UInt64 := none
  ackSeq : Option UInt64 := none
  nakSeq : Option UInt64 := none

namespace AlignStreamFrame

def toDict (frame : AlignStreamFrame) : FrameDict :=
  let m := insert "sync_id" (.string frame.syncId) []
  let m := insert "task_id" (.string frame.taskId) m
  let m := insert "subtask_id" (.string frame.subtaskId) m
  let m := insert "seq" (u64 frame.seq) m
  let m := insert "is_final" (.bool frame.isFinal) m
  let m := insertSome "source_nid" (frame.sourceNid.map .string) m
  let m := insertSome "result" frame.result m
  let m := insertSome "error" frame.error m
  let m := insertSome "window_size" (frame.windowSize.map u64) m
  let m := insertSome "ack_seq" (frame.ackSeq.map u64) m
  insertSome "nak_seq" (frame.nakSeq.map u64) m

def fromDict (dict : FrameDict) : NpsResult AlignStreamFrame := do
  let syncId ← getStr dict "sync_id"
  let taskId ← getStr dict "task_id"
  let subtaskId ← getStr dict "subtask_id"
  return {
    syncId, taskId, subtaskId
    seq := (optU64 dict "seq").getD 0
    isFinal := ((get "is_final" dict).bind Value.asBool).getD false
    sourceNid := optStr dict "source_nid"
    result := get "result" dict
    error := get "error" dict
    windowSize := optU64 dict "window_size"
    ackSeq := optU64 dict "ack_seq"
    nakSeq := optU64 dict "nak_seq" }

end AlignStreamFrame

theorem asI64_i64 (value : Int64) : (Number.int value.toInt).asI64 = some value.toInt :=
  if_pos ⟨value.le_toInt, value.toInt_lt⟩

theorem optI64_of_get {dict : FrameDict} {key : String} {field : Option Int64}
    (stored : get key dict = field.map i64) : optI64 dict key = field := by
  unfold optI64
  rw [stored]
  cases field with
  | none => rfl
  | some value => simp [i64, asI64_i64]

/-- A lifetime of an hour is left out, and is what a reader assumes. -/
theorem TaskFrame.fromDict_toDict (frame : TaskFrame) : fromDict frame.toDict = .ok frame := by
  have depth : optI64 frame.toDict "depth" = frame.depth :=
    optI64_of_get (by simp [toDict, get_insert_ne, get_insertSome_ne])
  have kept : (optU64 frame.toDict "result_ttl_seconds").getD 3600 = frame.resultTtlSeconds := by
    by_cases hour : frame.resultTtlSeconds = 3600
    · simp [optU64, toDict, hour, get_insert_ne, get_insertSome_ne]
    · simp [optU64, toDict, hour]
  simp only [fromDict, depth, kept]
  simp [toDict, getStr, optStr, optU64, get_insert_ne, get_insertSome_ne]

theorem DelegateFrame.fromDict_toDict (frame : DelegateFrame) :
    DelegateFrame.fromDict (DelegateFrame.toDict frame) = .ok frame := by
  simp [DelegateFrame.fromDict, DelegateFrame.toDict, getStr, optStr, get_insert_ne, get_insertSome_ne]

theorem SyncFrame.fromDict_toDict (frame : SyncFrame) : fromDict frame.toDict = .ok frame := by
  have least : optI64 frame.toDict "min_required" = some frame.minRequired :=
    optI64_of_get (by simp [toDict, get_insert_ne, get_insertSome_ne])
  simp only [fromDict, least]
  simp [toDict, getStr, optStr, optU64, stringList, get_insert_ne, get_insertSome_ne]

theorem AlignStreamFrame.fromDict_toDict (frame : AlignStreamFrame) : fromDict frame.toDict = .ok frame := by
  simp [fromDict, toDict, getStr, optStr, optU64, get_insert_ne, get_insertSome_ne]

end Nps.Nop.Frames
