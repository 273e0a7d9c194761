import NpsSdk.Ncp.DataFrames

/-! The frames of queries and actions, and their wire dictionaries. -/
namespace Nps.Nwp.Frames
open Nps.Core Json
open Nps.Ncp (optU64 u64)
open Nps.Nip (getStr optStr stringList)

structure QueryFrame where
  anchorRef : String
  filter : Option Value := none
  order : Option Value := none
  fields : Option (List String) := none
  vectorSearch : Option Value := none
  cursor : Option String := none
  tokenBudget : Option UInt64 := none
  tokenizer : Option String := none
  requestId : Option String := none
  autoAnchor : Option Bool := none
  stream : Option Bool := none
  aggregate : Option Value := none
  limit : Option UInt64 := none
  offset : Option UInt64 := none
  depth : Option UInt64 := none

namespace QueryFrame

def toDict (frame : QueryFrame) : FrameDict :=
  let m := insert "anchor_ref" (.string frame.anchorRef) []
  let m := insertSome "filter" frame.filter m
  let m := insertSome "order" frame.order m
  let m := insertSome "fields" (frame.fields.map stringArray) m
  let m := insertSome "vector_search" frame.vectorSearch m
  let m := insertSome "cursor" (frame.cursor.map .string) m
  let m := insertSome "token_budget" (frame.tokenBudget.map u64) m
  let m := insertSome "tokenizer" (frame.tokenizer.map .string) m
  let m := insertSome "request_id" (frame.requestId.map .string) m
  let m := insertSome "auto_anchor" (frame.autoAnchor.map .bool) m
  let m := insertSome "stream" (frame.stream.map .bool) m
  let m := insertSome "aggregate" frame.aggregate m
  let m := insertSome "limit" (frame.limit.map u64) m
  let m := insertSome "offset" (frame.offset.map u64) m
  insertSome "depth" (frame.depth.map u64) m

/-- An order may have an older name. -/
def fromDict (dict : FrameDict) : NpsResult QueryFrame := do
  let anchorRef ← getStr dict "anchor_ref"
  return {
    anchorRef
    filter := get "filter" dict
    order := (get "order" dict).or (get "order_by" dict)
    fields := stringList dict "fields"
    vectorSearch := get "vector_search" dict
    cursor := optStr dict "cursor"
    tokenBudget := optU64 dict "token_budget"
    tokenizer := optStr dict "tokenizer"
    requestId := optStr dict "request_id"
    autoAnchor := (get "auto_anchor" dict).bind Value.asBool
    stream := (get "stream" dict).bind Value.asBool
    aggregate := get "aggregate" dict
    limit := optU64 dict "limit"
    offset := optU64 dict "offset"
    depth := optU64 dict "depth" }

end QueryFrame

structure ActionFrame where
  action : String
  params : Option Value := none
  anchorRef : Option String := none
  async_ : Bool := false
  idempotencyKey : Option String := none
  timeoutMs : Option UInt32 := none
  requestId : Option String := none

def u32 (value : UInt32) : Value := .number (.int value.toNat)

namespace ActionFrame

def toDict (frame : ActionFrame) : FrameDict :=
  let m := insert "action_id" (.string frame.action) []
  let m := insert "action" (.string frame.action) m
  let m := insert "async" (.bool frame.async_) m
  let m := insertSome "params" frame.params m
  let m := insertSome "anchor_ref" (frame.anchorRef.map .string) m
  let m := insertSome "request_id" (frame.requestId.map .string) m
  let m := insertSome "idempotency_key" (frame.idempotencyKey.map .string) m
  insertSome "timeout_ms" (frame.timeoutMs.map u32) m

/-- The action under its name, or under the older one if that is missing. -/
def actionOf (dict : FrameDict) : Option String :=
  ((get "action_id" dict).or (get "action" dict)).bind Value.asStr

/-- The timeout keeps its last 32 bits. -/
def fromDict (dict : FrameDict) : NpsResult ActionFrame := do
  let action ← (actionOf dict).elim (.error (.frame "missing field: action_id")) .ok
  return {
    action
    params := get "params" dict
    anchorRef := optStr dict "anchor_ref"
    async_ := ((get "async" dict).bind Value.asBool).getD false
    idempotencyKey := optStr dict "idempotency_key"
    timeoutMs := (optU64 dict "timeout_ms").map UInt64.toUInt32
    requestId := optStr dict "request_id" }

end ActionFrame

theorem QueryFrame.fromDict_toDict (frame : QueryFrame) : fromDict frame.toDict = .ok frame := by
  simp [fromDict, toDict, getStr, optStr, optU64, stringList, get_insert_ne, get_insertSome_ne]

@[simp] theorem bind_u32 (field : Option UInt32) :
    (field.map u32).bind Value.asU64 = field.map UInt32.toNat := by
  cases field with
  | none => rfl
  | some value => exact if_pos (Nat.lt_trans value.toNat_lt (by decide))

@[simp] theorem toUInt32_comp_ofNat : UInt64.toUInt32 ∘ UInt64.ofNat ∘ UInt32.toNat = id := by
  funext value
  simp

theorem ActionFrame.fromDict_toDict (frame : ActionFrame) : fromDict frame.toDict = .ok frame := by
  simp [fromDict, actionOf, toDict, optStr, optU64, get_insert_ne, get_insertSome_ne]

end Nps.Nwp.Frames
