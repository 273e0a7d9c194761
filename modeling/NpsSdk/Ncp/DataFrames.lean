import NpsSdk.Ncp.Frames

/-! The frames of anchors, of changes to them, and of streams, and their wire dictionaries. -/
namespace Nps.Ncp
open Nps.Core Json
open Nps.Nip (getStr optStr stringList filterMap_asStr)

structure AnchorFrame where
  anchorId : String
  schema : Fields
  namespace_ : Option String
  description : Option String
  nodeType : Option String
  ttl : UInt64

namespace AnchorFrame

def toDict (frame : AnchorFrame) : FrameDict :=
  let m := insert "anchor_id" (.string frame.anchorId) []
  let m := insert "schema" (.object frame.schema) m
  let m := insert "ttl" (u64 frame.ttl) m
  let m := insertSome "namespace" (frame.namespace_.map .string) m
  let m := insertSome "description" (frame.description.map .string) m
  insertSome "node_type" (frame.nodeType.map .string) m

def fromDict (dict : FrameDict) : NpsResult AnchorFrame := do
  let anchorId ← getStr dict "anchor_id"
  return {
    anchorId
    schema := ((get "schema" dict).bind Value.asObject).getD []
    namespace_ := optStr dict "namespace"
    description := optStr dict "description"
    nodeType := optStr dict "node_type"
    ttl := (optU64 dict "ttl").getD 3600 }

end AnchorFrame

structure DiffFrame where
  anchorId : String
  newAnchorId : String
  patch : List Value

namespace DiffFrame

def toDict (frame : DiffFrame) : FrameDict :=
  let m := insert "anchor_id" (.string frame.anchorId) []
  let m := insert "new_anchor_id" (.string frame.newAnchorId) m
  insert "patch" (.array frame.patch) m

def fromDict (dict : FrameDict) : NpsResult DiffFrame := do
  let anchorId ← getStr dict "anchor_id"
  let newAnchorId ← getStr dict "new_anchor_id"
  return { anchorId, newAnchorId, patch := ((get "patch" dict).bind Value.asArray).getD [] }

end DiffFrame

structure StreamFrame where
  anchorId : String
  seq : UInt64
  payload : Value
  isLast : Bool

namespace StreamFrame

def toDict (frame : StreamFrame) : FrameDict :=
  let m := insert "anchor_id" (.string frame.anchorId) []
  let m := insert "seq" (u64 frame.seq) m
  let m := insert "payload" frame.payload m
  insert "is_last" (.bool frame.isLast) m

def fromDict (dict : FrameDict) : NpsResult StreamFrame := do
  let anchorId ← getStr dict "anchor_id"
  return {
    anchorId
    seq := (optU64 dict "seq").getD 0
    payload := (get "payload" dict).getD .null
    isLast := ((get "is_last" dict).bind Value.asBool).getD false }

end StreamFrame

section Fields

@[simp] theorem get_nil (key : String) : get key ([] : FrameDict) = none := rfl

@[simp] theorem asStr_string (text : String) : (Value.string text).asStr = some text := rfl

@[simp] theorem asBool_bool (flag : Bool) : (Value.bool flag).asBool = some flag := rfl

@[simp] theorem asArray_array (items : List Value) : (Value.array items).asArray = some items := rfl

@[simp] theorem asArray_stringArray (texts : List String) :
    (stringArray texts).asArray = some (texts.map .string) := rfl

@[simp] theorem asObject_object (entries : Fields) : (Value.object entries).asObject = some entries := rfl

@[simp] theorem asU64_u64 (value : UInt64) : (u64 value).asU64 = some value.toNat :=
  if_pos value.toNat_lt

@[simp] theorem bind_string (field : Option String) :
    (field.map Value.string).bind Value.asStr = field := by
  cases field <;> rfl

@[simp] theorem bind_bool (field : Option Bool) : (field.map Value.bool).bind Value.asBool = field := by
  cases field <;> rfl

@[simp] theorem bind_stringArray (field : Option (List String)) :
    (field.map stringArray).bind Value.asArray = field.map fun texts => texts.map .string := by
  cases field <;> rfl

@[simp] theorem bind_u64 (field : Option UInt64) :
    (field.map u64).bind Value.asU64 = field.map UInt64.toNat := by
  cases field <;> simp

@[simp] theorem ofNat_comp_toNat : UInt64.ofNat ∘ UInt64.toNat = id := by
  funext value
  exact UInt64.ofNat_toNat

@[simp] theorem filterMap_string (texts : List String) :
    texts.filterMap (Value.asStr ∘ Value.string) = texts := by
  rw [← List.filterMap_map, filterMap_asStr]

@[simp] theorem filterMap_comp_map :
    ((fun items => items.filterMap Value.asStr) ∘ fun texts : List String => texts.map Value.string) = id := by
  funext texts
  exact filterMap_asStr texts

end Fields

theorem AnchorFrame.fromDict_toDict (frame : AnchorFrame) : fromDict frame.toDict = .ok frame := by
  simp [fromDict, toDict, getStr, optStr, optU64, get_insert_ne, get_insertSome_ne]

theorem DiffFrame.fromDict_toDict (frame : DiffFrame) : fromDict frame.toDict = .ok frame := by
  simp [fromDict, toDict, getStr, get_insert_ne]

theorem StreamFrame.fromDict_toDict (frame : StreamFrame) : fromDict frame.toDict = .ok frame := by
  simp [fromDict, toDict, getStr, optU64, get_insert_ne]

end Nps.Ncp
