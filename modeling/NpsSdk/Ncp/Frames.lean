import NpsSdk.Nip.Frames

/-! The frames of the native handshake and their wire dictionaries. -/
namespace Nps.Ncp
open Nps.Core Json
open Nps.Nip (getStr optStr stringList optStr_of_get stringList_of_get filterMap_asStr)

def optU64 (dict : FrameDict) (key : String) : Option UInt64 :=
  ((get key dict).bind Value.asU64).map .ofNat

def u64 (value : UInt64) : Value := .number (.int value.toNat)

structure CapsFrame where
  nodeId : Option String := none
  caps : List String := []
  anchorRef : Option String := none
  count : Option UInt64 := none
  data : List Value := []
  nextCursor : Option String := none
  tokenEst : Option UInt64 := none
  cached : Option Bool := none
  tokenizerUsed : Option String := none
  requestId : Option String := none
  payload : Option Value := none
  /-- The stable default encoding of ordinary session frames. -/
  negotiatedEncoding : Option String := none
  enabledEncodings : Option (List String) := none
  sessionVersion : Option String := none
  supportedProtocols : Option (List String) := none
  /-- The ordinary frame payload ceiling. -/
  maxFramePayload : Option UInt64 := none
  /-- Whether both peers support extended frame headers. -/
  extSupport : Option Bool := none
  maxConcurrentStreams : Option UInt64 := none

namespace CapsFrame

def toDict (frame : CapsFrame) : FrameDict :=
  let m := insertSome "node_id" (frame.nodeId.map .string) []
  let m := insertSome "caps" (if frame.caps = [] then none else some (stringArray frame.caps)) m
  let m := insertSome "anchor_ref" (frame.anchorRef.map .string) m
  let counted := frame.count.isSome || !frame.data.isEmpty
  let m := insertSome "count"
    (if counted then some (u64 (frame.count.getD (.ofNat frame.data.length))) else none) m
  let m := insertSome "data" (if counted then some (.array frame.data) else none) m
  let m := insertSome "next_cursor" (frame.nextCursor.map .string) m
  let m := insertSome "token_est" (frame.tokenEst.map u64) m
  let m := insertSome "cached" (frame.cached.map .bool) m
  let m := insertSome "tokenizer_used" (frame.tokenizerUsed.map .string) m
  let m := insertSome "request_id" (frame.requestId.map .string) m
  let m := insertSome "payload" frame.payload m
  let m := insertSome "negotiated_encoding" (frame.negotiatedEncoding.map .string) m
  let m := insertSome "enabled_encodings" (frame.enabledEncodings.map stringArray) m
  let m := insertSome "session_version" (frame.sessionVersion.map .string) m
  let m := insertSome "supported_protocols" (frame.supportedProtocols.map stringArray) m
  let m := insertSome "max_frame_payload" (frame.maxFramePayload.map u64) m
  let m := insertSome "ext_support" (frame.extSupport.map .bool) m
  insertSome "max_concurrent_streams" (frame.maxConcurrentStreams.map u64) m

def fromDict (dict : FrameDict) : NpsResult CapsFrame :=
  return {
    nodeId := optStr dict "node_id"
    caps := (stringList dict "caps").getD []
    anchorRef := optStr dict "anchor_ref"
    count := optU64 dict "count"
    data := ((get "data" dict).bind Value.asArray).getD []
    nextCursor := optStr dict "next_cursor"
    tokenEst := optU64 dict "token_est"
    cached := (get "cached" dict).bind Value.asBool
    tokenizerUsed := optStr dict "tokenizer_used"
    requestId := optStr dict "request_id"
    payload := get "payload" dict
    negotiatedEncoding := optStr dict "negotiated_encoding"
    enabledEncodings := stringList dict "enabled_encodings"
    sessionVersion := optStr dict "session_version"
    supportedProtocols := stringList dict "supported_protocols"
    maxFramePayload := optU64 dict "max_frame_payload"
    extSupport := (get "ext_support" dict).bind Value.asBool
    maxConcurrentStreams := optU64 dict "max_concurrent_streams" }

end CapsFrame

structure HelloFrame where
  npsVersion : String
  supportedEncodings : List String
  supportedProtocols : List String
  minVersion : Option String := none
  agentId : Option String := none
  maxFramePayload : UInt64 := 0xFFFF
  extSupport : Bool := false
  maxConcurrentStreams : UInt64 := 32
  e2eEncAlgorithms : Option (List String) := none
  /-- The keepalive interval in milliseconds; 0 means disabled. -/
  pingIntervalMs : UInt64 := 0
deriving DecidableEq

namespace HelloFrame

def toDict (frame : HelloFrame) : FrameDict :=
  let m := insert "nps_version" (.string frame.npsVersion) []
  let m := insert "supported_encodings" (stringArray frame.supportedEncodings) m
  let m := insert "supported_protocols" (stringArray frame.supportedProtocols) m
  let m := insert "max_frame_payload" (u64 frame.maxFramePayload) m
  let m := insert "ext_support" (.bool frame.extSupport) m
  let m := insert "max_concurrent_streams" (u64 frame.maxConcurrentStreams) m
  let m := insertSome "min_version" (frame.minVersion.map .string) m
  let m := insertSome "agent_id" (frame.agentId.map .string) m
  let m := insertSome "e2e_enc_algorithms" (frame.e2eEncAlgorithms.map stringArray) m
  insertSome "ping_interval_ms"
    (if frame.pingIntervalMs > 0 then some (u64 frame.pingIntervalMs) else none) m

def fromDict (dict : FrameDict) : NpsResult HelloFrame := do
  let npsVersion ← getStr dict "nps_version"
  return {
    npsVersion
    supportedEncodings := (stringList dict "supported_encodings").getD []
    supportedProtocols := (stringList dict "supported_protocols").getD []
    minVersion := optStr dict "min_version"
    agentId := optStr dict "agent_id"
    maxFramePayload := (optU64 dict "max_frame_payload").getD 0xFFFF
    extSupport := ((get "ext_support" dict).bind Value.asBool).getD false
    maxConcurrentStreams := (optU64 dict "max_concurrent_streams").getD 32
    e2eEncAlgorithms := stringList dict "e2e_enc_algorithms"
    pingIntervalMs := (optU64 dict "ping_interval_ms").getD 0 }

end HelloFrame

structure ErrorFrame where
  errorCode : String
  message : String
  detail : Option Value := none

namespace ErrorFrame

def toDict (frame : ErrorFrame) : FrameDict :=
  insertSome "detail" frame.detail
    (insert "message" (.string frame.message) (insert "error_code" (.string frame.errorCode) []))

def fromDict (dict : FrameDict) : NpsResult ErrorFrame := do
  let errorCode ← getStr dict "error_code"
  let message ← getStr dict "message"
  return { errorCode, message, detail := get "detail" dict }

end ErrorFrame

theorem optU64_of_get {dict : FrameDict} {key : String} {field : Option UInt64}
    (stored : get key dict = field.map u64) : optU64 dict key = field := by
  rw [optU64, stored]
  cases field with
  | none => rfl
  | some value =>
    have small : Value.asU64 (u64 value) = some value.toNat := if_pos value.toNat_lt
    simp only [Option.map_some, Option.bind_some, small, UInt64.ofNat_toNat]

theorem bool_of_get {dict : FrameDict} {key : String} {field : Option Bool}
    (stored : get key dict = field.map .bool) : (get key dict).bind Value.asBool = field := by
  rw [stored]
  cases field <;> rfl

namespace CapsFrame
variable (frame : CapsFrame)

/-- The count a reader finds: a frame with data is counted even when it does not say so. -/
def counted : Option UInt64 :=
  if frame.count.isSome || !frame.data.isEmpty then
    some (frame.count.getD (.ofNat frame.data.length))
  else none

/-- Which value the dictionary holds under each of its keys. -/
theorem get_toDict :
    get "node_id" frame.toDict = frame.nodeId.map .string ∧
    get "caps" frame.toDict =
      (if frame.caps = [] then none else some (stringArray frame.caps)) ∧
    get "anchor_ref" frame.toDict = frame.anchorRef.map .string ∧
    get "count" frame.toDict = frame.counted.map u64 ∧
    get "data" frame.toDict = frame.counted.map (fun _ => .array frame.data) ∧
    get "next_cursor" frame.toDict = frame.nextCursor.map .string ∧
    get "token_est" frame.toDict = frame.tokenEst.map u64 ∧
    get "cached" frame.toDict = frame.cached.map .bool ∧
    get "tokenizer_used" frame.toDict = frame.tokenizerUsed.map .string ∧
    get "request_id" frame.toDict = frame.requestId.map .string ∧
    get "payload" frame.toDict = frame.payload ∧
    get "negotiated_encoding" frame.toDict = frame.negotiatedEncoding.map .string ∧
    get "enabled_encodings" frame.toDict = frame.enabledEncodings.map stringArray ∧
    get "session_version" frame.toDict = frame.sessionVersion.map .string ∧
    get "supported_protocols" frame.toDict = frame.supportedProtocols.map stringArray ∧
    get "max_frame_payload" frame.toDict = frame.maxFramePayload.map u64 ∧
    get "ext_support" frame.toDict = frame.extSupport.map .bool ∧
    get "max_concurrent_streams" frame.toDict = frame.maxConcurrentStreams.map u64 := by
  have empty (key : String) : get key ([] : FrameDict) = none := rfl
  have count : frame.counted.map u64 = if frame.count.isSome || !frame.data.isEmpty then
      some (u64 (frame.count.getD (.ofNat frame.data.length))) else none := by
    unfold counted
    split <;> rfl
  have data : frame.counted.map (fun _ => Value.array frame.data) =
      if frame.count.isSome || !frame.data.isEmpty then some (.array frame.data) else none := by
    unfold counted
    split <;> rfl
  rw [count, data]
  simp (disch := decide) only [toDict, get_insertSome_ne, get_insertSome_self, empty,
    Option.or_none, and_self]

theorem fromDict_toDict : fromDict frame.toDict = .ok { frame with count := frame.counted } := by
  obtain ⟨nodeId, caps, anchorRef, count, data, nextCursor, tokenEst, cached, tokenizer, requestId,
    payload, negotiated, enabled, version, protocols, ceiling, ext, streams⟩ := get_toDict frame
  have listed : (stringList frame.toDict "caps").getD [] = frame.caps := by
    rw [stringList, caps]
    by_cases empty : frame.caps = []
    · simp [empty]
    · simp only [empty, if_false, stringArray, Option.bind_some, Value.asArray, Option.map_some,
        filterMap_asStr, Option.getD_some]
  have items : ((get "data" frame.toDict).bind Value.asArray).getD [] = frame.data := by
    rw [data, counted]
    by_cases shown : (frame.count.isSome || !frame.data.isEmpty) = true
    · simp only [shown, if_true, Option.map_some, Option.bind_some, Value.asArray, Option.getD_some]
    · simp only [Bool.or_eq_true, Bool.not_eq_true', not_or, Bool.not_eq_false,
        List.isEmpty_iff] at shown
      simp [shown.2, shown.1]
  simp only [fromDict, Outcome.pure_eq, listed, items, payload, optStr_of_get nodeId,
    optStr_of_get anchorRef, optU64_of_get count, optStr_of_get nextCursor, optU64_of_get tokenEst,
    bool_of_get cached, optStr_of_get tokenizer, optStr_of_get requestId, optStr_of_get negotiated,
    stringList_of_get enabled, optStr_of_get version, stringList_of_get protocols,
    optU64_of_get ceiling, bool_of_get ext, optU64_of_get streams]

end CapsFrame

/-- A hello is read back as it was sent. -/
theorem HelloFrame.fromDict_toDict (frame : HelloFrame) : fromDict frame.toDict = .ok frame := by
  have empty (key : String) : get key ([] : FrameDict) = none := rfl
  have held : get "nps_version" frame.toDict = some (.string frame.npsVersion) ∧
      get "supported_encodings" frame.toDict =
        (some frame.supportedEncodings).map stringArray ∧
      get "supported_protocols" frame.toDict =
        (some frame.supportedProtocols).map stringArray ∧
      get "max_frame_payload" frame.toDict = (some frame.maxFramePayload).map u64 ∧
      get "ext_support" frame.toDict = (some frame.extSupport).map .bool ∧
      get "max_concurrent_streams" frame.toDict = (some frame.maxConcurrentStreams).map u64 ∧
      get "min_version" frame.toDict = frame.minVersion.map .string ∧
      get "agent_id" frame.toDict = frame.agentId.map .string ∧
      get "e2e_enc_algorithms" frame.toDict = frame.e2eEncAlgorithms.map stringArray ∧
      get "ping_interval_ms" frame.toDict =
        (if frame.pingIntervalMs > 0 then some frame.pingIntervalMs else none).map u64 := by
    have ping : (if frame.pingIntervalMs > 0 then some frame.pingIntervalMs else none).map u64 =
        if frame.pingIntervalMs > 0 then some (u64 frame.pingIntervalMs) else none := by
      split <;> rfl
    rw [ping]
    simp (disch := decide) only [toDict, get_insertSome_ne, get_insertSome_self, get_insert_ne,
      get_insert_self, empty, Option.or_none, Option.map_some, and_self]
  obtain ⟨version, encodings, protocols, ceiling, ext, streams, least, agent, algorithms, ping⟩ :=
    held
  have interval : (if frame.pingIntervalMs > 0 then some frame.pingIntervalMs else none).getD 0 =
      frame.pingIntervalMs := by
    split
    · rfl
    · rename_i disabled
      exact (UInt64.le_zero_iff.mp (UInt64.not_lt.mp disabled)).symm
  simp only [fromDict, getStr, version, Option.bind_some, Value.asStr, Outcome.ok_bind,
    Outcome.pure_eq, stringList_of_get encodings, stringList_of_get protocols,
    optU64_of_get ceiling, bool_of_get ext, optU64_of_get streams, optStr_of_get least,
    optStr_of_get agent, stringList_of_get algorithms, optU64_of_get ping, interval,
    Option.getD_some]

end Nps.Ncp
