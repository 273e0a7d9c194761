import NpsSdk.Lib.JsonOrder
import NpsSdk.Ncp.Frames

/-! The announcement of a node and its wire dictionaries. -/
namespace Nps.Ndp
open Nps.Core Json
open Nps.Nip (getStr optStr stringList optStr_of_get stringList_of_get filterMap_asStr)
open Nps.Ncp (optU64 u64 optU64_of_get)

structure AnnounceFrame where
  nid : String
  addresses : List Fields := []
  caps : List String := []
  ttl : UInt64
  timestamp : String
  signature : String := ""
  nodeType : Option String := none
  nodeRoles : Option (List String) := none
  clusterAnchor : Option String := none
  /-- Absent means 1; the field itself is signed as it is. -/
  clusterEpoch : Option UInt64 := none
  spawnSpecRef : Option String := none
  bridgeProtocols : Option (List String) := none
  bridgeInboundProtocols : Option (List String) := none
  activationMode : Option String := none
  activationEndpoint : Option Fields := none
  heartbeatIntervalMs : UInt64 := 60000
  /-- Not signed, as the next field. -/
  health : Option String := none
  lastSeen : Option String := none
  graphSeq : Option UInt64 := none

def objects (items : List Value) : List Fields := items.filterMap Value.asObject

namespace AnnounceFrame

def defaultClusterEpoch : UInt64 := 1

def effectiveClusterEpoch (frame : AnnounceFrame) : UInt64 :=
  frame.clusterEpoch.getD defaultClusterEpoch

def unsignedDict (frame : AnnounceFrame) : FrameDict :=
  let m := insert "nid" (.string frame.nid) []
  let m := insert "addresses" (.array (frame.addresses.map .object)) m
  let m := insert "capabilities" (stringArray frame.caps) m
  let m := insert "ttl" (u64 frame.ttl) m
  let m := insert "timestamp" (.string frame.timestamp) m
  let m := insert "heartbeat_interval_ms" (u64 frame.heartbeatIntervalMs) m
  let m := insertSome "node_type" (frame.nodeType.map .string) m
  let m := insertSome "node_roles" (frame.nodeRoles.map stringArray) m
  let m := insertSome "cluster_anchor" (frame.clusterAnchor.map .string) m
  let m := insertSome "cluster_epoch" (frame.clusterEpoch.map u64) m
  let m := insertSome "spawn_spec_ref" (frame.spawnSpecRef.map .string) m
  let m := insertSome "bridge_protocols" (frame.bridgeProtocols.map stringArray) m
  let m := insertSome "bridge_inbound_protocols" (frame.bridgeInboundProtocols.map stringArray) m
  let m := insertSome "activation_mode" (frame.activationMode.map .string) m
  let m := insertSome "activation_endpoint" (frame.activationEndpoint.map .object) m
  let m := insertSome "graph_seq" (frame.graphSeq.map u64) m
  sortEntries m

def toDict (frame : AnnounceFrame) : FrameDict :=
  let m := insert "signature" (.string frame.signature) frame.unsignedDict
  let m := insertSome "node_roles" (frame.nodeRoles.map stringArray) m
  let m := insertSome "cluster_anchor" (frame.clusterAnchor.map .string) m
  let m := insertSome "cluster_epoch" (frame.clusterEpoch.map u64) m
  let m := insertSome "spawn_spec_ref" (frame.spawnSpecRef.map .string) m
  let m := insertSome "bridge_protocols" (frame.bridgeProtocols.map stringArray) m
  let m := insertSome "bridge_inbound_protocols" (frame.bridgeInboundProtocols.map stringArray) m
  let m := insertSome "activation_mode" (frame.activationMode.map .string) m
  let m := insertSome "activation_endpoint" (frame.activationEndpoint.map .object) m
  let m := insert "heartbeat_interval_ms" (u64 frame.heartbeatIntervalMs) m
  let m := insertSome "health" (frame.health.map .string) m
  insertSome "last_seen" (frame.lastSeen.map .string) m

def fromDict (dict : FrameDict) : NpsResult AnnounceFrame := do
  let nid ← getStr dict "nid"
  let timestamp ← getStr dict "timestamp"
  return {
    nid, timestamp
    addresses := (((get "addresses" dict).bind Value.asArray).map objects).getD []
    caps := ((((get "capabilities" dict).or (get "caps" dict)).bind Value.asArray).map
      fun items => items.filterMap Value.asStr).getD []
    ttl := (optU64 dict "ttl").getD 300
    signature := (optStr dict "signature").getD ""
    nodeType := optStr dict "node_type"
    nodeRoles := stringList dict "node_roles"
    clusterAnchor := optStr dict "cluster_anchor"
    clusterEpoch := optU64 dict "cluster_epoch"
    spawnSpecRef := optStr dict "spawn_spec_ref"
    bridgeProtocols := stringList dict "bridge_protocols"
    bridgeInboundProtocols := stringList dict "bridge_inbound_protocols"
    activationMode := optStr dict "activation_mode"
    activationEndpoint := (get "activation_endpoint" dict).bind Value.asObject
    heartbeatIntervalMs := (optU64 dict "heartbeat_interval_ms").getD 60000
    health := optStr dict "health"
    lastSeen := optStr dict "last_seen"
    graphSeq := optU64 dict "graph_seq" }

theorem unsignedDict_ascending (frame : AnnounceFrame) : Ascending frame.unsignedDict :=
  sortEntries_ascending _

theorem get_unsignedDict (frame : AnnounceFrame) :
    get "nid" frame.unsignedDict = some (.string frame.nid) ∧
    get "addresses" frame.unsignedDict = some (.array (frame.addresses.map .object)) ∧
    get "capabilities" frame.unsignedDict = some (stringArray frame.caps) ∧
    get "ttl" frame.unsignedDict = some (u64 frame.ttl) ∧
    get "timestamp" frame.unsignedDict = some (.string frame.timestamp) ∧
    get "heartbeat_interval_ms" frame.unsignedDict = some (u64 frame.heartbeatIntervalMs) ∧
    get "node_type" frame.unsignedDict = frame.nodeType.map .string ∧
    get "node_roles" frame.unsignedDict = frame.nodeRoles.map stringArray ∧
    get "cluster_anchor" frame.unsignedDict = frame.clusterAnchor.map .string ∧
    get "cluster_epoch" frame.unsignedDict = frame.clusterEpoch.map u64 ∧
    get "spawn_spec_ref" frame.unsignedDict = frame.spawnSpecRef.map .string ∧
    get "bridge_protocols" frame.unsignedDict = frame.bridgeProtocols.map stringArray ∧
    get "bridge_inbound_protocols" frame.unsignedDict =
      frame.bridgeInboundProtocols.map stringArray ∧
    get "activation_mode" frame.unsignedDict = frame.activationMode.map .string ∧
    get "activation_endpoint" frame.unsignedDict = frame.activationEndpoint.map .object ∧
    get "graph_seq" frame.unsignedDict = frame.graphSeq.map u64 := by
  have empty (key : String) : get key ([] : FrameDict) = none := rfl
  simp (disch := decide) only [unsignedDict, get_sortEntries, get_insertSome_ne, get_insertSome_self,
    get_insert_ne, get_insert_self, empty, Option.or_none, and_self]

theorem get_unsignedDict_none (frame : AnnounceFrame) {key : String}
    (unsigned : ["frame", "signature", "health", "last_seen"].contains key = true) :
    get key frame.unsignedDict = none := by
  have empty (key : String) : get key ([] : FrameDict) = none := rfl
  simp only [List.contains_cons, List.contains_nil, Bool.or_false, Bool.or_eq_true, beq_iff_eq] at unsigned
  rcases unsigned with rfl | rfl | rfl | rfl <;>
    simp (disch := decide) only [unsignedDict, get_sortEntries, get_insertSome_ne, get_insert_ne, empty]

theorem toDict_eq (frame : AnnounceFrame) :
    frame.toDict = insertSome "last_seen" (frame.lastSeen.map .string)
      (insertSome "health" (frame.health.map .string)
        (insert "signature" (.string frame.signature) frame.unsignedDict)) := by
  obtain ⟨-, -, -, -, -, heartbeat, -, roles, anchor, epoch, spawn, bridges, inbound, mode, endpoint, -⟩ :=
    get_unsignedDict frame
  have ascending := frame.unsignedDict_ascending.insert "signature" (.string frame.signature)
  have held {key : String} {field : Option Value} (other : key ≠ "signature")
      (signed : get key frame.unsignedDict = field) :
      insertSome key field (insert "signature" (.string frame.signature) frame.unsignedDict) =
        insert "signature" (.string frame.signature) frame.unsignedDict :=
    insertSome_held ascending ((get_insert_ne other _ _).trans signed)
  have beat := held (by decide) heartbeat
  rw [insertSome] at beat
  rw [toDict, held (by decide) roles, held (by decide) anchor, held (by decide) epoch,
    held (by decide) spawn, held (by decide) bridges, held (by decide) inbound, held (by decide) mode,
    held (by decide) endpoint, beat]

theorem get_toDict_signed (frame : AnnounceFrame) {key : String}
    (signed : ["frame", "signature", "health", "last_seen"].contains key = false) :
    get key frame.toDict = get key frame.unsignedDict := by
  simp only [List.contains_cons, List.contains_nil, Bool.or_false, Bool.or_eq_false_iff,
    beq_eq_false_iff_ne] at signed
  obtain ⟨-, signature, health, lastSeen⟩ := signed
  rw [toDict_eq, get_insertSome_ne lastSeen, get_insertSome_ne health, get_insert_ne signature]

theorem get_toDict_unsigned (frame : AnnounceFrame) :
    get "signature" frame.toDict = some (.string frame.signature) ∧
    get "health" frame.toDict = frame.health.map .string ∧
    get "last_seen" frame.toDict = frame.lastSeen.map .string := by
  have none_ (key : String) (unsigned : ["frame", "signature", "health", "last_seen"].contains key = true) :=
    frame.get_unsignedDict_none unsigned
  simp (disch := decide) only [toDict_eq, get_insertSome_ne, get_insertSome_self, get_insert_ne,
    get_insert_self, none_, Option.or_none, and_self]

theorem objects_map (addresses : List Fields) : objects (addresses.map .object) = addresses := by
  induction addresses with
  | nil => rfl
  | cons address rest ih =>
    rw [objects, List.map_cons, List.filterMap_cons]
    exact congrArg (address :: ·) ih

/-- Reading the wire dictionary back gives the frame, with every optional field it had. -/
theorem fromDict_toDict (frame : AnnounceFrame) : fromDict frame.toDict = .ok frame := by
  obtain ⟨nid, addresses, caps, ttl, timestamp, heartbeat, type, roles, anchor, epoch, spawn, bridges,
    inbound, mode, endpoint, sequence⟩ := get_unsignedDict frame
  obtain ⟨signature, health, lastSeen⟩ := get_toDict_unsigned frame
  have there {key : String} {field : Option Value}
      (signed : ["frame", "signature", "health", "last_seen"].contains key = false)
      (held : get key frame.unsignedDict = field) : get key frame.toDict = field :=
    (get_toDict_signed frame signed).trans held
  have endpoint' : (get "activation_endpoint" frame.toDict).bind Value.asObject =
      frame.activationEndpoint := by
    rw [there (by decide) endpoint]
    cases frame.activationEndpoint <;> rfl
  have lifetime : optU64 frame.toDict "ttl" = some frame.ttl := optU64_of_get (there (by decide) ttl)
  have interval : optU64 frame.toDict "heartbeat_interval_ms" = some frame.heartbeatIntervalMs :=
    optU64_of_get (there (by decide) heartbeat)
  have signed : optStr frame.toDict "signature" = some frame.signature := optStr_of_get signature
  simp only [fromDict, getStr, there (by decide) nid, there (by decide) timestamp,
    there (by decide) addresses, there (by decide) caps, Option.some_or, stringArray, filterMap_asStr, endpoint', lifetime,
    interval, signed, Option.bind_some, Value.asStr, Value.asArray, Option.map_some, objects_map,
    Outcome.ok_bind, Outcome.pure_eq, Option.getD_some,
    optStr_of_get (there (by decide) type), stringList_of_get (there (by decide) roles),
    optStr_of_get (there (by decide) anchor), optU64_of_get (there (by decide) epoch),
    optStr_of_get (there (by decide) spawn), stringList_of_get (there (by decide) bridges),
    stringList_of_get (there (by decide) inbound), optStr_of_get (there (by decide) mode),
    optStr_of_get health, optStr_of_get lastSeen, optU64_of_get (there (by decide) sequence)]

end AnnounceFrame
end Nps.Ndp
