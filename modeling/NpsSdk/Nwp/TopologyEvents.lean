import Mathlib.Data.List.DropRight
import NpsSdk.Lib.JsonNumber
import NpsSdk.Lib.Text
import NpsSdk.Lib.Transition
import NpsSdk.Nip.Platform

/-! Topology streams: the envelopes an anchor writes, a line for each event, and the client that
reads them from the chunks of a response body. -/
namespace Nps.Nwp.AnchorTopology
open Json (Value Fields document integer stringArray)
open Machine (Reading)

structure MemberInfo where
  nid : String
  nodeRoles : List String
  activationMode : String
  childAnchor : Option Bool := none
  memberCount : Option UInt32 := none
  tags : Option (List String) := none
  joinedAt : Option String := none
  lastSeen : Option String := none
  capabilities : Option Value := none
  metrics : Option Value := none

structure MemberChanges where
  nodeRoles : Option (List String) := none
  activationMode : Option String := none
  tags : Option (List String) := none
  memberCount : Option UInt32 := none
  lastSeen : Option String := none
  capabilities : Option Value := none
  metrics : Option Value := none

inductive TopologyEvent where
  | memberJoined (version : UInt64) (member : MemberInfo)
  | memberLeft (version : UInt64) (nid : String)
  | memberUpdated (version : UInt64) (nid : String) (changes : MemberChanges)
  | anchorState (version : UInt64) (field : String) (details : Option Value)
  | resyncRequired (reason : String)

def TopologyEvent.isResync : TopologyEvent → Bool
  | resyncRequired _ => true
  | _ => false

/-- An optional field is always written; it is null when it is not there. -/
def nullable {α : Type} (write : α → Value) : Option α → Value
  | some field => write field
  | none => .null

def MemberInfo.toValue (member : MemberInfo) : Value :=
  document [("nid", .string member.nid), ("node_roles", stringArray member.nodeRoles),
    ("activation_mode", .string member.activationMode),
    ("child_anchor", nullable .bool member.childAnchor),
    ("member_count", nullable (fun count => integer count.toNat) member.memberCount),
    ("tags", nullable stringArray member.tags), ("joined_at", nullable .string member.joinedAt),
    ("last_seen", nullable .string member.lastSeen),
    ("capabilities", nullable id member.capabilities), ("metrics", nullable id member.metrics)]

def MemberChanges.toValue (changes : MemberChanges) : Value :=
  document [("node_roles", nullable stringArray changes.nodeRoles),
    ("activation_mode", nullable .string changes.activationMode),
    ("tags", nullable stringArray changes.tags),
    ("member_count", nullable (fun count => integer count.toNat) changes.memberCount),
    ("last_seen", nullable .string changes.lastSeen),
    ("capabilities", nullable id changes.capabilities), ("metrics", nullable id changes.metrics)]

def TopologyEvent.parts : TopologyEvent → String × Option UInt64 × Value
  | memberJoined version member => ("member_joined", some version, member.toValue)
  | memberLeft version nid => ("member_left", some version, document [("nid", .string nid)])
  | memberUpdated version nid changes =>
    ("member_updated", some version,
      document [("nid", .string nid), ("changes", changes.toValue)])
  | anchorState version field details =>
    ("anchor_state", some version,
      document [("field", .string field), ("details", nullable id details)])
  | resyncRequired reason => ("resync_required", none, document [("reason", .string reason)])

def eventToEnvelope (streamId timestamp : String) (ev : TopologyEvent) : Value :=
  let (eventType, seq, payload) := ev.parts
  let cgnEst := max ((Text.utf8 payload.text).length / 4) 1
  let env := Json.sortEntries [("stream_id", .string streamId), ("event_type", .string eventType),
    ("timestamp", .string timestamp), ("payload", payload), ("cgn_est", integer cgnEst)]
  .object (Json.insertSome "seq" (seq.map fun version => integer version.toNat) env)

def ack (streamId : String) (resumed : Bool) : Value :=
  document [("kind", .string "ack"), ("stream_id", .string streamId), ("status", .string "subscribed"),
    ("last_seq", integer 0), ("resumed", .bool resumed)]

def line (value : Value) : String := value.text ++ "\n"

/-- The lines of the events, each with the time it is written at; none follows a resync. -/
def eventLines (streamId : String) : List (TopologyEvent × String) → String
  | [] => ""
  | (ev, timestamp) :: rest =>
    line (eventToEnvelope streamId timestamp ev) ++
      if ev.isResync then "" else eventLines streamId rest

def subscribeBody (streamId : String) (resumed : Bool) (events : List (TopologyEvent × String)) :
    String :=
  line (ack streamId resumed) ++ eventLines streamId events

/-- Why something is not read: its text is not JSON, or the value is not of the type. -/
inductive JsonError where
  | text (message : String)
  | data
deriving DecidableEq

inductive AnchorTopologyError where
  | protocol (nwpErrorCode npsStatus message : String)
  | http (status : Nat) (body : String)
  | json (cause : JsonError)
deriving DecidableEq

def readString : Value → Except JsonError String
  | .string text => .ok text
  | _ => .error .data

def readBool : Value → Except JsonError Bool
  | .bool truth => .ok truth
  | _ => .error .data

def readU32 (value : Value) : Except JsonError UInt32 :=
  match value.asU64 with
  | some n => if n < 2 ^ 32 then .ok (UInt32.ofNat n) else .error .data
  | none => .error .data

def readStrings : Value → Except JsonError (List String)
  | .array items => items.mapM readString
  | _ => .error .data

def readField {α : Type} (read : Value → Except JsonError α) : Option Value → Except JsonError α
  | some value => read value
  | none => .error .data

/-- A field that is missing is none, and so is one that is null. -/
def readOption {α : Type} (read : Value → Except JsonError α) :
    Option Value → Except JsonError (Option α)
  | none => .ok none
  | some .null => .ok none
  | some value => do return some (← read value)

/-- The fields of a structure, by their names or all of them by their positions. -/
def structureFields (names : List String) : Value → Except JsonError (String → Option Value)
  | .object fields => .ok fun name => Json.get name fields
  | .array items =>
    if items.length = names.length then .ok fun name => Json.get name (names.zip items)
    else .error .data
  | _ => .error .data

def MemberInfo.fromValue (value : Value) : Except JsonError MemberInfo := do
  let get ← structureFields ["nid", "node_roles", "activation_mode", "child_anchor", "member_count",
    "tags", "joined_at", "last_seen", "capabilities", "metrics"] value
  return {
    nid := ← readField readString (get "nid")
    nodeRoles := ← readField readStrings (get "node_roles")
    activationMode := ← readField readString (get "activation_mode")
    childAnchor := ← readOption readBool (get "child_anchor")
    memberCount := ← readOption readU32 (get "member_count")
    tags := ← readOption readStrings (get "tags")
    joinedAt := ← readOption readString (get "joined_at")
    lastSeen := ← readOption readString (get "last_seen")
    capabilities := ← readOption .ok (get "capabilities")
    metrics := ← readOption .ok (get "metrics") }

def MemberChanges.fromValue (value : Value) : Except JsonError MemberChanges := do
  let get ← structureFields ["node_roles", "activation_mode", "tags", "member_count", "last_seen",
    "capabilities", "metrics"] value
  return {
    nodeRoles := ← readOption readStrings (get "node_roles")
    activationMode := ← readOption readString (get "activation_mode")
    tags := ← readOption readStrings (get "tags")
    memberCount := ← readOption readU32 (get "member_count")
    lastSeen := ← readOption readString (get "last_seen")
    capabilities := ← readOption .ok (get "capabilities")
    metrics := ← readOption .ok (get "metrics") }

def valueGet (key : String) (value : Value) : Option Value := value.asObject.bind (Json.get key)

def textOr (key default : String) (value : Value) : String :=
  ((valueGet key value).bind Value.asStr).getD default

/-- An envelope that is no event: an error of the protocol, or something to skip. -/
def parseOther (root : Value) : Except AnchorTopologyError (Option TopologyEvent) :=
  match (valueGet "error" root).bind Value.asStr, (valueGet "status" root).bind Value.asStr with
  | some error, some status => .error (.protocol error status (textOr "message" "" root))
  | _, _ => .ok none

/-- The event of an envelope; types that are not known are skipped. -/
def parseEvent (root : Value) : Except AnchorTopologyError (Option TopologyEvent) :=
  match valueGet "event_type" root with
  | none => parseOther root
  | some (.string eventType) =>
    let seq := UInt64.ofNat (((valueGet "seq" root).bind Value.asU64).getD 0)
    let payload := (valueGet "payload" root).getD .null
    match eventType with
    | "member_joined" => do
      let member ← (MemberInfo.fromValue payload).mapError .json
      return some (.memberJoined seq member)
    | "member_left" => return some (.memberLeft seq (textOr "nid" "" payload))
    | "member_updated" => do
      let changes ← (MemberChanges.fromValue ((valueGet "changes" payload).getD (.object []))).mapError
        .json
      return some (.memberUpdated seq (textOr "nid" "" payload) changes)
    | "anchor_state" =>
      return some (.anchorState seq (textOr "field" "" payload) (valueGet "details" payload))
    | "resync_required" => return some (.resyncRequired (textOr "reason" "unknown" payload))
    | _ => return none
  | some _ => .ok none

abbrev Item := Except AnchorTopologyError TopologyEvent

section Stream
variable [Nip.Serde]

def parseEventLine (line : String) : Except AnchorTopologyError (Option TopologyEvent) :=
  match Nip.Serde.fromStr line with
  | .error message => .error (.json (.text message))
  | .ok root => parseEvent root

def trimReturns (chars : List Char) : List Char := chars.rdropWhile (· = '\r')

/-- One line: the first that is not empty is the ack, and an error or a resync is the last. -/
def takeLine (ackSkipped : Bool) (chars : List Char) : Reading Item Bool :=
  let line := trimReturns chars
  if line = [] then ([], some ackSkipped)
  else if ackSkipped = false then ([], some true)
  else match parseEventLine (String.ofList line) with
    | .ok (some ev) => ([.ok ev], if ev.isResync then none else some true)
    | .ok none => ([], some true)
    | .error e => ([.error e], none)

structure LineBuffer where
  ackSkipped : Bool := false
  buf : List Char := []

/-- More text: the lines that it completes are taken, and the rest stays in the buffer. -/
def takeText (s : LineBuffer) (text : List Char) : Reading Item LineBuffer :=
  let parts := Text.splitChars '\n' (s.buf ++ text)
  Machine.andThen (Machine.run takeLine s.ackSkipped parts.dropLast) fun ackSkipped =>
    ([], some ⟨ackSkipped, parts.getLast?.getD []⟩)

def takeChunk (s : LineBuffer) (chunk : List UInt8) : Reading Item LineBuffer :=
  match Text.ofUtf8? chunk with
  | some text => takeText s text.toList
  | none => ([.error (.http 0 "stream contained invalid UTF-8")], none)

/-- At the end what is left in the buffer is the last line. -/
def parseEventStream (chunks : List (List UInt8)) : List Item :=
  (Machine.andThen (Machine.run takeChunk {} chunks) fun s => takeLine s.ackSkipped s.buf).1

end Stream
end Nps.Nwp.AnchorTopology
