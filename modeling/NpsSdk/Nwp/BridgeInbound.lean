import NpsSdk.Lib.Interaction
import NpsSdk.Lib.Json
import NpsSdk.Lib.Text

/-! The inbound bridge: MCP and A2A requests for the nodes it fronts. A request is answered, or
leads to one call of a node, whose result is answered. -/
namespace Nps.Nwp.BridgeInbound
open Interaction Prog
open Json

/-- The alphabetic and numeric characters of the standard library's tables. -/
class Alphanumeric where
  isAlphanumeric : Char → Bool
  ascii : ∀ c : Char, c.toNat < 128 → isAlphanumeric c = c.isAlphanum
  visible : ∀ c : Char, Text.isWhitespace c = true → isAlphanumeric c = false

def eqIgnoreAsciiCase (a b : String) : Bool := decide (Text.lowerAscii a = Text.lowerAscii b)

section
variable [Alphanumeric]

def toolChar (c : Char) : Bool := Alphanumeric.isAlphanumeric c || c == '_' || c == '-' || c == '.'

def sanitize (s : String) : String :=
  let mapped := String.ofList ((Text.trim s).toList.map fun c => if toolChar c then c else '_')
  let trimmed := Text.trimEnd (· == '_') (Text.trimStart (· == '_') mapped)
  if trimmed = "" then "node" else trimmed

def encodeActionSegment (action : String) : String :=
  String.ofList ((sanitize action).toList.map fun c => if c = '.' then '_' else c)

def encode (node action : String) : String := sanitize node ++ "__" ++ encodeActionSegment action

end

inductive NwpNodeRole where
  | unknown | memory | action | complex | anchor | bridge
deriving DecidableEq

structure NwpNodeDescriptor where
  name : String
  role : NwpNodeRole

def NwpNodeDescriptor.isInvokable (d : NwpNodeDescriptor) : Bool := d.role = .action || d.role = .complex

structure NwpActionDescriptor where
  actionId : String
  description : Option String := none
  inputSchema : Option Value := none
  tags : Option (List String) := none

def openObjectSchema : Value := document [("type", .string "object"), ("additionalProperties", .bool true)]

def NwpActionDescriptor.effectiveInputSchema (a : NwpActionDescriptor) : Value :=
  a.inputSchema.getD openObjectSchema

structure NwpResult where
  ok : Bool
  payload : Option Value
  npsStatus : Option String
  nwpError : Option String
  message : Option String

namespace NwpResult
variable (result : NwpResult)

def failurePayload : Value :=
  document [("status", Json.optional result.npsStatus), ("error", Json.optional result.nwpError),
    ("message", Json.optional result.message)]

def detail : String := ((result.message.or result.nwpError).or result.npsStatus).getD ""

end NwpResult

/-- What a node says of itself while a request is served. -/
structure NwpBackend where
  descriptor : NwpNodeDescriptor
  actions : List NwpActionDescriptor

/-- The call of a node, by its place among those that the bridge fronts. -/
inductive BackendCall where
  | invoke (backend : Nat) (actionId : String) (arguments : Option Value) (isAsync : Bool)

abbrev BackendProg := Prog fun _ : BackendCall => NwpResult

structure BridgeInboundOptions where
  backends : List NwpBackend
  serverName : String := "nps-bridge-server"
  serverVersion : String
  requireAuth : Bool := true

structure Exposed where
  backend : Nat
  descriptor : NwpNodeDescriptor
  action : NwpActionDescriptor

namespace BridgeInboundOptions
variable (options : BridgeInboundOptions)

/-- The actions in the order in which the servers come by them. -/
def exposed : List Exposed :=
  options.backends.zipIdx.flatMap fun (b, backend) =>
    if b.descriptor.isInvokable then b.actions.map fun action => ⟨backend, b.descriptor, action⟩ else []

end BridgeInboundOptions

def Exposed.qualified [Alphanumeric] (e : Exposed) : String := encode e.descriptor.name e.action.actionId

structure BridgeJsonRpcError where
  code : Int
  message : String
  data : Option Value

structure BridgeJsonRpcResponse where
  id : Value
  result : Option Value
  error : Option BridgeJsonRpcError

def BridgeJsonRpcResponse.ok (id result : Value) : BridgeJsonRpcResponse := ⟨id, some result, none⟩

def BridgeJsonRpcResponse.err (id : Value) (code : Int) (message : String) (data : Option Value) :
    BridgeJsonRpcResponse :=
  ⟨id, none, some ⟨code, message, data⟩⟩

open BridgeJsonRpcResponse

def invalidParams : Int := -32602
def methodNotFound : Int := -32601
def serverToolNotFound : String := "NWP-BRIDGE-SERVER-TOOL-NOT-FOUND"

def toJsonRpc (npsStatus : String) (resourceRead : Bool) : Int :=
  if npsStatus = "NPS-CLIENT-BAD-FRAME" then -32600
  else if npsStatus ∈ ["NPS-CLIENT-BAD-PARAM", "NPS-CLIENT-UNPROCESSABLE"] then invalidParams
  else if npsStatus = "NPS-CLIENT-NOT-FOUND" then if resourceRead then invalidParams else methodNotFound
  else if npsStatus = "NPS-CLIENT-GONE" then invalidParams
  else if npsStatus = "NPS-CLIENT-CONFLICT" then -32004
  else if npsStatus = "NPS-AUTH-UNAUTHENTICATED" then -32001
  else if npsStatus = "NPS-AUTH-FORBIDDEN" then -32003
  else if npsStatus ∈ ["NPS-LIMIT-RATE", "NPS-LIMIT-BUDGET", "NPS-LIMIT-PAYLOAD"] then -32005
  else if npsStatus = "NPS-SERVER-UNSUPPORTED" then methodNotFound
  else -32603

def mustBeProtocolError (npsStatus : String) : Bool :=
  npsStatus ∈ ["NPS-AUTH-UNAUTHENTICATED", "NPS-AUTH-FORBIDDEN", "NPS-LIMIT-RATE", "NPS-LIMIT-BUDGET",
    "NPS-LIMIT-PAYLOAD", "NPS-SERVER-UNSUPPORTED", "NPS-SERVER-INTERNAL", "NPS-SERVER-UNAVAILABLE",
    "NPS-SERVER-TIMEOUT", "NPS-DOWNSTREAM-UNAVAILABLE"]

def protocolError (id : Value) (result : NwpResult) (resourceRead : Bool) (more : Fields) :
    BridgeJsonRpcResponse :=
  let status := result.npsStatus.getD ""
  err id (toJsonRpc status resourceRead) result.detail
    (some (document ([("status", .string status), ("error", Json.optional result.nwpError)] ++ more)))

def member (key : String) (value : Value) : Option Value := value.asObject.bind (Json.get key)

def textAt (key : String) (value : Value) : Option String := (member key value).bind Value.asStr

namespace McpInboundServer
variable (options : BridgeInboundOptions)

section
variable [Alphanumeric]

def tool (e : Exposed) : Value :=
  document [("name", .string e.qualified), ("description", Json.optional e.action.description),
    ("inputSchema", e.action.effectiveInputSchema)]

def listTools : List Value := options.exposed.map tool

def unqualifiedMatch (tool : String) (e : Exposed) : Bool :=
  eqIgnoreAsciiCase e.action.actionId tool || eqIgnoreAsciiCase (encodeActionSegment e.action.actionId) tool

/-- A qualified name wins at once; the others are collected. -/
def resolve (tool : String) (unqualified : List Exposed) : List Exposed → Except (List String) (Option Exposed)
  | e :: rest =>
    if eqIgnoreAsciiCase e.qualified tool then .ok (some e)
    else resolve tool (if unqualifiedMatch tool e then unqualified ++ [e] else unqualified) rest
  | [] =>
    match unqualified with
    | [] => .ok none
    | [e] => .ok (some e)
    | candidates => .error (candidates.map Exposed.qualified)

def resolveTool (tool : String) : Except (List String) (Option Exposed) := resolve tool [] options.exposed

end

def toolName (params : Option Value) : String := Text.trim ((params.bind (textAt "name")).getD "")

def toolContent (isError : Bool) (text : String) : Value :=
  document [("isError", .bool isError),
    ("content", .array [document [("type", .string "text"), ("text", .string text)]])]

def projectToolResult (id : Value) (result : NwpResult) : BridgeJsonRpcResponse :=
  if result.ok then ok id (toolContent false ((result.payload.map Value.text).getD ""))
  else if mustBeProtocolError (result.npsStatus.getD "") then protocolError id result false []
  else ok id (toolContent true result.failurePayload.text)

def ambiguous (id : Value) (name : String) (candidates : List String) : BridgeJsonRpcResponse :=
  err id methodNotFound
    ("MCP tool '" ++ name ++ "' is ambiguous across this Bridge Node's fronted nodes; " ++
      "use one of the qualified names: " ++ String.intercalate ", " candidates ++ ".")
    (some (document [("error", .string serverToolNotFound), ("tool", .string name),
      ("candidates", stringArray candidates)]))

def toolsCall [Alphanumeric] (id : Value) (params : Option Value) : BackendProg BridgeJsonRpcResponse :=
  let name := toolName params
  if name = "" then done (err id invalidParams "MCP tools/call requires params.name." none)
  else
    match resolveTool options name with
    | .ok (some e) =>
      call (.invoke e.backend e.action.actionId (params.bind (member "arguments")) false)
        fun result => done (projectToolResult id result)
    | .ok none =>
      done (err id methodNotFound ("MCP tool '" ++ name ++ "' is not exposed by this Bridge Node.")
        (some (document [("error", .string serverToolNotFound), ("tool", .string name)])))
    | .error candidates => done (ambiguous id name candidates)

end McpInboundServer

namespace A2aInboundServer
variable (options : BridgeInboundOptions)

section
variable [Alphanumeric]

def skill (e : Exposed) : Value :=
  document [("id", .string e.qualified), ("name", .string (e.action.description.getD e.action.actionId)),
    ("description", Json.optional e.action.description),
    ("tags", (e.action.tags.map stringArray).getD .null),
    ("inputModes", stringArray ["text", "data"]), ("outputModes", stringArray ["data"])]

def buildAgentCard (endpointUrl : String) : Value :=
  document [("name", .string options.serverName),
    ("description", .string ("NPS Bridge Node '" ++ options.serverName ++ "' — inbound A2A surface.")),
    ("url", .string endpointUrl),
    ("provider", document [("organization", .string "LabAcacia / INNO LOTUS PTY LTD"),
      ("url", .string "https://github.com/labacacia/nps")]),
    ("version", .string options.serverVersion),
    ("capabilities", document [("streaming", .bool false), ("pushNotifications", .bool false),
      ("stateTransitionHistory", .bool false)]),
    ("authentication", if options.requireAuth then
      document [("schemes", stringArray ["apikey"]), ("credentials", .string "X-NWP-Agent")] else .null),
    ("skills", .array (options.exposed.map skill))]

/-- The first action that the hint names; without a hint, the action when it is the only one. -/
def resolveSkill (hint : Option String) : Option Exposed :=
  match hint with
  | some h => options.exposed.find? fun e =>
      eqIgnoreAsciiCase e.qualified h || eqIgnoreAsciiCase e.action.actionId h
  | none =>
    match options.exposed with
    | [e] => some e
    | _ => none

end

def skillKeys : List String := ["action_id", "actionId", "skill_id", "skillId", "skill"]

def parts (message : Value) : List Value := ((member "parts" message).bind Value.asArray).getD []

def hintSources (params : Fields) : List Value :=
  (Json.get "metadata" params).toList ++
    match Json.get "message" params with
    | some message => (member "metadata" message).toList ++ (parts message).flatMap fun part =>
        (member "metadata" part).toList ++ (member "data" part).toList
    | none => []

def findSkillHint (params : Fields) : Option String :=
  (hintSources params).findSome? fun source => skillKeys.findSome? fun key =>
    ((textAt key source).map Text.trim).filter (· ≠ "")

def present : Value → Bool
  | .null => false
  | _ => true

def paramsOrArguments (value : Value) : Option Value :=
  ((member "params" value).or (member "arguments" value)).filter present

def dataOf (part : Value) : Option Value :=
  if textAt "type" part = some "data" then (member "data" part).filter present else none

def textOf (part : Value) : Option Value :=
  if textAt "type" part = some "text" then
    (textAt "text" part).map fun text => document [("text", .string text)]
  else none

/-- Explicit arguments, or else the first part that holds data, or else the first that holds text. -/
def extractArguments (params : Fields) : Option Value :=
  ((Json.get "metadata" params).bind paramsOrArguments).or do
    let message ← Json.get "message" params
    ((member "metadata" message).bind paramsOrArguments).or do
      let parts ← (member "parts" message).bind Value.asArray
      ((parts.findSome? fun part => (member "data" part).bind paramsOrArguments).or
        (parts.findSome? dataOf)).or (parts.findSome? textOf)

def toTask (now taskId : String) (sessionId message : Value) (result : NwpResult) : Value :=
  let payload := if result.ok then result.payload.getD .null else result.failurePayload
  document [("id", .string taskId), ("sessionId", sessionId),
    ("status", document [("state", .string (if result.ok then "completed" else "failed")),
      ("timestamp", .string now),
      ("message", if result.ok then .null else document [("role", .string "agent"),
        ("parts", .array [document [("type", .string "text"), ("text", .string result.detail)]])])]),
    ("artifacts", .array [document [("name", .string (if result.ok then "nps-result" else "nps-error")),
      ("parts", .array [document [("type", .string "data"), ("data", payload)]]), ("index", integer 0)]]),
    ("history", .array [message])]

def taskId (params : Fields) : String := Text.trim (((Json.get "id" params).bind Value.asStr).getD "")

def unidentified (id : Value) : BridgeJsonRpcResponse :=
  err id invalidParams
    "A2A task metadata must identify an exposed NPS action when more than one is available."
    (some (document [("error", .string serverToolNotFound)]))

def tasksSend [Alphanumeric] (now : String) (id : Value) (params : Fields) : BackendProg BridgeJsonRpcResponse :=
  if taskId params = "" then done (err id invalidParams "A2A tasks/send params.id is required." none)
  else
    match resolveSkill options (findSkillHint params) with
    | none => done (unidentified id)
    | some e =>
      call (.invoke e.backend e.action.actionId (extractArguments params) false) fun result =>
        if result.ok = false ∧ mustBeProtocolError (result.npsStatus.getD "") then
          done (protocolError id result false [])
        else
          done (ok id (toTask now (taskId params) ((Json.get "sessionId" params).getD .null)
            ((Json.get "message" params).getD .null) result))

end A2aInboundServer
end Nps.Nwp.BridgeInbound
