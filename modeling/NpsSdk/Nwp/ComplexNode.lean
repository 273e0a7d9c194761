import NpsSdk.Lib.Splitting
import NpsSdk.Nwp.ActionServer

/-! A complex node: it answers a query from its own rows and from those of its child nodes, which
it asks in turn with one level of depth less and itself at the end of the trace. -/
namespace Nps.Nwp.ComplexNode
open Json (Value Fields)
open Outcome
open ActionServer (parseAbsoluteUrl isPrivateHost)

def absoluteMaxDepth : Nat := 5

structure ComplexGraphRef where
  rel : String
  nodeUrl : String

structure ComplexNodeOptions where
  nodeId : String
  graph : List ComplexGraphRef := []
  graphMaxDepth : Nat := 2
  allowedChildUrlPrefixes : List String := []
  rejectPrivateChildUrls : Bool := true
  allowHttpChildUrls : Bool := false
  requireAuth : Bool := false
  defaultLimit : Nat := 20

abbrev ComplexNodeProvider :=
  ParsedQueryFrame → ComplexNodeOptions → Except MemoryNodeError MemoryNodeQueryResult

/-- Without the header only the node itself is asked. -/
def parseDepth (opt : ComplexNodeOptions) (req : NodeRequest) : Except String Nat :=
  match req.header "X-NWP-Depth" with
  | none => .ok 0
  | some raw =>
    match parseU32 raw with
    | none => .error s!"X-NWP-Depth '{raw}' is not a non-negative integer."
    | some depth =>
      if depth > opt.graphMaxDepth then
        let maxDepth := opt.graphMaxDepth
        .error s!"X-NWP-Depth {depth} exceeds node max_depth {maxDepth}."
      else if depth > absoluteMaxDepth then
        .error s!"X-NWP-Depth {depth} exceeds NPS-2 §11 absolute cap {absoluteMaxDepth}."
      else .ok depth

def parseTrace (req : NodeRequest) : List String :=
  ((req.header "X-NWP-Trace").map fun raw =>
    ((Text.split ',' raw).map Text.trim).filter (· ≠ "")).getD []

/-- A trace can tell the id: it is a part of a list between commas. -/
structure Traceable (id : String) : Prop where
  nonempty : id ≠ ""
  trimmed : Text.trim id = id
  whole : ',' ∉ id.toList

/-- What a fetcher is asked to fetch. -/
structure ChildRequest where
  nodeUrl : String
  body : Value
  childDepth : Nat
  trace : List String
  agent : Option String
  budget : Option String

inductive ChildOutcome where
  | ok (capsule : Value)
  | err (code message : String)

/-- The trait of the host that carries requests to the children: the request that it sends, and
what it makes of the response, if there is one. A child reads the depth as it was given, and all of
the trace that can be told. -/
structure ChildFetcher where
  request : ChildRequest → NodeRequest
  outcome : Option NodeResponse → ChildOutcome
  depth_sent : ∀ child, child.childDepth < 2 ^ 32 →
    ((request child).header "X-NWP-Depth").bind parseU32 = some child.childDepth
  trace_sent : ∀ child, ∀ id ∈ child.trace, Traceable id → id ∈ parseTrace (request child)

/-- `validate_child_url`: what is wrong with the URL, if anything. -/
def validateChildUrl (childUrl : String) (allowedPrefixes : List String)
    (rejectPrivate allowHttp : Bool) : Option String :=
  if Text.trim childUrl = "" then some "child node URL must not be empty."
  else match parseAbsoluteUrl childUrl with
  | none => some s!"child node URL '{childUrl}' is not a valid absolute URI."
  | some parsed =>
    let isHttps := Text.lowerAscii parsed.scheme = "https"
    let isHttp := Text.lowerAscii parsed.scheme = "http"
    if ¬ (isHttps ∨ allowHttp ∧ isHttp) then
      some s!"child node URL MUST use the https:// scheme (got '{parsed.scheme}://')."
    else if allowedPrefixes ≠ [] ∧ ¬ allowedPrefixes.any fun allowed =>
        Text.startsWith (Text.lowerAscii allowed) (Text.lowerAscii childUrl) then
      some s!"child node URL '{childUrl}' is not in the allowed prefix list."
    else if rejectPrivate ∧ isPrivateHost parsed.host then
      some s!"child node host '{parsed.host}' resolves to a private or loopback address (SSRF guard)."
    else none

def childResult (gref : ComplexGraphRef) (outcome : ChildOutcome) : Value :=
  let tail := [("node", .string gref.nodeUrl), ("rel", .string gref.rel)]
  match outcome with
  | .ok data => .object (("data", data) :: tail)
  | .err code message =>
    .object (("error", .object [("code", .string code), ("message", .string message)]) :: tail)

structure ComplexNodeApp where
  opt : ComplexNodeOptions
  provider : ComplexNodeProvider
  fetcher : Option ChildFetcher
  anchorId : String
  /-- The constructor panics on a greater depth. -/
  capped : opt.graphMaxDepth ≤ absoluteMaxDepth

structure AdmittedQuery where
  body : Value
  frame : ParsedQueryFrame
  depth : Nat
  trace : List String

abbrev Transport := ChildFetcher → ChildRequest → Option ChildOutcome

namespace ComplexNodeApp
variable (app : ComplexNodeApp)

/-- The checks of a query up to the cycle detection. -/
def accept (req : NodeRequest) : Except NodeResponse AdmittedQuery := do
  ensure (¬ (app.opt.requireAuth ∧ req.header "X-NWP-Agent" = none))
    (errorResp 401 "NPS-CLIENT-UNAUTHORIZED" "NWP-AUTH-NID-SCOPE-VIOLATION"
      "X-NWP-Agent header is required.")
  let badRequest := errorResp 400 "NPS-CLIENT-BAD-REQUEST"
  let body ← req.body.mapError (badRequest "NWP-QUERY-FILTER-INVALID")
  let frame ← (ParsedQueryFrame.fromJson body app.opt.defaultLimit).mapError
    (badRequest "NWP-QUERY-FILTER-INVALID")
  let depth ← (parseDepth app.opt req).mapError (badRequest "NWP-DEPTH-EXCEEDED")
  let trace := parseTrace req
  let nodeId := app.opt.nodeId
  ensure (nodeId ∉ trace)
    (errorResp 422 "NPS-CLIENT-UNPROCESSABLE" "NWP-GRAPH-CYCLE" s!"graph cycle detected at '{nodeId}'.")
  return ⟨body, frame, depth, trace⟩

/-- What a child is asked: the same, one level down. -/
def childRequest (req : NodeRequest) (query : AdmittedQuery) (gref : ComplexGraphRef) :
    ChildRequest where
  nodeUrl := gref.nodeUrl
  body := query.body
  childDepth := query.depth - 1
  trace := query.trace ++ [app.opt.nodeId]
  agent := req.header "X-NWP-Agent"
  budget := req.header "X-NWP-Budget"

def fetchChild (transport : Transport) (req : NodeRequest) (query : AdmittedQuery)
    (gref : ComplexGraphRef) : Option Value :=
  match validateChildUrl gref.nodeUrl app.opt.allowedChildUrlPrefixes
      app.opt.rejectPrivateChildUrls app.opt.allowHttpChildUrls with
  | some err => some (childResult gref (.err "NWP-AUTH-NID-SCOPE-VIOLATION" err))
  | none =>
    match app.fetcher with
    | none => some (childResult gref
        (.err "NWP-NODE-UNAVAILABLE" "no child fetcher configured on this Complex Node."))
    | some fetcher => (transport fetcher (app.childRequest req query gref)).map (childResult gref)

/-- The children's results, in the order of the graph. -/
def expand (transport : Transport) (req : NodeRequest) (query : AdmittedQuery) :
    Option (Option Value) :=
  if 0 < query.depth ∧ app.opt.graph ≠ [] then
    (app.opt.graph.mapM (app.fetchChild transport req query)).map fun results => some (.array results)
  else some none

def capsule (localResult : MemoryNodeQueryResult) (graph : Option Value) : NodeResponse where
  status := 200
  headers := [("content-type", "application/nwp-capsule"), ("x-nwp-node-type", "complex")] ++
    if app.anchorId = "" then [] else [("x-nwp-schema", app.anchorId)]
  body := .object <|
    [("anchor_ref", if app.anchorId = "" then .null else .string app.anchorId),
      ("count", Json.integer localResult.rows.length),
      ("data", .array (localResult.rows.map .object))] ++
    (graph.map fun results => ("graph", results)).toList ++
    (localResult.nextCursor.map fun cursor => ("next_cursor", Value.string cursor)).toList

/-- `handle` of a request to the path of queries. -/
def handle (transport : Transport) (req : NodeRequest) : Option NodeResponse :=
  match app.accept req with
  | .error response => some response
  | .ok query =>
    match app.provider query.frame app.opt with
    | .error e => some (errorResp 400 "NPS-CLIENT-BAD-REQUEST" e.nwpErrorCode e.message)
    | .ok localResult => (app.expand transport req query).map (app.capsule localResult)

end ComplexNodeApp
end Nps.Nwp.ComplexNode
