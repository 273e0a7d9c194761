import Mathlib.Algebra.Group.Int.Defs
import NpsSdk.Lib.Ip
import NpsSdk.Nop.Models

/-! Validation of a task graph, with its topological order, and of a callback URL. -/
namespace Nps.Nop
open Json

structure Refusal where
  errorCode : String
  errorMessage : String
deriving DecidableEq

def duplicateId : List String → List DagNode → Option String
  | _, [] => none
  | seen, node :: rest => if node.id ∈ seen then some node.id else duplicateId (node.id :: seen) rest

/-- Why a graph is not accepted. Built with overflow checks, `validate_dag` panics where an `i32` cannot
count the edges into a node; built without them, the count wraps. -/
inductive DagFault where
  | refused (refusal : Refusal)
  | overflow
deriving DecidableEq

def countOf (counts : List (String × Int)) (id : String) : Int := (get id counts).getD 0

/-- The counted edges into every node, once all edges are seen to join nodes. -/
def countEdges (ids : List String) : List DagEdge → List (String × Int) →
    Except DagFault (List (String × Int))
  | [], inDegree => .ok inDegree
  | edge :: rest, inDegree =>
    if edge.source ∉ ids then
      .error (.refused ⟨ErrorCodes.taskDagInvalid,
        s!"Edge references unknown source node: '{edge.source}'."⟩)
    else if edge.target ∉ ids then
      .error (.refused ⟨ErrorCodes.taskDagInvalid,
        s!"Edge references unknown target node: '{edge.target}'."⟩)
    else
      let d := countOf inDegree edge.target + 1
      if d < 2 ^ 31 then countEdges ids rest (insert edge.target d inDegree) else .error .overflow

def unknownUpstream (ids : List String) (node : DagNode) : Option String :=
  ((node.inputFrom.getD []).find? (· ∉ ids)).map fun upstream =>
    s!"Node '{node.id}' references unknown upstream node '{upstream}' in input_from."

def neighbors (edges : List DagEdge) (id : String) : List String :=
  (edges.filter (·.source = id)).map DagEdge.target

/-- One edge out of the current node is taken away; a target without further edges is queued. No count
falls below zero here (`release_all`), so that the `i32` is large enough. -/
def release (state : List (String × Int) × List String) (neighbor : String) :
    List (String × Int) × List String :=
  let d := countOf state.1 neighbor - 1
  (insert neighbor d state.1, if d = 0 then state.2 ++ [neighbor] else state.2)

/-- Every node enters the queue once at most, so the number of nodes is fuel enough. -/
def kahn (edges : List DagEdge) : Nat → List (String × Int) → List String → List String
  | 0, _, _ => []
  | _, _, [] => []
  | fuel + 1, remaining, current :: queue =>
    let (remaining, queue) := (neighbors edges current).foldl release (remaining, queue)
    current :: kahn edges fuel remaining queue

def topologicalOrder (dag : TaskDag) (inDegree : List (String × Int)) : List String :=
  let ids := dag.nodes.map DagNode.id
  kahn dag.edges ids.length inDegree (ids.filter fun id => countOf inDegree id = 0)

def longCondition (node : DagNode) : Bool :=
  match node.condition with
  | some condition => decide (condition.toList.length > maxConditionLength)
  | none => false

/-- The topological order of an acceptable graph. -/
def validateDag (dag : TaskDag) : Except DagFault (List String) :=
  let refuse (errorCode message : String) : Except DagFault (List String) :=
    .error (.refused ⟨errorCode, message⟩)
  let invalid := refuse ErrorCodes.taskDagInvalid
  let ids := dag.nodes.map DagNode.id
  if dag.nodes = [] then invalid "DAG must contain at least one node."
  else if dag.nodes.length > maxDagNodes then
    refuse ErrorCodes.taskDagTooLarge
      s!"DAG contains {dag.nodes.length} nodes, exceeding the maximum of {maxDagNodes}."
  else match duplicateId [] dag.nodes with
  | some id => invalid s!"Duplicate node ID: '{id}'."
  | none =>
    match countEdges ids dag.edges (sortEntries (ids.map fun id => (id, 0))) with
    | .error fault => .error fault
    | .ok inDegree =>
      match dag.nodes.findSome? (unknownUpstream ids) with
      | some message => invalid message
      | none =>
        if ids.all fun id => countOf inDegree id ≠ 0 then
          invalid "DAG must have at least one start node (no incoming edges)."
        else if ids.all fun id => neighbors dag.edges id ≠ [] then
          invalid "DAG must have at least one end node (no outgoing edges)."
        else match dag.nodes.find? longCondition with
        | some node => refuse ErrorCodes.conditionEvalError
            s!"Node '{node.id}' condition expression exceeds {maxConditionLength} characters."
        | none =>
          let sorted := topologicalOrder dag inDegree
          if sorted.length ≠ ids.length then refuse ErrorCodes.taskDagCycle "DAG contains a cycle."
          else .ok sorted

theorem duplicateId_none {seen : List String} {nodes : List DagNode}
    (unique : duplicateId seen nodes = none) :
    (nodes.map DagNode.id).Nodup ∧ ∀ node ∈ nodes, node.id ∉ seen := by
  induction nodes generalizing seen with
  | nil => simp
  | cons node rest ih =>
    unfold duplicateId at unique
    split_ifs at unique with repeated
    obtain ⟨distinct, fresh⟩ := ih unique
    constructor
    · rw [List.map_cons, List.nodup_cons]
      refine ⟨?_, distinct⟩
      intro member
      obtain ⟨other, later, same⟩ := List.mem_map.mp member
      exact fresh other later (same ▸ List.mem_cons_self)
    · rintro other (_ | ⟨_, later⟩)
      · exact repeated
      · exact fun early => fresh other later (List.mem_cons_of_mem _ early)

theorem validateDag_nodup {dag : TaskDag} {order : List String} (valid : validateDag dag = .ok order) :
    (dag.nodes.map DagNode.id).Nodup := by
  cases unique : duplicateId [] dag.nodes with
  | none => exact (duplicateId_none unique).1
  | some id =>
    simp only [validateDag, unique] at valid
    split_ifs at valid

def extractHost (rest : String) : String :=
  let authority := rest.toList.takeWhile fun c => c ≠ '/' && c ≠ '?' && c ≠ '#'
  let authority := (authority.reverse.takeWhile (· ≠ '@')).reverse
  match authority with
  | '[' :: literal =>
    -- brackets are kept, and without a closing one the whole authority is
    if ']' ∈ literal then String.ofList ('[' :: literal.takeWhile (· ≠ ']') ++ [']'])
    else String.ofList authority
  | _ => String.ofList (authority.takeWhile (· ≠ ':'))

def isPrivateIpv4 (ip : Ip.V4) : Bool :=
  let a := ip.octet 0
  let b := ip.octet 1
  a = 127 || a = 10 || a = 0 || (a = 172 && 16 ≤ b && b ≤ 31) || (a = 192 && b = 168) ||
    (a = 169 && b = 254)

def isPrivateIpv6 (ip : Ip.V6) : Bool :=
  let linkLocal := ip.segment 0 &&& 0xFFC0 == 0xFE80
  let siteLocal := ip.segment 0 &&& 0xFFC0 == 0xFEC0
  let uniqueLocal := ip.segment 0 &&& 0xFE00 == 0xFC00
  ip.isLoopback || linkLocal || siteLocal || uniqueLocal

/-- IPv4 addresses mapped into IPv6 are judged as IPv4. -/
def isPrivateIp : Ip.Addr → Bool
  | .v4 addr => isPrivateIpv4 addr
  | .v6 addr =>
    match addr.toIpv4Mapped with
    | some v4 => isPrivateIpv4 v4
    | none => isPrivateIpv6 addr

def isPrivateHost (host : String) : Bool :=
  if host = "" ∨ Text.lowerAscii host = "localhost" then true
  else
    let stripped := Text.trimEnd (· == ']') (Text.trimStart (· == '[') host)
    match Ip.parse stripped with
    | some addr => isPrivateIp addr
    | none => false

/-- What is wrong with the URL, if anything. -/
def validateCallbackUrl (callbackUrl : String) : Option String :=
  let notAbsolute := some s!"callback_url '{callbackUrl}' is not a valid absolute URI."
  if Text.trim callbackUrl = "" then some "callback_url must not be empty."
  else match Text.splitOnce? "://" callbackUrl with
  | none => notAbsolute
  | some (scheme, rest) =>
    let scheme := Text.lowerAscii scheme
    let host := extractHost rest
    if scheme ≠ "https" then
      some s!"callback_url MUST use the https:// scheme (got '{scheme}://')."
    else if host = "" then notAbsolute
    else if isPrivateHost host then
      some s!"callback_url host '{host}' resolves to a private or loopback address (SSRF guard)."
    else none

end Nps.Nop
