import NpsSdk.Nwp.ComplexNode

/-! Networks of complex nodes that ask each other. The depth bounds every chain of requests, and
the trace keeps a node off a chain that it is on, if the trace can tell the node's id. -/
namespace Nps.Nwp.ComplexNode
open Json (Value Fields)
open Outcome

abbrev Network := String → Option ComplexNodeApp

/-- How a node's request is answered, if every chain of requests that comes of it is no longer
than the fuel. -/
def Network.serve (net : Network) : (fuel : Nat) → ComplexNodeApp → NodeRequest → Option NodeResponse
  | 0, _, _ => none
  | fuel + 1, app, req => app.handle (fun fetcher child =>
      match net child.nodeUrl with
      | none => some (fetcher.outcome none)
      | some node => (net.serve fuel node (fetcher.request child)).map fun response =>
          fetcher.outcome (some response)) req

structure Visit where
  app : ComplexNodeApp
  req : NodeRequest

namespace Visit

def admits (v : Visit) : Bool := (v.app.accept v.req).isOk

def nodeId (v : Visit) : String := v.app.opt.nodeId

/-- While it handles its request, the node sends another. -/
def Sends (v : Visit) (fetcher : ChildFetcher) (child : ChildRequest) : Prop :=
  ∃ query, v.app.accept v.req = .ok query ∧ 0 < query.depth ∧ v.app.fetcher = some fetcher ∧
    ∃ gref ∈ v.app.opt.graph, child = v.app.childRequest v.req query gref ∧
      validateChildUrl gref.nodeUrl v.app.opt.allowedChildUrlPrefixes
        v.app.opt.rejectPrivateChildUrls v.app.opt.allowHttpChildUrls = none

end Visit

/-- Requests each of which is sent while the one before it is handled. -/
inductive Network.Chain (net : Network) : Visit → List Visit → Prop where
  | ends (v : Visit) : Chain net v [v]
  | calls {v : Visit} {fetcher : ChildFetcher} {child : ChildRequest} {node : ComplexNodeApp}
      {rest : List Visit} : v.Sends fetcher child → net child.nodeUrl = some node →
      Chain net ⟨node, fetcher.request child⟩ rest → Chain net v (v :: rest)

structure Network.Bounded (net : Network) : Prop where
  /-- A chain has one node for each level of the depth that was admitted, and one more. -/
  chains : ∀ {v : Visit} {query : AdmittedQuery} {chain : List Visit},
    v.app.accept v.req = .ok query → net.Chain v chain →
    chain.length ≤ query.depth + 1 ∧ query.depth ≤ v.app.opt.graphMaxDepth ∧
      v.app.opt.graphMaxDepth ≤ absoluteMaxDepth
  terminates : ∀ v : Visit, ∃ fuel response, ∀ more, fuel ≤ more →
    net.serve more v.app v.req = some response

def timesAnswered (id : String) (chain : List Visit) : Nat :=
  chain.countP fun v => v.admits && v.nodeId = id

/-- No chain of any network has the node on it twice. -/
def OnceOnChains (id : String) : Prop :=
  ∀ (net : Network) (v : Visit) (chain : List Visit), net.Chain v chain → timesAnswered id chain ≤ 1

section Node
variable {app : ComplexNodeApp} {req : NodeRequest} {query : AdmittedQuery} {v : Visit}
  {fetcher : ChildFetcher} {child : ChildRequest} {transport transport' : Transport}

theorem parseDepth_le {depth : Nat} (parsed : parseDepth app.opt req = .ok depth) :
    depth ≤ app.opt.graphMaxDepth := by
  unfold parseDepth at parsed
  split at parsed
  · cases parsed
    exact Nat.zero_le _
  · split at parsed
    · cases parsed
    · split_ifs at parsed with above capped
      cases parsed
      exact Nat.not_lt.mp above

/-- The depth of a request is the one that its header says. -/
theorem parseDepth_eq {depth depth' : Nat} (parsed : parseDepth app.opt req = .ok depth)
    (sent : (req.header "X-NWP-Depth").bind parseU32 = some depth') : depth = depth' := by
  unfold parseDepth at parsed
  split at parsed
  · rename_i missing
    rw [missing] at sent
    cases sent
  · rename_i raw there
    rw [there, Option.bind_some] at sent
    rw [sent] at parsed
    dsimp only at parsed
    split_ifs at parsed
    cases parsed
    rfl

theorem parseDepth_of_sent {depth : Nat}
    (sent : (req.header "X-NWP-Depth").bind parseU32 = some depth)
    (within : depth ≤ app.opt.graphMaxDepth) : parseDepth app.opt req = .ok depth := by
  obtain ⟨raw, there, read⟩ := Option.bind_eq_some_iff.mp sent
  unfold parseDepth
  rw [there]
  dsimp only
  rw [read]
  dsimp only
  rw [if_neg (Nat.not_lt.mpr within), if_neg (Nat.not_lt.mpr (within.trans app.capped))]

theorem admit_ok (admitted : app.accept req = .ok query) :
    parseDepth app.opt req = .ok query.depth ∧ query.trace = parseTrace req ∧
      app.opt.nodeId ∉ parseTrace req := by
  obtain ⟨⟨⟩, -, rest⟩ := bind_ok.mp admitted
  obtain ⟨body, -, rest⟩ := bind_ok.mp rest
  obtain ⟨frame, -, rest⟩ := bind_ok.mp rest
  obtain ⟨depth, parsed, rest⟩ := bind_ok.mp rest
  obtain ⟨⟨⟩, acyclic, rest⟩ := bind_ok.mp rest
  cases rest
  refine ⟨?_, rfl, ensure_ok.mp acyclic⟩
  cases read : parseDepth app.opt req with
  | error e =>
    rw [read] at parsed
    cases parsed
  | ok value =>
    rw [read] at parsed
    cases parsed
    rfl

theorem mapM_isSome {α β : Type} {f : α → Option β} {items : List α}
    (all : ∀ item ∈ items, (f item).isSome) : (items.mapM f).isSome := by
  induction items with
  | nil => rfl
  | cons item rest ih =>
    rw [List.forall_mem_cons] at all
    obtain ⟨result, made⟩ := Option.isSome_iff_exists.mp all.1
    obtain ⟨results, others⟩ := Option.isSome_iff_exists.mp (ih all.2)
    rw [List.mapM_cons, made, others]
    rfl

theorem mapM_congr {α β : Type} {f g : α → Option β} {items : List α}
    (alike : ∀ item ∈ items, f item = g item) : items.mapM f = items.mapM g := by
  induction items with
  | nil => rfl
  | cons item rest ih =>
    rw [List.forall_mem_cons] at alike
    rw [List.mapM_cons, List.mapM_cons, alike.1, ih alike.2]

theorem fetchChild_cases (admitted : app.accept req = .ok query) (deeper : 0 < query.depth)
    {gref : ComplexGraphRef} (member : gref ∈ app.opt.graph) :
    (∃ outcome, ∀ transport, app.fetchChild transport req query gref = some (childResult gref outcome)) ∨
    ∃ fetcher, (Visit.mk app req).Sends fetcher (app.childRequest req query gref) ∧
      ∀ transport, app.fetchChild transport req query gref =
        (transport fetcher (app.childRequest req query gref)).map (childResult gref) := by
  cases valid : validateChildUrl gref.nodeUrl app.opt.allowedChildUrlPrefixes
      app.opt.rejectPrivateChildUrls app.opt.allowHttpChildUrls with
  | some err =>
    refine .inl ⟨.err "NWP-AUTH-NID-SCOPE-VIOLATION" err, fun transport => ?_⟩
    simp only [ComplexNodeApp.fetchChild, valid]
  | none =>
    cases there : app.fetcher with
    | none =>
      refine .inl ⟨.err "NWP-NODE-UNAVAILABLE" "no child fetcher configured on this Complex Node.",
        fun transport => ?_⟩
      simp only [ComplexNodeApp.fetchChild, valid, there]
    | some fetcher =>
      refine .inr ⟨fetcher, ⟨query, admitted, deeper, there, gref, member, rfl, valid⟩, fun transport => ?_⟩
      simp only [ComplexNodeApp.fetchChild, valid, there]

theorem handle_congr (alike : ∀ fetcher child, (Visit.mk app req).Sends fetcher child →
    transport fetcher child = transport' fetcher child) :
    app.handle transport req = app.handle transport' req := by
  unfold ComplexNodeApp.handle
  cases admitted : app.accept req with
  | error response => rfl
  | ok query =>
    have same : app.expand transport req query = app.expand transport' req query := by
      unfold ComplexNodeApp.expand
      split_ifs with deeper
      · have each : app.opt.graph.mapM (app.fetchChild transport req query) =
            app.opt.graph.mapM (app.fetchChild transport' req query) := by
          refine mapM_congr fun gref member => ?_
          rcases fetchChild_cases admitted deeper.1 member with ⟨outcome, fixed⟩ | ⟨fetcher, sends, asked⟩
          · rw [fixed, fixed]
          · rw [asked, asked, alike fetcher _ sends]
        rw [each]
      · rfl
    simp only [same]

theorem handle_isSome (answered : ∀ fetcher child, (Visit.mk app req).Sends fetcher child →
    (transport fetcher child).isSome) : (app.handle transport req).isSome := by
  unfold ComplexNodeApp.handle
  cases admitted : app.accept req with
  | error response => rfl
  | ok query =>
    dsimp only
    split
    · rfl
    · rw [Option.isSome_map]
      unfold ComplexNodeApp.expand
      split_ifs with deeper
      · rw [Option.isSome_map]
        refine mapM_isSome fun gref member => ?_
        rcases fetchChild_cases admitted deeper.1 member with ⟨outcome, fixed⟩ | ⟨fetcher, sends, asked⟩
        · rw [fixed]
          rfl
        · rw [asked, Option.isSome_map]
          exact answered fetcher _ sends
      · rfl

end Node

namespace Visit

def depth (v : Visit) : Nat :=
  match v.app.accept v.req with
  | .ok query => query.depth
  | .error _ => 0

section
variable {v : Visit} {fetcher : ChildFetcher} {child : ChildRequest} {node : ComplexNodeApp}

theorem depth_eq {query : AdmittedQuery} (admitted : v.app.accept v.req = .ok query) :
    v.depth = query.depth := by
  rw [depth, admitted]

theorem depth_le (v : Visit) : v.depth ≤ v.app.opt.graphMaxDepth := by
  cases admitted : v.app.accept v.req with
  | error response =>
    rw [depth, admitted]
    exact Nat.zero_le _
  | ok query =>
    rw [depth_eq admitted]
    exact parseDepth_le (admit_ok admitted).1

/-- The child reads one level less, if it admits the request at all. -/
theorem Sends.depth_lt (sends : v.Sends fetcher child) :
    (Visit.mk node (fetcher.request child)).depth < v.depth := by
  obtain ⟨query, admitted, deeper, -, gref, -, same, -⟩ := sends
  rw [depth_eq admitted]
  cases asked : node.accept (fetcher.request child) with
  | error response =>
    rw [depth, asked]
    exact deeper
  | ok query' =>
    have capped : query.depth ≤ absoluteMaxDepth := (parseDepth_le (admit_ok admitted).1).trans v.app.capped
    have lower : child.childDepth = query.depth - 1 := by rw [same]; rfl
    have small : child.childDepth < 2 ^ 32 := by
      rw [lower]
      unfold absoluteMaxDepth at capped
      omega
    rw [depth_eq asked, parseDepth_eq (admit_ok asked).1 (fetcher.depth_sent child small), lower]
    exact Nat.sub_one_lt (Nat.ne_of_gt deeper)

end
end Visit

namespace Network
variable {net : Network} {v : Visit} {chain : List Visit}

theorem Chain.length_le (chained : net.Chain v chain) : chain.length ≤ v.depth + 1 := by
  induction chained with
  | ends v => exact Nat.le_add_left 1 v.depth
  | @calls v fetcher child node rest sends there later ih =>
    have lower : (Visit.mk node (fetcher.request child)).depth < v.depth := sends.depth_lt
    rw [List.length_cons]
    omega

/-- With more fuel than depth the fuel does not matter. -/
theorem serve_stable {fuel more : Nat} (enough : v.depth < fuel) (enough' : v.depth < more) :
    net.serve fuel v.app v.req = net.serve more v.app v.req := by
  induction fuel generalizing v more with
  | zero => exact absurd enough (Nat.not_lt_zero _)
  | succ fuel ih =>
    cases more with
    | zero => exact absurd enough' (Nat.not_lt_zero _)
    | succ more =>
      refine handle_congr fun fetcher child sends => ?_
      cases net child.nodeUrl with
      | none => rfl
      | some node =>
        have lower : (Visit.mk node (fetcher.request child)).depth < v.depth := sends.depth_lt
        have same : net.serve fuel node (fetcher.request child) =
            net.serve more node (fetcher.request child) :=
          ih (v := ⟨node, fetcher.request child⟩) (by omega) (by omega)
        simp only [same]

theorem serve_isSome {fuel : Nat} (enough : v.depth < fuel) :
    (net.serve fuel v.app v.req).isSome := by
  induction fuel generalizing v with
  | zero => exact absurd enough (Nat.not_lt_zero _)
  | succ fuel ih =>
    refine handle_isSome fun fetcher child sends => ?_
    cases net child.nodeUrl with
    | none => rfl
    | some node =>
      have lower : (Visit.mk node (fetcher.request child)).depth < v.depth := sends.depth_lt
      have answered := ih (v := ⟨node, fetcher.request child⟩) (by omega)
      simpa using answered

theorem bounded (net : Network) : net.Bounded where
  chains {v query chain} admitted chained := by
    have depth := Visit.depth_eq admitted
    exact ⟨depth ▸ chained.length_le, depth ▸ v.depth_le, v.app.capped⟩
  terminates v := by
    obtain ⟨response, served⟩ := Option.isSome_iff_exists.mp
      (net.serve_isSome (Nat.lt_succ_self v.depth))
    refine ⟨v.depth + 1, response, fun more enough => ?_⟩
    rw [← served]
    exact serve_stable enough (Nat.lt_succ_self _)

theorem Chain.traced {id : String} (traceable : Traceable id) (chained : net.Chain v chain)
    (traced : id ∈ parseTrace v.req) : ∀ u ∈ chain, id ∈ parseTrace u.req := by
  induction chained with
  | ends v =>
    intro u member
    exact List.mem_singleton.mp member ▸ traced
  | @calls v fetcher child node rest sends there later ih =>
    obtain ⟨query, admitted, -, -, gref, -, same, -⟩ := sends
    have kept : id ∈ child.trace := by
      rw [same]
      refine List.mem_append_left _ ?_
      rwa [(admit_ok admitted).2.1]
    intro u member
    rcases List.mem_cons.mp member with rfl | after
    · exact traced
    · exact ih (fetcher.trace_sent child id kept traceable) u after

end Network

theorem Visit.refused_of_traced {v : Visit} (traced : v.nodeId ∈ parseTrace v.req) :
    v.admits = false := by
  unfold Visit.admits
  cases admitted : v.app.accept v.req with
  | error response => rfl
  | ok query => exact absurd traced (admit_ok admitted).2.2

theorem onceOnChains_of_traceable {id : String} (traceable : Traceable id) : OnceOnChains id := by
  intro net v chain chained
  induction chained with
  | ends v => exact List.countP_le_length
  | @calls v fetcher child node rest sends there later ih =>
    unfold timesAnswered at ih ⊢
    rw [List.countP_cons]
    split
    · rename_i here
      have own : v.nodeId = id := by simpa using (Bool.and_eq_true_iff.mp here).2
      obtain ⟨query, -, -, -, gref, -, same, -⟩ := sends
      have told : id ∈ child.trace := by
        rw [same, ← own]
        exact List.mem_append_right _ (List.mem_singleton_self _)
      have traced := later.traced traceable (fetcher.trace_sent child id told traceable)
      -- The trace of every later request has the id, so a node of it refuses.
      have none_ : rest.countP (fun u => u.admits && u.nodeId = id) = 0 := by
        refine List.countP_eq_zero.mpr fun u member => ?_
        by_cases same_ : u.nodeId = id
        · rw [Visit.refused_of_traced (same_ ▸ traced u member)]
          exact Bool.false_ne_true
        · simp [same_]
      rw [none_]
    · exact ih

theorem traceable_of_mem {req : NodeRequest} {id : String} (member : id ∈ parseTrace req) :
    Traceable id := by
  unfold parseTrace at member
  cases there : req.header "X-NWP-Trace" with
  | none =>
    rw [there] at member
    cases member
  | some raw =>
    rw [there, Option.map_some, Option.getD_some, List.mem_filter, List.mem_map] at member
    obtain ⟨⟨text, inside, rfl⟩, nonempty⟩ := member
    obtain ⟨chars, part, rfl⟩ := List.mem_map.mp inside
    refine ⟨of_decide_eq_true nonempty, Text.trim_trim _, Text.notMem_trim ?_⟩
    rw [String.toList_ofList]
    exact Text.separator_notMem part

theorem parseU32_digits {n : Nat} (small : n < 2 ^ 32) : parseU32 (toString n) = some n := by
  have digits : (Nat.toDigits 10 n).all Char.isDigit = true :=
    List.all_eq_true.mpr fun _ member => Json.toDigits_isDigit member
  have text : (toString n).toList = Nat.toDigits 10 n := by simp
  unfold parseU32
  rw [text]
  split
  · rename_i rest same
    rw [same] at digits
    simp at digits
  · simp only [ne_eq, Nat.toDigits_ne_nil, not_false_eq_true, digits, and_self, if_true,
      Nat.ofDigitChars_ten_toDigits, small]

/-- A header that is sent when there is something to send. -/
def withHeader (name : String) (value : Option String) (headers : Assoc String String) :
    Assoc String String :=
  match value with
  | some text => headers.insert name text
  | none => headers

theorem withHeader_lookup {name other : String} (different : other ≠ name) (value : Option String)
    (headers : Assoc String String) :
    (withHeader name value headers).lookup other = headers.lookup other := by
  cases value with
  | none => rfl
  | some text => exact AList.lookup_insert_ne different

def childHeaders (child : ChildRequest) : Assoc String String :=
  withHeader "x-nwp-agent" child.agent <| withHeader "x-nwp-budget" child.budget <|
    ((∅ : Assoc String String).insert "x-nwp-depth" (toString child.childDepth)).insert "x-nwp-trace"
      (String.ofList (Text.joinChars ',' (child.trace.map String.toList)))

/-- A fetcher that writes the trace as a list with commas in between. -/
def listingFetcher : ChildFetcher where
  request child := { headers := childHeaders child, body := .ok child.body }
  outcome
    | some response =>
      if response.status = 200 then .ok response.body
      else .err "NWP-NODE-UNAVAILABLE" "the child refused the query."
    | none => .err "NWP-NODE-UNAVAILABLE" "no node at the child's URL."
  depth_sent child small := by
    have sent : (childHeaders child).lookup "x-nwp-depth" = some (toString child.childDepth) := by
      unfold childHeaders
      rw [withHeader_lookup (by decide), withHeader_lookup (by decide),
        AList.lookup_insert_ne (by decide), AList.lookup_insert]
    change ((childHeaders child).lookup "x-nwp-depth").bind parseU32 = _
    rw [sent]
    exact parseU32_digits small
  trace_sent child id member traceable := by
    have sent : (childHeaders child).lookup "x-nwp-trace" =
        some (String.ofList (Text.joinChars ',' (child.trace.map String.toList))) := by
      unfold childHeaders
      rw [withHeader_lookup (by decide), withHeader_lookup (by decide), AList.lookup_insert]
    change id ∈ (((childHeaders child).lookup "x-nwp-trace").map _).getD []
    rw [sent, Option.map_some, Option.getD_some, List.mem_filter, List.mem_map]
    refine ⟨⟨id, ?_, traceable.trimmed⟩, decide_eq_true traceable.nonempty⟩
    have part : id.toList ∈ Text.splitChars ',' (Text.joinChars ',' (child.trace.map String.toList)) :=
      Text.mem_splitChars_join (List.mem_map_of_mem member) traceable.whole
    refine List.mem_map.mpr ⟨id.toList, ?_, String.ofList_toList⟩
    rwa [String.toList_ofList]

namespace SelfLoop

def url : String := "https://node.example.com/a"

def app (id : String) : ComplexNodeApp where
  opt := { nodeId := id, graph := [⟨"self", url⟩] }
  provider _ _ := .ok ⟨[], none⟩
  fetcher := some listingFetcher
  anchorId := ""
  capped := Nat.le_of_ble_eq_true rfl

def net (id : String) : Network := fun at_ => if at_ = url then some (app id) else none

def request : NodeRequest := ⟨(∅ : Assoc String String).insert "x-nwp-depth" "1", .ok (.object [])⟩

def first : AdmittedQuery := ⟨.object [], .ofObject [] 20, 1, []⟩

theorem first_admitted (id : String) : (app id).accept request = .ok first := rfl

def again (id : String) : ChildRequest :=
  (app id).childRequest request first ⟨"self", url⟩

theorem valid : validateChildUrl url [] true false = none := by decide +kernel

theorem sends (id : String) : (Visit.mk (app id) request).Sends listingFetcher (again id) :=
  ⟨first, first_admitted id, Nat.one_pos, rfl, ⟨"self", url⟩, List.mem_singleton_self _, rfl, valid⟩

/-- A node whose id the trace cannot tell admits its own request. -/
theorem again_admitted {id : String} (untold : ¬ Traceable id) :
    ((app id).accept (listingFetcher.request (again id))).isOk = true := by
  have missing : (app id).opt.nodeId ∉ parseTrace (listingFetcher.request (again id)) :=
    fun member => untold (traceable_of_mem member)
  have depth : parseDepth (app id).opt (listingFetcher.request (again id)) = .ok 0 :=
    parseDepth_of_sent (listingFetcher.depth_sent (again id) (by change 0 < 2 ^ 32; decide))
      (Nat.zero_le _)
  unfold ComplexNodeApp.accept
  rw [depth]
  simp only [ensure_true missing]
  rfl

theorem chained (id : String) : (net id).Chain ⟨app id, request⟩
    [⟨app id, request⟩, ⟨app id, listingFetcher.request (again id)⟩] :=
  .calls (sends id) rfl (.ends _)

theorem answered_twice {id : String} (untold : ¬ Traceable id) :
    timesAnswered id [⟨app id, request⟩, ⟨app id, listingFetcher.request (again id)⟩] = 2 := by
  have second := again_admitted untold
  simp only [timesAnswered, List.countP_cons, List.countP_nil, Visit.admits, Visit.nodeId, second,
    first_admitted]
  simp [app, Except.isOk, Except.toBool]

end SelfLoop

/-- Every chain of requests is bounded by the depth and every request is answered. A node is never
twice on a chain, in any network, exactly if the trace can tell its id. -/
theorem recursion_bounded (net : Network) (id : String) :
    net.Bounded ∧ (OnceOnChains id ↔ Traceable id) := by
  refine ⟨net.bounded, fun once => ?_, onceOnChains_of_traceable⟩
  by_contra untold
  have few := once _ _ _ (SelfLoop.chained id)
  rw [SelfLoop.answered_twice untold] at few
  omega

/-- A node with a comma in its id asks itself and answers. -/
theorem node_repeated : ¬ ∀ (net : Network) (v : Visit) (chain : List Visit), net.Chain v chain →
    ((chain.filter Visit.admits).map Visit.nodeId).Nodup := by
  intro claimed
  let id : String := "urn:nps:node:example.com:a,b"
  have once := claimed _ _ _ (SelfLoop.chained id)
  have untold : ¬ Traceable id := by
    rintro ⟨-, -, whole⟩
    exact absurd whole (by decide)
  rw [List.filter_eq_self.mpr] at once
  · exact absurd List.mem_cons_self (List.nodup_cons.mp once).1
  · rintro v (_ | ⟨_, _ | ⟨_, ⟨⟩⟩⟩)
    · exact congrArg Except.isOk (SelfLoop.first_admitted id)
    · exact SelfLoop.again_admitted untold

end Nps.Nwp.ComplexNode
