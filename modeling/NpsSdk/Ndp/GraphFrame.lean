import NpsSdk.Ndp.Frames

/-! The topology that a node publishes: its dictionaries, and which of them read back whole. -/
namespace Nps.Ndp
open Nps.Core Json
open Nps.Nip (optStr optStr_of_get)
open Nps.Ncp (optU64)

def maxGraphNodes : ℕ := 256
def maxGraphEdges : ℕ := 1024

def graphTooLarge : String := "NDP-GRAPH-TOO-LARGE"
def graphInvalid : String := "NDP-GRAPH-INVALID"

structure GraphNode where
  nid : String
  clusterAnchor : Option String := none
  nodeRoles : Option (List String) := none
deriving DecidableEq

structure GraphEdge where
  fromNid : String
  toNid : String
  latencyMs : Option UInt32 := none
  protocol : Option String := none
deriving DecidableEq

/-- What a derived reader takes for the fields of these names: the members of an object, or the
items of an array that has just as many. -/
def derivedFields (names : List String) : Value → Option (List (Option Value))
  | .object fields => some (names.map fun name => get name fields)
  | .array items => if items.length = names.length then some (items.map some) else none
  | _ => none

def requiredField {α : Type} (read : Value → Option α) (field : Option Value) : Option α :=
  field.bind read

def optionalField {α : Type} (read : Value → Option α) : Option Value → Option (Option α)
  | none => some none
  | some .null => some none
  | some value => (read value).map some

def asU32 (value : Value) : Option UInt32 :=
  value.asU64.bind fun n => if n < 2 ^ 32 then some (.ofNat n) else none

def u32 (value : UInt32) : Value := .number (.int value.toNat)

def asStrings (value : Value) : Option (List String) :=
  value.asArray.bind Nip.IdentReputationPolicyHint.strings

namespace GraphNode

def toValue (node : GraphNode) : Value :=
  let m := insert "nid" (.string node.nid) []
  let m := insertSome "cluster_anchor" (node.clusterAnchor.map .string) m
  .object (insertSome "node_roles" (node.nodeRoles.map stringArray) m)

def fromValue (value : Value) : Option GraphNode :=
  match derivedFields ["nid", "cluster_anchor", "node_roles"] value with
  | some [nid, clusterAnchor, nodeRoles] => do
    let nid ← requiredField Value.asStr nid
    let clusterAnchor ← optionalField Value.asStr clusterAnchor
    let nodeRoles ← optionalField asStrings nodeRoles
    return { nid, clusterAnchor, nodeRoles }
  | _ => none

end GraphNode

namespace GraphEdge

def toValue (edge : GraphEdge) : Value :=
  let m := insert "from_nid" (.string edge.fromNid) []
  let m := insert "to_nid" (.string edge.toNid) m
  let m := insertSome "latency_ms" (edge.latencyMs.map u32) m
  .object (insertSome "protocol" (edge.protocol.map .string) m)

def fromValue (value : Value) : Option GraphEdge :=
  match derivedFields ["from_nid", "to_nid", "latency_ms", "protocol"] value with
  | some [fromNid, toNid, latencyMs, protocol] => do
    let fromNid ← requiredField Value.asStr fromNid
    let toNid ← requiredField Value.asStr toNid
    let latencyMs ← optionalField asU32 latencyMs
    let protocol ← optionalField Value.asStr protocol
    return { fromNid, toNid, latencyMs, protocol }
  | _ => none

end GraphEdge

structure GraphFrame where
  graphId : String
  nodes : List GraphNode
  edges : List GraphEdge
  ttl : UInt32
  metadata : Option Fields := none

def keptItems {α : Type} (read : Value → Option α) (dict : FrameDict) (key : String) : List α :=
  (((get key dict).bind Value.asArray).map fun items => items.filterMap read).getD []

namespace GraphFrame

def toDict (frame : GraphFrame) : FrameDict :=
  let m := insert "graph_id" (.string frame.graphId) []
  let m := insert "nodes" (.array (frame.nodes.map GraphNode.toValue)) m
  let m := insert "edges" (.array (frame.edges.map GraphEdge.toValue)) m
  let m := insert "ttl" (u32 frame.ttl) m
  insertSome "metadata" (frame.metadata.map .object) m

def validateNodes : List GraphNode → NpsResult Unit
  | [] => .ok ()
  | node :: rest => do
    Outcome.ensure (node.nid ≠ "") (.frame s!"{graphInvalid}: graph nodes require nid")
    validateNodes rest

def validateEdges (nodeIds : List String) : List GraphEdge → NpsResult Unit
  | [] => .ok ()
  | edge :: rest => do
    Outcome.ensure (edge.fromNid ≠ "" ∧ edge.toNid ≠ "")
      (.frame s!"{graphInvalid}: graph edges require from_nid and to_nid")
    Outcome.ensure (edge.fromNid ≠ edge.toNid)
      (.frame s!"{graphInvalid}: graph self-edges are forbidden")
    Outcome.ensure (edge.fromNid ∈ nodeIds ∧ edge.toNid ∈ nodeIds)
      (.frame s!"{graphInvalid}: graph edge endpoints must appear in nodes")
    validateEdges nodeIds rest

def validate (frame : GraphFrame) : NpsResult Unit := do
  Outcome.ensure (frame.nodes.length ≤ maxGraphNodes)
    (.frame s!"{graphTooLarge}: nodes length exceeds {maxGraphNodes}")
  Outcome.ensure (frame.edges.length ≤ maxGraphEdges)
    (.frame s!"{graphTooLarge}: edges length exceeds {maxGraphEdges}")
  validateNodes frame.nodes
  validateEdges (frame.nodes.map GraphNode.nid) frame.edges

/-- The frame that a dictionary gives before it is validated. -/
def unchecked (dict : FrameDict) : GraphFrame :=
  { graphId := (optStr dict "graph_id").getD ""
    nodes := keptItems GraphNode.fromValue dict "nodes"
    edges := keptItems GraphEdge.fromValue dict "edges"
    ttl := ((optU64 dict "ttl").getD 300).toUInt32
    metadata := (get "metadata" dict).bind Value.asObject }

def fromDict (dict : FrameDict) : NpsResult GraphFrame := do
  let frame := unchecked dict
  frame.validate
  return frame

end GraphFrame

/-- Within the limits, with named nodes, and with edges between two of them. -/
structure Topology (nodes : List GraphNode) (edges : List GraphEdge) : Prop where
  nodesFit : nodes.length ≤ maxGraphNodes
  edgesFit : edges.length ≤ maxGraphEdges
  named : ∀ node ∈ nodes, node.nid ≠ ""
  joined : ∀ edge ∈ edges, edge.fromNid ≠ edge.toNid ∧
    edge.fromNid ∈ nodes.map GraphNode.nid ∧ edge.toNid ∈ nodes.map GraphNode.nid

namespace GraphFrame

theorem validateNodes_ok {nodes : List GraphNode} :
    validateNodes nodes = .ok () ↔ ∀ node ∈ nodes, node.nid ≠ "" := by
  induction nodes with
  | nil => simp [validateNodes]
  | cons node rest ih => simp [validateNodes, Outcome.bind_ok, ih]

theorem validateEdges_ok {nodeIds : List String} {edges : List GraphEdge} :
    validateEdges nodeIds edges = .ok () ↔ ∀ edge ∈ edges, (edge.fromNid ≠ "" ∧ edge.toNid ≠ "") ∧
      edge.fromNid ≠ edge.toNid ∧ edge.fromNid ∈ nodeIds ∧ edge.toNid ∈ nodeIds := by
  induction edges with
  | nil => simp [validateEdges]
  | cons edge rest ih =>
    simp only [validateEdges, Outcome.bind_ok, Outcome.ensure_ok, ih, List.forall_mem_cons,
      Unique.exists_iff, and_assoc]

theorem validate_ok {frame : GraphFrame} :
    frame.validate = .ok () ↔ Topology frame.nodes frame.edges := by
  have checks : frame.validate = .ok () ↔ frame.nodes.length ≤ maxGraphNodes ∧
      frame.edges.length ≤ maxGraphEdges ∧ validateNodes frame.nodes = .ok () ∧
      validateEdges (frame.nodes.map GraphNode.nid) frame.edges = .ok () := by
    simp [validate, Outcome.bind_ok, Unique.exists_iff]
  rw [checks, validateNodes_ok, validateEdges_ok]
  constructor
  · rintro ⟨nodesFit, edgesFit, named, joined⟩
    exact ⟨nodesFit, edgesFit, named, fun edge member => (joined edge member).2⟩
  · rintro ⟨nodesFit, edgesFit, named, joined⟩
    refine ⟨nodesFit, edgesFit, named, fun edge member => ⟨?_, joined edge member⟩⟩
    -- an empty endpoint would be an unnamed node
    have listed {nid : String} (at_ : nid ∈ frame.nodes.map GraphNode.nid) : nid ≠ "" := by
      obtain ⟨node, known, rfl⟩ := List.mem_map.mp at_
      exact named node known
    exact ⟨listed (joined edge member).2.1, listed (joined edge member).2.2⟩

theorem fromDict_ok {dict : FrameDict} {frame : GraphFrame} :
    fromDict dict = .ok frame ↔
      unchecked dict = frame ∧ Topology (unchecked dict).nodes (unchecked dict).edges := by
  simp [fromDict, Outcome.bind_ok, Unique.exists_iff, validate_ok, and_comm]

end GraphFrame

def Listed (dict : FrameDict) (key : String) (items : List Value) : Prop :=
  (get key dict).elim (items = []) (· = .array items)

def Spells {α : Type} (read : Value → Option α) (dict : FrameDict) (key : String)
    (elements : List α) : Prop :=
  ∃ items, Listed dict key items ∧ items.map read = elements.map some

/-- An array, if anything, of which every element is well formed. -/
def WellFormed {α : Type} (read : Value → Option α) (dict : FrameDict) (key : String) : Prop :=
  ∃ items, Listed dict key items ∧ ∀ item ∈ items, (read item).isSome

def TtlIs (dict : FrameDict) (ttl : UInt32) : Prop :=
  (get "ttl" dict).elim (ttl = 300) fun value => value.asU64 = some ttl.toNat

def TtlFits (dict : FrameDict) : Prop :=
  ∀ value, get "ttl" dict = some value → ∃ n < 2 ^ 32, value.asU64 = some n

theorem map_read_iff {α : Type} {read : Value → Option α} {items : List Value} {elements : List α} :
    items.map read = elements.map some ↔
      (∀ item ∈ items, (read item).isSome) ∧ items.filterMap read = elements := by
  induction items generalizing elements with
  | nil => cases elements <;> simp
  | cons item rest ih =>
    cases taken : read item with
    | none => cases elements <;> simp [taken]
    | some element =>
      cases elements with
      | nil => simp [taken]
      | cons first others => simp [taken, ih, and_left_comm]

theorem keptItems_eq {α : Type} {read : Value → Option α} {dict : FrameDict} {key : String}
    {items : List Value} (listed : Listed dict key items) :
    keptItems read dict key = items.filterMap read := by
  unfold Listed at listed
  cases held : get key dict with
  | none =>
    rw [held] at listed
    subst listed
    simp [keptItems, held]
  | some value =>
    rw [held] at listed
    subst listed
    simp [keptItems, held, Value.asArray]

/-- What the dictionary spells is what the reader keeps, unless it drops something. -/
theorem spells_iff {α : Type} {read : Value → Option α} {dict : FrameDict} {key : String}
    {elements : List α} :
    Spells read dict key elements ↔ WellFormed read dict key ∧ keptItems read dict key = elements := by
  constructor
  · rintro ⟨items, listed, same⟩
    obtain ⟨formed, kept⟩ := map_read_iff.mp same
    exact ⟨⟨items, listed, formed⟩, (keptItems_eq listed).trans kept⟩
  · rintro ⟨⟨items, listed, formed⟩, kept⟩
    exact ⟨items, listed, map_read_iff.mpr ⟨formed, (keptItems_eq listed).symm.trans kept⟩⟩

/-- The number of the dictionary is the frame's, unless it was cut to 32 bits or replaced. -/
theorem ttlIs_unchecked {dict : FrameDict} :
    TtlIs dict (GraphFrame.unchecked dict).ttl ↔ TtlFits dict := by
  unfold TtlIs TtlFits GraphFrame.unchecked
  cases held : get "ttl" dict with
  | none => simp [optU64, held]
  | some value =>
    cases number : value.asU64 with
    | none => simp [number]
    | some n =>
      have cut : (UInt64.ofNat n).toUInt32.toNat = n % 2 ^ 64 % 2 ^ 32 := by
        rw [UInt64.toNat_toUInt32, UInt64.toNat_ofNat']
      simp only [optU64, held, number, Option.elim_some, Option.bind_some, Option.map_some,
        Option.getD_some, Option.some.injEq, cut, forall_eq', exists_eq_right']
      omega

namespace GraphFrame

def Spelled (dict : FrameDict) (frame : GraphFrame) : Prop :=
  Spells GraphNode.fromValue dict "nodes" frame.nodes ∧
    Spells GraphEdge.fromValue dict "edges" frame.edges ∧ TtlIs dict frame.ttl

/-- Every element is well formed, and together they are a topology. -/
def Acceptable (dict : FrameDict) : Prop :=
  ∃ nodes edges, Spells GraphNode.fromValue dict "nodes" nodes ∧
    Spells GraphEdge.fromValue dict "edges" edges ∧ Topology nodes edges

/-- The reader takes what is acceptable and nothing else, and what it takes is what was sent. -/
def Exact (dict : FrameDict) : Prop :=
  ((∃ frame, fromDict dict = .ok frame) ↔ Acceptable dict) ∧
    ∀ frame, fromDict dict = .ok frame → Spelled dict frame

def Whole (dict : FrameDict) : Prop :=
  WellFormed GraphNode.fromValue dict "nodes" ∧ WellFormed GraphEdge.fromValue dict "edges" ∧
    TtlFits dict

theorem spelled_unchecked {dict : FrameDict} : Spelled dict (unchecked dict) ↔ Whole dict := by
  simp only [Spelled, Whole, spells_iff, ttlIs_unchecked]
  simp [unchecked]

theorem acceptable_iff {dict : FrameDict} :
    Acceptable dict ↔ (WellFormed GraphNode.fromValue dict "nodes" ∧
      WellFormed GraphEdge.fromValue dict "edges") ∧
        Topology (unchecked dict).nodes (unchecked dict).edges := by
  simp only [Acceptable, spells_iff]
  constructor
  · rintro ⟨nodes, edges, ⟨nodesFormed, rfl⟩, ⟨edgesFormed, rfl⟩, topology⟩
    exact ⟨⟨nodesFormed, edgesFormed⟩, topology⟩
  · rintro ⟨⟨nodesFormed, edgesFormed⟩, topology⟩
    exact ⟨_, _, ⟨nodesFormed, rfl⟩, ⟨edgesFormed, rfl⟩, topology⟩

theorem exact_iff_whole {dict : FrameDict} :
    Exact dict ↔ (Topology (unchecked dict).nodes (unchecked dict).edges → Whole dict) := by
  simp only [Exact, fromDict_ok, acceptable_iff]
  constructor
  · rintro ⟨-, spelled⟩ topology
    exact spelled_unchecked.mp (spelled _ ⟨rfl, topology⟩)
  · intro whole
    refine ⟨⟨?_, ?_⟩, ?_⟩
    · rintro ⟨frame, -, topology⟩
      exact ⟨⟨(whole topology).1, (whole topology).2.1⟩, topology⟩
    · rintro ⟨-, topology⟩
      exact ⟨_, rfl, topology⟩
    · rintro frame ⟨rfl, topology⟩
      exact spelled_unchecked.mpr (whole topology)

end GraphFrame

theorem optionalField_map {α : Type} {read : Value → Option α} {write : α → Value}
    (inverse : ∀ a, read (write a) = some a) (there : ∀ a, write a ≠ .null) (field : Option α) :
    optionalField read (field.map write) = some field := by
  cases field with
  | none => rfl
  | some a =>
    rw [Option.map_some]
    unfold optionalField
    split
    · contradiction
    · next same => exact absurd (Option.some.inj same) (there a)
    · next value same => rw [← Option.some.inj same, inverse, Option.map_some]

theorem asStr_string (text : String) : Value.asStr (.string text) = some text := rfl

theorem asStrings_stringArray (texts : List String) : asStrings (stringArray texts) = some texts :=
  Nip.IdentReputationPolicyHint.strings_map texts

theorem asU32_u32 (value : UInt32) : asU32 (u32 value) = some value := by
  have small : value.toNat < 2 ^ 32 := value.toNat_lt
  have read : Value.asU64 (u32 value) = some value.toNat := if_pos (by omega)
  rw [asU32, read, Option.bind_some, if_pos small, UInt32.ofNat_toNat]

theorem GraphNode.fromValue_toValue (node : GraphNode) : fromValue node.toValue = some node := by
  have empty (key : String) : get key ([] : Fields) = none := rfl
  have anchor := optionalField_map asStr_string (by simp) node.clusterAnchor
  have roles := optionalField_map asStrings_stringArray (by simp [stringArray]) node.nodeRoles
  simp (disch := decide) only [fromValue, toValue, derivedFields, List.map_cons, List.map_nil,
    get_insertSome_ne, get_insertSome_self, get_insert_ne, get_insert_self, empty, Option.or_none,
    requiredField, Option.bind_some, asStr_string, anchor, roles, Option.bind_eq_bind, Option.pure_def]

theorem GraphEdge.fromValue_toValue (edge : GraphEdge) : fromValue edge.toValue = some edge := by
  have empty (key : String) : get key ([] : Fields) = none := rfl
  have latency := optionalField_map asU32_u32 (by simp [u32]) edge.latencyMs
  have protocol := optionalField_map asStr_string (by simp) edge.protocol
  simp (disch := decide) only [fromValue, toValue, derivedFields, List.map_cons, List.map_nil,
    get_insertSome_ne, get_insertSome_self, get_insert_ne, get_insert_self, empty, Option.or_none,
    requiredField, Option.bind_some, asStr_string, latency, protocol, Option.bind_eq_bind, Option.pure_def]

namespace GraphFrame

theorem get_toDict (frame : GraphFrame) :
    get "graph_id" frame.toDict = some (.string frame.graphId) ∧
    get "nodes" frame.toDict = some (.array (frame.nodes.map GraphNode.toValue)) ∧
    get "edges" frame.toDict = some (.array (frame.edges.map GraphEdge.toValue)) ∧
    get "ttl" frame.toDict = some (u32 frame.ttl) ∧
    get "metadata" frame.toDict = frame.metadata.map .object := by
  have empty (key : String) : get key ([] : FrameDict) = none := rfl
  simp (disch := decide) only [toDict, get_insertSome_ne, get_insertSome_self, get_insert_ne,
    get_insert_self, empty, Option.or_none, and_self]

theorem keptItems_map {α : Type} {read : Value → Option α} {write : α → Value}
    (inverse : ∀ a, read (write a) = some a) {dict : FrameDict} {key : String} {elements : List α}
    (held : get key dict = some (.array (elements.map write))) :
    keptItems read dict key = elements := by
  have whole : (elements.map write).map read = elements.map some := by
    simp [Function.comp_def, inverse]
  simp [keptItems, held, Value.asArray, (map_read_iff.mp whole).2]

theorem unchecked_toDict (frame : GraphFrame) : unchecked frame.toDict = frame := by
  obtain ⟨graphId, nodes, edges, ttl, metadata⟩ := get_toDict frame
  have id : optStr frame.toDict "graph_id" = some frame.graphId := optStr_of_get graphId
  have lifetime : ((optU64 frame.toDict "ttl").getD 300).toUInt32 = frame.ttl := by
    have small : frame.ttl.toNat < 2 ^ 32 := frame.ttl.toNat_lt
    have read : Value.asU64 (u32 frame.ttl) = some frame.ttl.toNat := if_pos (by omega)
    apply UInt32.toNat.inj
    rw [optU64, ttl, Option.bind_some, read, Option.map_some, Option.getD_some,
      UInt64.toNat_toUInt32, UInt64.toNat_ofNat']
    omega
  have more : (get "metadata" frame.toDict).bind Value.asObject = frame.metadata := by
    rw [metadata]
    cases frame.metadata <;> rfl
  rw [unchecked, id, Option.getD_some, keptItems_map GraphNode.fromValue_toValue nodes,
    keptItems_map GraphEdge.fromValue_toValue edges, lifetime, more]

/-- A dictionary is read exactly unless the elements that are kept are a topology while something
was dropped or cut; a topology that was written reads back. -/
theorem graph_exact_iff (dict : FrameDict) :
    (Exact dict ↔
      (Topology (keptItems GraphNode.fromValue dict "nodes") (keptItems GraphEdge.fromValue dict "edges") →
        Whole dict)) ∧
      ∀ frame : GraphFrame, frame.validate = .ok () → fromDict frame.toDict = .ok frame := by
  refine ⟨exact_iff_whole, fun frame valid => ?_⟩
  rw [fromDict_ok, unchecked_toDict]
  exact ⟨rfl, validate_ok.mp valid⟩

/-- One node, and one element that is none. -/
def dropped : FrameDict :=
  [("nodes", .array [GraphNode.toValue { nid := "a" }, .number (.int 5)])]

theorem dropped_inexact : ¬ Exact dropped := by
  have topology : Topology (unchecked dropped).nodes (unchecked dropped).edges :=
    validate_ok.mp (by decide)
  intro exact_
  obtain ⟨⟨items, listed, formed⟩, -⟩ := exact_iff_whole.mp exact_ topology
  have same : [GraphNode.toValue { nid := "a" }, .number (.int 5)] = items := Value.array.inj listed
  have taken := formed (.number (.int 5)) (by simp [← same])
  exact absurd taken (by decide)

end GraphFrame
end Nps.Ndp
