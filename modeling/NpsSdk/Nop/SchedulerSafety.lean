import NpsSdk.Nop.Rounds

/-! What the scheduler may start: nodes whose dependencies have succeeded in sufficient number, each
of them once, with the results so far, and no more at a time than there is room for. -/
namespace Nps.Nop
open Json (Value Fields)
open Interaction Prog

section Turns
variable [CharClasses]

/-- What a turn did: the nodes that it started, and the one that was done first. -/
structure Happened where
  started : List DagNode
  nodeId : String
  outcome : NodeOutcome

def begun (opts : NopOrchestratorOptions) (loop : Loop) (pass : NodeStates × List DagNode) :
    List DagNode :=
  pass.2.take (opts.maxConcurrentNodes - loop.inFlight.length)

/-- A turn after which the loop goes on, told by what happened in it. -/
def Turns (opts : NopOrchestratorOptions) (task : TaskFrame) (loop : Loop) (happened : Happened)
    (next : Loop) : Prop :=
  ∃ quiet awaited pass rest, Passes task loop quiet pass ∧
    Awaits (loop.passed opts task pass) awaited happened.nodeId happened.outcome rest ∧
    happened.started = begun opts loop pass ∧
    next = (loop.passed opts task pass).settle rest happened.nodeId happened.outcome

def Happened.Completes (happened : Happened) (id : String) : Prop :=
  happened.nodeId = id ∧ happened.outcome.state = .completed

/-- What the worker of a completed node returned, if it returned a value, is among the results. -/
def Happened.Kept (results : Fields) (happened : Happened) : Prop :=
  happened.outcome.state = .completed → ∀ value, happened.outcome.result = some value →
    Json.get happened.nodeId results = some value

/-- What a turn starts after all that has happened before. -/
structure SafeTurn (opts : NopOrchestratorOptions) (task : TaskFrame) (history : List Happened)
    (head : Loop) (pass : NodeStates × List DagNode) : Prop where
  launched : (head.passed opts task pass).inFlight = head.inFlight ++
    (begun opts head pass).map fun node =>
      (node.id, executeNodeWithRetry opts task node head.nodeResults)
  enough : ∀ node ∈ begun opts head pass, node.deps ≠ [] → node.required ≤ node.succeeded pass.1
  context : ∀ node ∈ begun opts head pass, ∀ dep ∈ node.deps,
    Json.get dep pass.1 = some .completed →
      ∃ happened ∈ history, happened.Completes dep ∧ happened.Kept head.nodeResults
  once : ((history.flatMap Happened.started ++ begun opts head pass).map DagNode.id).Nodup
  unsettled : ∀ node ∈ begun opts head pass, Json.get node.id pass.1 = none
  room : (head.passed opts task pass).inFlight.length ≤ opts.maxConcurrentNodes

/-- The state of the loop agrees with what has happened. -/
structure Chronicle (opts : NopOrchestratorOptions) (task : TaskFrame) (history : List Happened)
    (loop : Loop) : Prop where
  sound : loop.Sound task.dag
  told : ∀ id, Json.get id loop.nodeStates = some .completed → ∃ happened ∈ history, happened.Completes id
  settled : ∀ happened ∈ history, happened.nodeId ∈ loop.nodeStates.map Prod.fst
  results : ∀ happened ∈ history, happened.Kept loop.nodeResults
  distinct : ((history.flatMap Happened.started).map DagNode.id).Nodup
  known : ∀ node ∈ history.flatMap Happened.started, node.id ∈ loop.ids
  room : loop.inFlight.length ≤ opts.maxConcurrentNodes

variable {opts : NopOrchestratorOptions} {task : TaskFrame} {loop head next : Loop}
  {history : List Happened} {happened : Happened} {quiet : List (Sigma Answer)}
  {pass : NodeStates × List DagNode}

omit [CharClasses] in
theorem chronicle_start : Chronicle opts task [] {} where
  sound := Loop.sound_start _
  told := by
    intro id found
    cases found
  settled := by simp
  results := by simp
  distinct := List.nodup_nil
  known := by simp
  room := Nat.zero_le _

omit [CharClasses] in
theorem Passes.begun_eq (distinct : (task.dag.nodes.map DagNode.id).Nodup)
    (passes : Passes task loop quiet pass) : begun opts loop pass = started opts task loop := by
  rw [begun, (passes.spec distinct).2]
  rfl

theorem begun_flying {node : DagNode} (member : node ∈ begun opts loop pass) :
    node.id ∈ (loop.passed opts task pass).inFlight.map Prod.fst := by
  change node.id ∈ (loop.inFlight ++ (begun opts loop pass).map _).map Prod.fst
  rw [List.map_append, List.map_map]
  exact List.mem_append_right _ (List.mem_map_of_mem member)

theorem passed_room (room : loop.inFlight.length ≤ opts.maxConcurrentNodes) :
    (loop.passed opts task pass).inFlight.length ≤ opts.maxConcurrentNodes := by
  change (loop.inFlight ++ (begun opts loop pass).map _).length ≤ _
  rw [List.length_append, List.length_map]
  have few : (begun opts loop pass).length ≤ opts.maxConcurrentNodes - loop.inFlight.length :=
    List.length_take_le _ _
  omega

omit [CharClasses] in
theorem Passes.states_get (distinct : (task.dag.nodes.map DagNode.id).Nodup)
    (passes : Passes task loop quiet pass) (settled : (pass.1.map Prod.fst).Nodup) {id : String}
    {state : TaskState} (lives : state ≠ .failed) :
    Json.get id pass.1 = some state ↔ Json.get id loop.nodeStates = some state := by
  obtain ⟨states, -⟩ := passes.spec distinct
  have before : (loop.nodeStates.map Prod.fst).Nodup := by
    have all := (states.map Prod.fst).nodup_iff.mp settled
    rw [List.map_append] at all
    exact all.of_append_right
  rw [Json.get_eq_some settled, Json.get_eq_some before, states.mem_iff, List.mem_append]
  refine or_iff_right fun failed => ?_
  obtain ⟨node, -, same⟩ := List.mem_map.mp failed
  exact lives (congrArg Prod.snd same).symm

omit [CharClasses] in
theorem Passes.kept_keys (distinct : (task.dag.nodes.map DagNode.id).Nodup)
    (passes : Passes task loop quiet pass) {id : String} (settled : id ∈ loop.nodeStates.map Prod.fst) :
    id ∈ pass.1.map Prod.fst := by
  refine ((passes.spec distinct).1.map Prod.fst).mem_iff.mpr ?_
  rw [List.map_append]
  exact List.mem_append_right _ settled

/-- The nodes that a turn starts have not been started, nor have they settled. -/
theorem Passes.begun_fresh (distinct : (task.dag.nodes.map DagNode.id).Nodup)
    (passes : Passes task loop quiet pass) (sound : loop.Sound task.dag) {node : DagNode}
    (member : node ∈ begun opts loop pass) :
    node.id ∉ loop.ids ∧ Json.get node.id pass.1 = none := by
  have sound' : (loop.passed opts task pass).Sound task.dag := passes.sound distinct sound
  constructor
  · intro old
    rw [passes.begun_eq distinct] at member
    obtain ⟨unsettled, grounded⟩ := readyNodes_fresh (turn_ready loop (List.mem_append_right _ member))
    rcases List.mem_append.mp old with settled | flying
    · exact Json.get_eq_none.mp unsettled settled
    · exact grounded flying
  · refine Json.get_eq_none.mpr fun settled => ?_
    exact List.disjoint_of_nodup_append sound'.distinct settled (begun_flying member)

omit [CharClasses] in
/-- Enough dependencies of a node that is started have succeeded. -/
theorem Passes.enough (distinct : (task.dag.nodes.map DagNode.id).Nodup)
    (passes : Passes task loop quiet pass) (settled : (pass.1.map Prod.fst).Nodup) {node : DagNode}
    (member : node ∈ begun opts loop pass) (waits : node.deps ≠ []) :
    node.required ≤ node.succeeded pass.1 := by
  have startable : node ∈ startable task loop := by
    rw [← (passes.spec distinct).2]
    exact List.mem_of_mem_take member
  have satisfiable := (List.mem_filter.mp startable).2
  have enough : node.required ≤ node.succeeded loop.nodeStates := by
    simpa [unsatisfiable, waits] using satisfiable
  have same : node.succeeded pass.1 = node.succeeded loop.nodeStates := by
    refine List.countP_congr fun dep _ => ?_
    simp only [Bool.or_eq_true, decide_eq_true_eq]
    rw [passes.states_get distinct settled (by decide), passes.states_get distinct settled (by decide)]
  rw [same]
  exact enough

theorem Chronicle.once (distinct : (task.dag.nodes.map DagNode.id).Nodup)
    (chronicle : Chronicle opts task history loop) (passes : Passes task loop quiet pass) :
    ((history.flatMap Happened.started ++ begun opts loop pass).map DagNode.id).Nodup := by
  rw [List.map_append]
  refine chronicle.distinct.append ?_ ?_
  · rw [passes.begun_eq distinct]
    exact (turn_distinct distinct loop).sublist ((List.sublist_append_right _ _).map _)
  · intro id before now
    obtain ⟨node, there, rfl⟩ := List.mem_map.mp before
    obtain ⟨other, here, same⟩ := List.mem_map.mp now
    refine (passes.begun_fresh distinct chronicle.sound here).1 ?_
    rw [same]
    exact chronicle.known node there

theorem Chronicle.step (distinct : (task.dag.nodes.map DagNode.id).Nodup)
    (chronicle : Chronicle opts task history loop) (turns : Turns opts task loop happened next) :
    Chronicle opts task (history ++ [happened]) next := by
  obtain ⟨quiet, awaited, pass, rest, passes, awaits, launched, rfl⟩ := turns
  have turn : Passed opts task loop (loop.passed opts task pass) := passes.passed distinct
  have sound : (loop.passed opts task pass).Sound task.dag := passes.sound distinct chronicle.sound
  have finishes := awaits.finishes
  obtain ⟨fresh, states⟩ := finishes.states_perm sound
  have ids := (finishes.ids_perm sound).trans turn.ids_perm
  have started : (history ++ [happened]).flatMap Happened.started =
      history.flatMap Happened.started ++ begun opts loop pass := by
    simp [launched]
  constructor
  · exact (finishes.sound sound).1
  · intro id found
    by_cases same : id = happened.nodeId
    · subst same
      refine ⟨happened, List.mem_append_right _ List.mem_cons_self, rfl, ?_⟩
      simpa [Loop.settle] using found
    · have before : Json.get id pass.1 = some .completed := by
        rw [← found]
        exact (Json.get_insert_ne same _ _).symm
      rw [passes.states_get distinct sound.keys_distinct (by decide)] at before
      obtain ⟨earlier, member, completes⟩ := chronicle.told id before
      exact ⟨earlier, List.mem_append_left _ member, completes⟩
  · intro other member
    refine (states.map Prod.fst).mem_iff.mpr ?_
    rcases List.mem_append.mp member with before | now
    · exact List.mem_cons_of_mem _ (passes.kept_keys distinct (chronicle.settled other before))
    · rw [List.mem_singleton.mp now]
      exact List.mem_cons_self
  · intro other member completed value returned
    rcases List.mem_append.mp member with before | now
    · have different : other.nodeId ≠ happened.nodeId := by
        intro same
        refine Json.get_eq_none.mp fresh ?_
        rw [← same]
        exact passes.kept_keys distinct (chronicle.settled other before)
      have kept := chronicle.results other before completed value returned
      change Json.get other.nodeId (if _ then _ else loop.nodeResults) = some value
      split
      · rw [Json.get_insertSome_ne different]
        exact kept
      · exact kept
    · cases List.mem_singleton.mp now
      change Json.get happened.nodeId (if _ then _ else _) = some value
      rw [if_pos completed, Json.get_insertSome_self, returned]
      rfl
  · rw [started]
    exact chronicle.once distinct passes
  · rw [started]
    intro node member
    refine ids.mem_iff.mpr ?_
    rcases List.mem_append.mp member with before | now
    · exact List.mem_append_right _ (chronicle.known node before)
    · rw [passes.begun_eq distinct] at now
      exact List.mem_append_left _ (List.mem_map_of_mem (List.mem_append_right _ now))
  · have all := (finishes.spec sound).1.length_eq
    have few : (loop.passed opts task pass).inFlight.length ≤ opts.maxConcurrentNodes :=
      passed_room chronicle.room
    rw [List.length_cons, List.length_map, List.length_map] at all
    change rest.length ≤ _
    omega

theorem run_chronicle (distinct : (task.dag.nodes.map DagNode.id).Nodup)
    (run : Transition.Run (Turns opts task) {} history head) : Chronicle opts task history head := by
  refine (run.recorded []).invariant (P := fun s => Chronicle opts task s.2 s.1) ?_ chronicle_start
  rintro ⟨loop, before⟩ happened ⟨next, after⟩ chronicle ⟨turns, same⟩
  dsimp only at turns same chronicle ⊢
  rw [same]
  exact chronicle.step distinct turns

theorem rounds_told {endNodeIds : List String} {rounds : List Unit}
    (run : Transition.Run (Round opts task endNodeIds) loop rounds head) :
    ∃ history, Transition.Run (Turns opts task) loop history head := by
  induction run with
  | refl => exact ⟨[], .refl _⟩
  | next turn rest ih =>
    obtain ⟨history, told⟩ := ih
    obtain ⟨trace, performs⟩ := runs_iff_traces.mp turn
    cases round_performs performs with
    | settles passes awaits =>
      exact ⟨⟨_, _, _⟩ :: history, .next ⟨_, _, _, _, passes, awaits, rfl, rfl⟩ told⟩

/-- However the turns of a run can be told, the next one starts only nodes that it may start. -/
theorem scheduler_safe {order endNodeIds : List String} {rounds : List Unit}
    (valid : validateDag task.dag = .ok order)
    (run : Transition.Run (Round opts task endNodeIds) {} rounds head) :
    (∃ history, Transition.Run (Turns opts task) {} history head) ∧
      ∀ history quiet pass, Transition.Run (Turns opts task) {} history head →
        Passes task head quiet pass → SafeTurn opts task history head pass := by
  have distinct := validateDag_nodup valid
  refine ⟨rounds_told run, fun history quiet pass told passes => ?_⟩
  have chronicle := run_chronicle distinct told
  have sound : (head.passed opts task pass).Sound task.dag := passes.sound distinct chronicle.sound
  constructor
  · rfl
  · intro node member
    exact passes.enough distinct sound.keys_distinct member
  · intro node _ dep _ completed
    rw [passes.states_get distinct sound.keys_distinct (by decide)] at completed
    obtain ⟨happened, member, completes⟩ := chronicle.told dep completed
    exact ⟨happened, member, completes, chronicle.results happened member⟩
  · exact chronicle.once distinct passes
  · intro node member
    exact (passes.begun_fresh distinct chronicle.sound member).2
  · exact passed_room chronicle.room

end Turns

namespace Joining
open scoped Chain

def task : TaskFrame where
  taskId := "join"
  dag := {
    nodes := [Chain.node "a" none, Chain.node "b" none,
      { Chain.node "join" (some ["a", "b"]) with minRequired := 1 }] }
  maxRetries := 0

def lone : TaskFrame where
  taskId := "lone"
  dag := { nodes := [{ Chain.node "a" none with minRequired := 1 }] }
  maxRetries := 0

def returning : (op : Op) → Unit → Answer op × Unit
  | .delegate frame, _ =>
    (⟨[{ seq := 0, data := some (.bool true), isFinal := true, senderNid := frame.targetAgentNid }],
      false⟩, ())
  | op, s => Chain.answering none op s

def head : Loop where
  nodeStates := [("a", .completed)]
  nodeResults := [("a", .bool true)]
  inFlight := [("b", executeNodeWithRetry Chain.opts task (Chain.node "b" none) [])]

/-- The joining node is started beside the second one, with the result of the first. -/
theorem join_started : ∃ history pass, Transition.Run (Turns Chain.opts task) {} history head ∧
    (begun Chain.opts head pass).map DagNode.id = ["join"] ∧
    SafeTurn Chain.opts task history head pass := by
  have computed : ((round Chain.opts task ["join"] {}).runWith returning ()).1 = .inl head := rfl
  have turn : Round Chain.opts task ["join"] {} () head := by
    rw [Round, ← computed]
    exact runs_runWith (fun _ _ => trivial) _ ()
  have passes : Passes task head [] (head.nodeStates, readyNodes task head) :=
    performs_done.mpr ⟨rfl, rfl⟩
  obtain ⟨⟨history, told⟩, safe⟩ := scheduler_safe rfl (.single turn)
  exact ⟨history, _, told, rfl, safe history _ _ told passes⟩

/-- The node is started although it needs a dependency and none has succeeded. -/
theorem started_alone : validateDag lone.dag = .ok ["a"] ∧ ∃ quiet pass, Passes lone {} quiet pass ∧
    ∃ node ∈ begun Chain.opts {} pass, node.minRequired = 1 ∧
      ¬ node.required ≤ node.succeeded pass.1 := by
  have passes : Passes lone {} [] ([], readyNodes lone {}) := performs_done.mpr ⟨rfl, rfl⟩
  refine ⟨rfl, _, _, passes, { Chain.node "a" none with minRequired := 1 }, ?_, rfl, by decide⟩
  exact List.mem_cons_self

end Joining
end Nps.Nop
