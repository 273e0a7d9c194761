import NpsSdk.Nop.Compensation
import NpsSdk.Nop.DuplicateTask
import NpsSdk.Nop.Rounds

/-! Which nodes have succeeded when a run fails, and which of them are compensated. The loop takes
note of a node when it is done; when the run is aborted, what is still in flight is waited for and
nobody takes note of it. -/
namespace Nps.Nop
open Json (Value Fields)
open Interaction Prog Precedence

section Successes
variable (opts : NopOrchestratorOptions) (task : TaskFrame) (node : DagNode)

/-- A worker has answered the delegation of the node with success. -/
def Succeeds : Sigma Answer → Prop
  | ⟨.delegate frame, delegation⟩ =>
    frame.nodeId = node.id ∧ (streamOutcome opts task node delegation).state = .completed
  | _ => False

def HasSucceeded (trace : List (Sigma Answer)) : Prop :=
  ∃ entry ∈ trace, Succeeds opts task node entry

variable {opts task node} {first second : List (Sigma Answer)} {entry : Sigma Answer}

@[simp] theorem hasSucceeded_nil : ¬ HasSucceeded opts task node [] := by
  rintro ⟨entry, member, -⟩
  cases member

@[simp] theorem hasSucceeded_cons : HasSucceeded opts task node (entry :: first) ↔
    Succeeds opts task node entry ∨ HasSucceeded opts task node first := by
  simp [HasSucceeded]

@[simp] theorem hasSucceeded_append : HasSucceeded opts task node (first ++ second) ↔
    HasSucceeded opts task node first ∨ HasSucceeded opts task node second := by
  simp only [HasSucceeded, List.mem_append, or_and_right, exists_or]

theorem Succeeds.delegatee (succeeds : Succeeds opts task node entry) :
    entry.1.delegatee = some node.id := by
  obtain ⟨op, answer⟩ := entry
  cases op with
  | delegate frame => exact congrArg some succeeds.1
  | _ => exact False.elim succeeds

theorem not_hasSucceeded {keys : List String}
    (within : ∀ entry ∈ first, ∀ id, entry.1.delegatee = some id → id ∈ keys) (outside : node.id ∉ keys) :
    ¬ HasSucceeded opts task node first := by
  rintro ⟨entry, member, succeeds⟩
  exact outside (within entry member node.id succeeds.delegatee)

end Successes

/-- The operation delegates to no node but these. -/
def Op.DelegatesTo (keys : List String) (op : Op) : Prop := ∀ id, op.delegatee = some id → id ∈ keys

section Nodes
variable {opts : NopOrchestratorOptions} {task : TaskFrame} {node : DagNode}
  {subtaskId idempotencyKey : String} {context : Fields} {trace : List (Sigma Answer)}
  {outcome : NodeOutcome}

theorem Op.DelegatesTo.of_none {keys : List String} {op : Op} (none_ : op.delegatee = none) :
    op.DelegatesTo keys := by
  intro id found
  rw [none_] at found
  cases found

theorem executeNodeOnce_delegates : Only (Op.DelegatesTo [node.id])
    (executeNodeOnce opts task node subtaskId idempotencyKey context) := by
  unfold executeNodeOnce
  split
  · trivial
  · refine Only.ask (.of_none rfl) fun now => Only.ask ?_ fun delegation => trivial
    intro id found
    cases found
    exact List.mem_singleton.mpr rfl

theorem executeNodeOnce_completed
    (performs : Performs (executeNodeOnce opts task node subtaskId idempotencyKey context) trace outcome) :
    outcome.state = .completed ↔ HasSucceeded opts task node trace := by
  unfold executeNodeOnce at performs
  split at performs
  · obtain ⟨rfl, rfl⟩ := performs_done.mp performs
    simp [NodeOutcome.failed]
  · obtain ⟨now, _, rfl, sends⟩ := performs_ask.mp performs
    obtain ⟨delegation, _, rfl, ends⟩ := performs_ask.mp sends
    obtain ⟨rfl, rfl⟩ := performs_done.mp ends
    simp [Succeeds, delegateFrame]

theorem runAttempts_delegates (left attempt : Nat) : Only (Op.DelegatesTo [node.id])
    (runAttempts opts task node subtaskId idempotencyKey context left attempt) := by
  induction left generalizing attempt with
  | zero => exact ⟨.of_none rfl, fun _ => trivial⟩
  | succ left ih =>
    refine Only.ask (.of_none rfl) fun _ => executeNodeOnce_delegates.bind fun outcome => ?_
    split_ifs
    · exact ⟨.of_none rfl, fun _ => trivial⟩
    · exact ⟨.of_none rfl, fun _ => trivial⟩
    · exact Only.ask (.of_none rfl) fun _ => ih (attempt + 1)

theorem runAttempts_completed {left attempt : Nat}
    (performs : Performs (runAttempts opts task node subtaskId idempotencyKey context left attempt)
      trace outcome) : outcome.state = .completed ↔ HasSucceeded opts task node trace := by
  induction left generalizing attempt trace with
  | zero =>
    obtain ⟨-, _, rfl, ends⟩ := performs_ask.mp performs
    obtain ⟨rfl, rfl⟩ := performs_done.mp ends
    simp [Succeeds, NodeOutcome.failed]
  | succ left ih =>
    obtain ⟨-, _, rfl, tries⟩ := performs_ask.mp performs
    obtain ⟨tried, once, last, rfl, attempted, goes⟩ := performs_bind.mp tries
    have completed := executeNodeOnce_completed attempted
    split_ifs at goes with done_ retries
    · obtain ⟨-, _, rfl, ends⟩ := performs_ask.mp goes
      obtain ⟨rfl, rfl⟩ := performs_done.mp ends
      simp [Succeeds, ← completed, done_]
    · obtain ⟨-, _, rfl, ends⟩ := performs_ask.mp goes
      obtain ⟨rfl, rfl⟩ := performs_done.mp ends
      simp [Succeeds, ← completed]
    · obtain ⟨-, _, rfl, again⟩ := performs_ask.mp goes
      rw [ih again]
      simp [Succeeds, ← completed, done_]

variable [CharClasses]

theorem executeNodeWithRetry_delegates :
    Only (Op.DelegatesTo [node.id]) (executeNodeWithRetry opts task node context) := by
  refine Only.ask (.of_none rfl) fun subtaskId => Only.ask (.of_none rfl) fun idempotencyKey => ?_
  split
  · exact runAttempts_delegates _ _
  · exact ⟨.of_none rfl, fun _ => trivial⟩
  · exact ⟨.of_none rfl, fun _ => trivial⟩

/-- A node completes exactly if some delegation of it succeeds. -/
theorem executeNodeWithRetry_completed
    (performs : Performs (executeNodeWithRetry opts task node context) trace outcome) :
    outcome.state = .completed ↔ HasSucceeded opts task node trace := by
  obtain ⟨subtaskId, _, rfl, named⟩ := performs_ask.mp performs
  obtain ⟨idempotencyKey, _, rfl, goes⟩ := performs_ask.mp named
  rw [hasSucceeded_cons, hasSucceeded_cons]
  simp only [Succeeds, false_or]
  split at goes
  · exact runAttempts_completed goes
  · obtain ⟨-, _, rfl, ends⟩ := performs_ask.mp goes
    obtain ⟨rfl, rfl⟩ := performs_done.mp ends
    simp [Succeeds]
  · obtain ⟨-, _, rfl, ends⟩ := performs_ask.mp goes
    obtain ⟨rfl, rfl⟩ := performs_done.mp ends
    simp [Succeeds, NodeOutcome.failed]

end Nodes

section Flights
variable (opts : NopOrchestratorOptions) (task : TaskFrame)

/-- What is left of a node in flight completes exactly if its delegation has succeeded or will. -/
structure Reporting (history : List (Sigma Answer)) (id : String) (p : Program NodeOutcome) : Prop where
  own : Only (Op.DelegatesTo [id]) p
  completes : ∀ node ∈ task.dag.nodes, node.id = id → ∀ trace outcome, Performs p trace outcome →
    (outcome.state = .completed ↔ HasSucceeded opts task node (history ++ trace))

variable {opts task} {history quiet trace : List (Sigma Answer)} {inFlight : Futures Answer String NodeOutcome}

theorem reporting_recorded : Recorded (Reporting opts task) where
  acts {history key op next} reporting answer := by
    refine ⟨reporting.own.2 answer, fun node member same trace outcome performs => ?_⟩
    have longer := reporting.completes node member same _ outcome
      (performs_call.mpr ⟨answer, trace, rfl, performs⟩)
    rwa [List.append_assoc]
  waits {history key p other op next} reporting acting different answer := by
    refine ⟨reporting.own, fun node member same trace outcome performs => ?_⟩
    have before := reporting.completes node member same trace outcome performs
    have foreign : ¬ Succeeds opts task node ⟨op, answer⟩ := by
      intro succeeds
      have own := acting.own.1 node.id succeeds.delegatee
      exact different ((List.mem_singleton.mp own).symm.trans same)
    simp only [hasSucceeded_append, hasSucceeded_cons, foreign, hasSucceeded_nil, or_false] at before ⊢
    exact before

theorem Reporting.after_quiet {id : String} {p : Program NodeOutcome} (reporting : Reporting opts task history id p)
    (none_ : ∀ entry ∈ quiet, entry.1.delegatee = none) :
    Reporting opts task (history ++ quiet) id p := by
  refine ⟨reporting.own, fun node member same trace outcome performs => ?_⟩
  have before := reporting.completes node member same trace outcome performs
  have silent : ¬ HasSucceeded opts task node quiet := by
    rintro ⟨entry, there, succeeds⟩
    cases (none_ entry there).symm.trans succeeds.delegatee
  simp only [hasSucceeded_append, silent, or_false] at before ⊢
  exact before

theorem reporting_start [CharClasses] (distinct : (task.dag.nodes.map DagNode.id).Nodup)
    {node : DagNode} (member : node ∈ task.dag.nodes) {context : Fields}
    (fresh : ¬ HasSucceeded opts task node history) :
    Reporting opts task history node.id (executeNodeWithRetry opts task node context) := by
  refine ⟨executeNodeWithRetry_delegates, fun other there same trace outcome performs => ?_⟩
  rw [List.inj_on_of_nodup_map distinct there member same, hasSucceeded_append,
    executeNodeWithRetry_completed performs]
  simp only [fresh, false_or]

theorem awaitNext_delegates {choices : List Nat}
    (reporting : ∀ future ∈ inFlight, Reporting opts task history future.1 future.2) :
    Only (Op.DelegatesTo (inFlight.map Prod.fst)) (awaitNext choices inFlight) := by
  refine awaitNext_only fun future member => (reporting future member).own.mono fun op own id found => ?_
  rw [List.mem_singleton.mp (own id found)]
  exact List.mem_map_of_mem member

theorem drain_delegates (count : Nat) {keys : List String}
    (own : ∀ future ∈ inFlight, Only (Op.DelegatesTo keys) future.2) :
    Only (Op.DelegatesTo keys) (drain count inFlight) := by
  induction count generalizing inFlight with
  | zero => trivial
  | succ count ih =>
    refine Only.ask (.of_none rfl) fun choices => (awaitNext_only own).after fun next returns => ?_
    split
    · trivial
    · obtain ⟨-, -, -, -, rest⟩ := awaitNext_some (kept_only (Op.DelegatesTo keys)) own returns
      exact ih rest

theorem failUnsatisfiable_quiet (ready : List DagNode) (states : NodeStates) :
    Only (fun op => op.delegatee = none) (failUnsatisfiable task ready states) := by
  induction ready generalizing states with
  | nil => trivial
  | cons node rest ih =>
    unfold failUnsatisfiable
    split
    · exact Only.ask rfl fun subtaskId => Only.ask rfl fun _ => ih _
    · exact (ih states).bind fun _ => trivial

end Flights

section Tallies
variable (opts : NopOrchestratorOptions) (task : TaskFrame)

/-- The recorded states of nodes say which of them have succeeded, and no other node has, unless
it is in flight. -/
structure Loop.Tallied (history : List (Sigma Answer)) (loop : Loop) : Prop where
  settled : ∀ node ∈ task.dag.nodes, ∀ state, Json.get node.id loop.nodeStates = some state →
    (state = .completed ↔ HasSucceeded opts task node history)
  known : ∀ node ∈ task.dag.nodes, HasSucceeded opts task node history → node.id ∈ loop.ids

/-- The nodes in flight will report, too. -/
structure Loop.Reports (history : List (Sigma Answer)) (loop : Loop) : Prop where
  tallied : loop.Tallied opts task history
  flying : ∀ future ∈ loop.inFlight, Reporting opts task history future.1 future.2

variable {opts task} {history trace quiet awaited drained : List (Sigma Answer)} {loop next : Loop}
  {keys : List String}

theorem Loop.Tallied.extend (tallied : loop.Tallied opts task history)
    (own : ∀ entry ∈ trace, entry.1.DelegatesTo keys)
    (unsettled : ∀ id ∈ keys, Json.get id loop.nodeStates = none) (inside : ∀ id ∈ keys, id ∈ loop.ids) :
    loop.Tallied opts task (history ++ trace) := by
  constructor
  · intro node member state found
    have outside : node.id ∉ keys := by
      intro flying
      rw [unsettled _ flying] at found
      cases found
    have silent : ¬ HasSucceeded opts task node trace := not_hasSucceeded own outside
    rw [hasSucceeded_append]
    simp only [silent, or_false]
    exact tallied.settled node member state found
  · intro node member succeeded
    rcases hasSucceeded_append.mp succeeded with before | now
    · exact tallied.known node member before
    · obtain ⟨entry, there, succeeds⟩ := now
      exact inside _ (own entry there node.id succeeds.delegatee)

variable [CharClasses] {endNodeIds : List String} {pass : NodeStates × List DagNode} {nodeId : String}
  {outcome : NodeOutcome} {rest : Futures Answer String NodeOutcome}

/-- Nodes are failed and started without a delegation. -/
theorem Loop.Reports.passed (reports : loop.Reports opts task history)
    (distinct : (task.dag.nodes.map DagNode.id).Nodup) (sound : loop.Sound task.dag)
    (passes : Passes task loop quiet pass) :
    (loop.passed opts task pass).Reports opts task (history ++ quiet) := by
  have turn : Passed opts task loop (loop.passed opts task pass) := passes.passed distinct
  have none_ : ∀ entry ∈ quiet, entry.1.delegatee = none :=
    (failUnsatisfiable_quiet _ _).performed passes
  have silent : ∀ node, HasSucceeded opts task node (history ++ quiet) ↔
      HasSucceeded opts task node history := by
    intro node
    have idle : ¬ HasSucceeded opts task node quiet := by
      rintro ⟨entry, there, succeeds⟩
      cases (none_ entry there).symm.trans succeeds.delegatee
    rw [hasSucceeded_append]
    simp only [idle, or_false]
  have fresh : ∀ node ∈ readyNodes task loop, ¬ HasSucceeded opts task node history := by
    intro node ready succeeded
    obtain ⟨unsettled, grounded⟩ := readyNodes_fresh ready
    rcases List.mem_append.mp
      (reports.tallied.known node (List.mem_filter.mp ready).1 succeeded) with settled | flying
    · exact Json.get_eq_none.mp unsettled settled
    · exact grounded flying
  refine ⟨⟨?_, ?_⟩, ?_⟩
  · intro node member state found
    rw [silent]
    rcases List.mem_append.mp (turn.states.mem_iff.mp (Json.mem_of_get found)) with failed | old
    · obtain ⟨other, here, same⟩ := List.mem_map.mp failed
      obtain ⟨ready, -⟩ := List.mem_filter.mp here
      cases List.inj_on_of_nodup_map distinct (List.mem_filter.mp ready).1 member
        (congrArg Prod.fst same)
      cases same
      exact iff_of_false (by decide) (fresh _ ready)
    · exact reports.tallied.settled node member state ((Json.get_eq_some sound.keys_distinct).mpr old)
  · intro node member succeeded
    refine turn.ids_perm.mem_iff.mpr (List.mem_append_right _ ?_)
    exact reports.tallied.known node member ((silent node).mp succeeded)
  · rw [turn.flights]
    intro future member
    rcases List.mem_append.mp member with old | new
    · exact (reports.flying future old).after_quiet none_
    · obtain ⟨node, here, rfl⟩ := List.mem_map.mp new
      have ready := (List.mem_filter.mp (List.mem_of_mem_take here)).1
      change Reporting opts task _ node.id (executeNodeWithRetry opts task node loop.nodeResults)
      refine reporting_start distinct (List.mem_filter.mp ready).1 fun succeeded => ?_
      exact fresh node ready ((silent node).mp succeeded)

omit [CharClasses] in
/-- A node that is done is recorded as it reports. -/
theorem Loop.Reports.settled (reports : loop.Reports opts task history) (sound : loop.Sound task.dag)
    (awaits : Awaits loop awaited nodeId outcome rest) :
    (loop.settle rest nodeId outcome).Reports opts task (history ++ awaited) := by
  obtain ⟨perm, -, -⟩ := awaits.finishes.spec sound
  obtain ⟨choices, trace, rfl, performs⟩ := awaits
  have asked : ∀ future ∈ loop.inFlight,
      Reporting opts task (history ++ [⟨.choose, choices⟩]) future.1 future.2 := by
    intro future member
    refine (reports.flying future member).after_quiet fun entry there => ?_
    rw [List.mem_singleton.mp there]
    rfl
  obtain ⟨finished, others⟩ := awaitNext_recorded reporting_recorded sound.distinct.of_append_right
    asked performs
  rw [List.append_assoc] at finished others
  have unsettled : ∀ id ∈ loop.inFlight.map Prod.fst, Json.get id loop.nodeStates = none :=
    fun id flying => Json.get_eq_none.mpr fun settled =>
      List.disjoint_of_nodup_append sound.distinct settled flying
  have own : ∀ entry ∈ (⟨.choose, choices⟩ :: trace : List (Sigma Answer)),
      entry.1.DelegatesTo (loop.inFlight.map Prod.fst) := by
    rw [List.forall_mem_cons]
    exact ⟨.of_none rfl, (awaitNext_delegates reports.flying).performed performs⟩
  have tallied := reports.tallied.extend own unsettled fun id flying => List.mem_append_right _ flying
  refine ⟨⟨?_, ?_⟩, others⟩
  · intro node member state found
    by_cases same : node.id = nodeId
    · have last := finished.completes node member same [] outcome (performs_done.mpr ⟨rfl, rfl⟩)
      have recorded : some outcome.state = some state := by
        rw [← found, same]
        exact (Json.get_insert_self ..).symm
      cases recorded
      rw [List.append_nil] at last
      exact last
    · refine tallied.settled node member state ?_
      rw [← found]
      exact (Json.get_insert_ne same ..).symm
  · intro node member succeeded
    have flying : nodeId ∈ loop.inFlight.map Prod.fst := perm.mem_iff.mp List.mem_cons_self
    have states := (Json.insert_perm (unsettled _ flying) outcome.state).map Prod.fst
    rcases List.mem_append.mp (tallied.known node member succeeded) with settled | flying
    · exact List.mem_append_left _ (states.mem_iff.mpr (List.mem_cons_of_mem _ settled))
    · rcases List.mem_cons.mp (perm.mem_iff.mpr flying) with rfl | later
      · exact List.mem_append_left _ (states.mem_iff.mpr List.mem_cons_self)
      · exact List.mem_append_right _ later

theorem RoundTrace.reports (distinct : (task.dag.nodes.map DagNode.id).Nodup)
    (sound : loop.Sound task.dag) (reports : loop.Reports opts task history)
    (turn : RoundTrace opts task endNodeIds loop trace (.inl next)) :
    next.Reports opts task (history ++ trace) := by
  cases turn with
  | settles passes awaits =>
    rw [← List.append_assoc]
    exact (reports.passed distinct sound passes).settled (passes.sound distinct sound) awaits

/-- Where the loop stops, its tally holds; what succeeds in the end was in flight. -/
theorem RoundTrace.tallied (distinct : (task.dag.nodes.map DagNode.id).Nodup)
    (sound : loop.Sound task.dag) (reports : loop.Reports opts task history) {last : LoopEnd}
    (turn : RoundTrace opts task endNodeIds loop trace (.inr last)) :
    last.loop.Tallied opts task (history ++ trace) := by
  cases turn with
  | complete full =>
    rw [List.append_nil]
    exact reports.tallied
  | idle left passes idle => exact (reports.passed distinct sound passes).tallied
  | @aborts quiet awaited drained pass nodeId outcome rest passes awaits failed drains =>
    have settled := (reports.passed distinct sound passes).settled (passes.sound distinct sound) awaits
    have disjoint := (awaits.finishes.sound (passes.sound distinct sound)).1.distinct
    have own : ∀ future ∈ rest, Only (Op.DelegatesTo (rest.map Prod.fst)) future.2 := by
      intro future member
      refine (settled.flying future member).own.mono fun op own id found => ?_
      rw [List.mem_singleton.mp (own id found)]
      exact List.mem_map_of_mem member
    rw [← List.append_assoc, ← List.append_assoc]
    refine settled.tallied.extend ((drain_delegates _ own).performed drains) ?_ ?_
    · intro id flying
      exact Json.get_eq_none.mpr fun settled => List.disjoint_of_nodup_append disjoint settled flying
    · exact fun id flying => List.mem_append_right _ flying

theorem dagLoop_tallied (distinct : (task.dag.nodes.map DagNode.id).Nodup) {fuel : Nat} {last : LoopEnd}
    (sound : loop.Sound task.dag) (reports : loop.Reports opts task history)
    (performs : Performs (dagLoop opts task endNodeIds fuel loop) trace last) :
    last.loop.Sound task.dag ∧ last.loop.Tallied opts task (history ++ trace) := by
  induction fuel generalizing loop history trace with
  | zero =>
    obtain ⟨rfl, rfl⟩ := performs_done.mp performs
    rw [List.append_nil]
    exact ⟨sound, reports.tallied⟩
  | succ fuel ih =>
    obtain ⟨out, first, second, rfl, turns, goes⟩ := performs_bind.mp performs
    have turn := round_performs turns
    cases out with
    | inl next =>
      rw [← List.append_assoc]
      exact ih (turn.sound_next distinct sound) (turn.reports distinct sound reports) goes
    | inr out =>
      obtain ⟨rfl, rfl⟩ := performs_done.mp goes
      rw [List.append_nil]
      exact ⟨turn.sound_last distinct sound, turn.tallied distinct sound reports⟩

end Tallies

section Runs
variable [CharClasses] (opts : NopOrchestratorOptions) (task : TaskFrame)

/-- The part of a run in which nodes are run: the end nodes, and how the loop ended. -/
def runNodes : Program (List String × LoopEnd) := do
  let endNodeIds ← ask (.iterate task.dag.endNodes)
  let last ← dagLoop opts task endNodeIds (task.dag.nodeIds.length + 1) {}
  return (endNodeIds, last)

/-- A run of a graph, with what it performs while nodes are run and while it is concluded. -/
def TracedRun (order : List String) (s : InMemoryNopTaskStore) (last : LoopEnd)
    (running concluding : List (Sigma Answer)) (result : NopTaskResult) (t : InMemoryNopTaskStore) :
    Prop :=
  ∃ endNodeIds middle, Traces exec (runNodes opts task) s running (endNodeIds, last) middle ∧
    Traces exec (conclude opts task order endNodeIds last) middle concluding result t

variable {opts task} {order : List String} {s t : InMemoryNopTaskStore} {last : LoopEnd}
  {running concluding trace : List (Sigma Answer)} {result : NopTaskResult}

/-- Every run of a graph has these two parts. -/
theorem runDag_traces : Traces exec (runDag opts task order) s trace result t ↔
    ∃ last running concluding, trace = running ++ concluding ∧
      TracedRun opts task order s last running concluding result t := by
  constructor
  · intro traces
    obtain ⟨endNodeIds, s₁, first, _, rfl, listed, looped⟩ := traces_bind.mp traces
    obtain ⟨last, s₂, second, third, rfl, ran, concluded⟩ := traces_bind.mp looped
    refine ⟨last, first ++ second, third, by simp, endNodeIds, s₂, ?_, concluded⟩
    refine traces_bind.mpr ⟨endNodeIds, s₁, first, second, rfl, listed, ?_⟩
    exact traces_bind.mpr ⟨last, s₂, second, [], by simp, ran, .done _ _⟩
  · rintro ⟨last, running, concluding, rfl, endNodeIds, middle, ran, concluded⟩
    obtain ⟨ids, s₁, first, _, rfl, listed, looped⟩ := traces_bind.mp ran
    obtain ⟨last', s₂, second, third, rfl, ran', ends⟩ := traces_bind.mp looped
    obtain ⟨rfl, same, rfl⟩ := traces_done.mp ends
    cases same
    refine traces_bind.mpr ⟨_, s₁, first, second ++ concluding, by simp, listed, ?_⟩
    exact traces_bind.mpr ⟨_, _, second, concluding, rfl, ran', concluded⟩

theorem TracedRun.tallied (distinct : (task.dag.nodes.map DagNode.id).Nodup)
    (run : TracedRun opts task order s last running concluding result t) :
    last.loop.Sound task.dag ∧ last.loop.Tallied opts task running := by
  obtain ⟨endNodeIds, middle, ran, -⟩ := run
  obtain ⟨ids, _, rfl, goes⟩ := performs_ask.mp ran.performs
  obtain ⟨last', looped, _, rfl, loops, ends⟩ := performs_bind.mp goes
  obtain ⟨rfl, same⟩ := performs_done.mp ends
  cases same
  have start : ({} : Loop).Reports opts task [⟨.iterate task.dag.endNodes, endNodeIds⟩] := by
    refine ⟨⟨?_, ?_⟩, ?_⟩
    · intro node member state found
      cases found
    · intro node member succeeded
      simp [Succeeds] at succeeded
    · intro future member
      cases member
  rw [List.append_nil]
  exact dagLoop_tallied distinct (Loop.sound_start _) start loops

omit [CharClasses] in
/-- A failed run compensates the completed nodes, where the policy has it so. -/
theorem conclude_delegated {endNodeIds : List String}
    (runs : CompensationPolicy.runsOnFailure task.compensationPolicy = true)
    (lenient : CompensationPolicy.isStrict task.compensationPolicy = false)
    (performs : Performs (conclude opts task order endNodeIds last) concluding result)
    (failed : result.finalState = .failed) :
    delegated concluding = compensated task order last.loop.nodeResults last.loop.nodeStates := by
  have compensates : ∀ {first : List (Sigma Answer)} {nodeResults : Fields} {nodeStates : NodeStates}
      {compensation : Option SagaCompensationResult},
      Performs (compensateIf opts task true order nodeResults nodeStates) first compensation →
        delegated first = compensated task order nodeResults nodeStates := by
    intro first nodeResults nodeStates compensation performs
    obtain ⟨saga, whole, _, rfl, ran, ends⟩ := performs_bind.mp performs
    obtain ⟨rfl, -⟩ := performs_done.mp ends
    rw [List.append_nil]
    refine runSagaCompensation_delegated ran ?_
    rintro ⟨strict, -⟩
    rw [lenient] at strict
    cases strict
  cases last with
  | aborted loop failedNodeId outcome =>
    unfold conclude at performs
    rw [runs] at performs
    obtain ⟨compensation, first, _, rfl, ran, ends⟩ := performs_bind.mp performs
    obtain ⟨rfl, rfl⟩ := performs_done.mp ends
    rw [List.append_nil]
    exact compensates ran
  | ended loop =>
    unfold conclude at performs
    dsimp only at performs
    rw [runs] at performs
    split_ifs at performs
    · obtain ⟨compensation, first, _, rfl, ran, ends⟩ := performs_bind.mp performs
      obtain ⟨rfl, rfl⟩ := performs_done.mp ends
      rw [List.append_nil]
      exact compensates ran
    · obtain ⟨compensation, first, _, rfl, ran, ends⟩ := performs_bind.mp performs
      obtain ⟨rfl, rfl⟩ := performs_done.mp ends
      cases failed

variable (opts task) in
/-- Just the nodes that have succeeded and name a compensation are compensated, each once. -/
structure SagaComplete (running concluding : List (Sigma Answer)) : Prop where
  once : (delegated concluding).Nodup
  nodes : ∀ id, id ∈ delegated concluding ↔ ∃ node ∈ task.dag.nodes, node.id = id ∧
    blankAction node = false ∧ HasSucceeded opts task node running

variable (opts task) in
/-- Of the nodes that name a compensation, none that was in flight when the loop ended has
succeeded, and for those that are recorded as completed the parameters can be put together. -/
def Accounted (last : LoopEnd) (running : List (Sigma Answer)) : Prop :=
  ∀ node ∈ task.dag.nodes, blankAction node = false →
    (node.id ∈ last.loop.inFlight.map Prod.fst → ¬ HasSucceeded opts task node running) ∧
    (Json.get node.id last.loop.nodeStates = some .completed →
      compensationBuilds last.loop.nodeResults node = true)

/-- A failed run compensates what has succeeded exactly if nothing has succeeded unseen. -/
theorem saga_complete_iff (valid : validateDag task.dag = .ok order)
    (runs : CompensationPolicy.runsOnFailure task.compensationPolicy = true)
    (lenient : CompensationPolicy.isStrict task.compensationPolicy = false)
    (run : TracedRun opts task order s last running concluding result t)
    (failed : result.finalState = .failed) :
    SagaComplete opts task running concluding ↔ Accounted opts task last running := by
  have accepted := validateDag_accepted valid
  obtain ⟨sound, tallied⟩ := run.tallied accepted.distinct
  have dispatched : delegated concluding =
      compensated task order last.loop.nodeResults last.loop.nodeStates := by
    obtain ⟨endNodeIds, middle, -, concluded⟩ := run
    exact conclude_delegated runs lenient concluded.performs failed
  have chosen : ∀ node ∈ task.dag.nodes, node.id ∈ delegated concluding ↔
      Json.get node.id last.loop.nodeStates = some .completed ∧
        compensable last.loop.nodeResults node = true := by
    intro node member
    rw [dispatched]
    constructor
    · intro listed
      obtain ⟨other, there, same⟩ := List.mem_map.mp listed
      obtain ⟨completed, able⟩ := List.mem_filter.mp there
      obtain ⟨inside, recorded⟩ := (mem_completedNodes accepted).mp completed
      cases List.inj_on_of_nodup_map accepted.distinct inside member same
      exact ⟨recorded, able⟩
    · rintro ⟨recorded, able⟩
      exact mem_compensated ((mem_completedNodes accepted).mpr ⟨member, recorded⟩) able
  constructor
  · intro complete node member named
    constructor
    · intro flying succeeded
      have listed := (complete.nodes node.id).mpr ⟨node, member, rfl, named, succeeded⟩
      have settled : node.id ∈ last.loop.nodeStates.map Prod.fst :=
        List.mem_map_of_mem (Json.mem_of_get ((chosen node member).mp listed).1)
      exact List.disjoint_of_nodup_append sound.distinct settled flying
    · intro recorded
      have succeeded := (tallied.settled node member .completed recorded).mp rfl
      have listed := (complete.nodes node.id).mpr ⟨node, member, rfl, named, succeeded⟩
      exact (Bool.and_eq_true_iff.mp ((chosen node member).mp listed).2).2
  · intro accounted
    constructor
    · have distinct : order.Nodup := accepted.order_spec.1.nodup_iff.mpr accepted.distinct
      rw [dispatched]
      exact (List.nodup_reverse.mpr distinct).sublist (compensated_sublist accepted)
    · intro id
      constructor
      · intro listed
        have there := listed
        rw [dispatched] at there
        obtain ⟨node, filtered, rfl⟩ := List.mem_map.mp there
        have member := ((mem_completedNodes accepted).mp (List.mem_filter.mp filtered).1).1
        obtain ⟨recorded, able⟩ := (chosen node member).mp listed
        have named : blankAction node = false := by
          have half := (Bool.and_eq_true_iff.mp able).1
          rwa [Bool.not_eq_true'] at half
        exact ⟨node, member, rfl, named, (tallied.settled node member .completed recorded).mp rfl⟩
      · rintro ⟨node, member, rfl, named, succeeded⟩
        obtain ⟨ungrounded, builds⟩ := accounted node member named
        rcases List.mem_append.mp (tallied.known node member succeeded) with settled | flying
        · obtain ⟨⟨id, state⟩, there, same⟩ := List.mem_map.mp settled
          have recorded : Json.get node.id last.loop.nodeStates = some state :=
            (Json.get_eq_some sound.keys_distinct).mpr (same ▸ there)
          cases (tallied.settled node member state recorded).mpr succeeded
          refine (chosen node member).mpr ⟨recorded, ?_⟩
          rw [compensable, named, builds recorded]
          rfl
        · exact absurd succeeded (ungrounded flying)

end Runs

namespace Shipping
open scoped Chain

def node (id : String) (inputFrom : Option (List String)) : DagNode :=
  { Chain.node id inputFrom with compensateAction := some "nwp://worker/undo" }

/-- A charge and a shipment that needs it. -/
def chained : TaskFrame where
  taskId := "order"
  dag := { nodes := [node "charge" none, node "ship" (some ["charge"])], edges := [⟨"charge", "ship"⟩] }
  maxRetries := 0

/-- A shipment and a charge beside it. -/
def parallel : TaskFrame where
  taskId := "order"
  dag := { nodes := [node "ship" none, node "charge" none] }
  maxRetries := 0

/-- The worker fails shipments and completes everything else. -/
def handler (op : Op) (tasks : InMemoryNopTaskStore) : Answer op × InMemoryNopTaskStore :=
  match op with
  | .delegate frame =>
    let error := if frame.nodeId = "ship" then some ⟨"AGENT-DOWN", "down"⟩ else none
    ((Chain.answering error (.delegate frame) ()).1, tasks)
  | op => Twice.handler op tasks

theorem handler_faithful (op : Op) (tasks : InMemoryNopTaskStore) :
    exec op tasks (handler op tasks).1 (handler op tasks).2 := by
  cases op with
  | delegate frame => rfl
  | _ => exact Twice.handler_faithful _ tasks

def ran (task : TaskFrame) : (List String × LoopEnd) × InMemoryNopTaskStore :=
  (runNodes Chain.opts task).runWith handler ∅

def running (task : TaskFrame) : List (Sigma Answer) :=
  (runNodes Chain.opts task).performed handler ∅

def concluded (task : TaskFrame) (order : List String) : NopTaskResult × InMemoryNopTaskStore :=
  (conclude Chain.opts task order (ran task).1.1 (ran task).1.2).runWith handler (ran task).2

def concluding (task : TaskFrame) (order : List String) : List (Sigma Answer) :=
  (conclude Chain.opts task order (ran task).1.1 (ran task).1.2).performed handler (ran task).2

theorem traced (task : TaskFrame) (order : List String) :
    TracedRun Chain.opts task order ∅ (ran task).1.2 (running task) (concluding task order)
      (concluded task order).1 (concluded task order).2 :=
  ⟨_, _, traces_runWith handler_faithful _ ∅, traces_runWith handler_faithful _ _⟩

/-- The charge that has succeeded is undone when the shipment fails. -/
theorem charge_undone : (concluded chained ["charge", "ship"]).1.finalState = .failed ∧
    SagaComplete Chain.opts chained (running chained) (concluding chained ["charge", "ship"]) := by
  have failed : (concluded chained ["charge", "ship"]).1.finalState = .failed := rfl
  refine ⟨failed, (saga_complete_iff rfl rfl rfl (traced chained _) failed).mpr ?_⟩
  have landed : (ran chained).1.2.loop.inFlight = [] := rfl
  intro node member named
  refine ⟨fun flying => ?_, fun _ => ?_⟩
  · rw [landed] at flying
    cases flying
  · have both : ∀ node ∈ chained.dag.nodes,
        compensationBuilds (ran chained).1.2.loop.nodeResults node = true := by
      simp only [chained, List.forall_mem_cons]
      exact ⟨rfl, rfl, by simp⟩
    exact both node member

/-- The charge succeeds while the run is being aborted, and is not undone. -/
theorem charge_kept : ∃ last running concluding result t,
    validateDag parallel.dag = .ok ["ship", "charge"] ∧
    TracedRun Chain.opts parallel ["ship", "charge"] ∅ last running concluding result t ∧
    result.finalState = .failed ∧
    HasSucceeded Chain.opts parallel (node "charge" none) running ∧ delegated concluding = [] ∧
    ¬ SagaComplete Chain.opts parallel running concluding := by
  have succeeded : HasSucceeded Chain.opts parallel (node "charge" none) (running parallel) :=
    ⟨_, List.mem_of_getElem? (i := 13) rfl, rfl, rfl⟩
  have none_ : delegated (concluding parallel ["ship", "charge"]) = [] := rfl
  refine ⟨_, _, _, _, _, rfl, traced parallel _, rfl, succeeded, none_, fun complete => ?_⟩
  have listed := (complete.nodes "charge").mpr ⟨node "charge" none, by simp [parallel], rfl, rfl, succeeded⟩
  rw [none_] at listed
  cases listed

end Shipping
end Nps.Nop
