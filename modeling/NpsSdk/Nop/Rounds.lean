import NpsSdk.Lib.Traces
import NpsSdk.Nop.Completion

/-! What one turn of the scheduler's loop performs, and what it comes to. -/
namespace Nps.Nop
open Json (Value Fields)
open Interaction Prog

section Rounds
variable [CharClasses] {opts : NopOrchestratorOptions} {task : TaskFrame}

def Loop.passed (opts : NopOrchestratorOptions) (task : TaskFrame) (loop : Loop)
    (pass : NodeStates × List DagNode) : Loop :=
  { loop with nodeStates := pass.1, inFlight := launch opts task loop pass.2 }

variable (task) in
def Passes (loop : Loop) (quiet : List (Sigma Answer)) (pass : NodeStates × List DagNode) : Prop :=
  Performs (failUnsatisfiable task (readyNodes task loop) loop.nodeStates) quiet pass

def Awaits (loop : Loop) (awaited : List (Sigma Answer)) (nodeId : String) (outcome : NodeOutcome)
    (rest : Futures Answer String NodeOutcome) : Prop :=
  ∃ choices trace, awaited = ⟨.choose, choices⟩ :: trace ∧
    Performs (awaitNext choices loop.inFlight) trace (some ((nodeId, outcome), rest))

variable (opts task) in
/-- All that a turn can perform. -/
inductive RoundTrace (endNodeIds : List String) (loop : Loop) :
    List (Sigma Answer) → Loop ⊕ LoopEnd → Prop where
  | complete : task.dag.nodeIds.length ≤ loop.nodeStates.length →
      RoundTrace endNodeIds loop [] (.inr (.ended loop))
  | idle {quiet : List (Sigma Answer)} {pass : NodeStates × List DagNode} :
      loop.nodeStates.length < task.dag.nodeIds.length → Passes task loop quiet pass →
      (loop.passed opts task pass).inFlight = [] →
      RoundTrace endNodeIds loop quiet (.inr (.ended (loop.passed opts task pass)))
  | settles {quiet awaited : List (Sigma Answer)} {pass : NodeStates × List DagNode}
      {nodeId : String} {outcome : NodeOutcome} {rest : Futures Answer String NodeOutcome} :
      Passes task loop quiet pass →
      Awaits (loop.passed opts task pass) awaited nodeId outcome rest →
      RoundTrace endNodeIds loop (quiet ++ awaited)
        (.inl ((loop.passed opts task pass).settle rest nodeId outcome))
  | aborts {quiet awaited drained : List (Sigma Answer)} {pass : NodeStates × List DagNode}
      {nodeId : String} {outcome : NodeOutcome} {rest : Futures Answer String NodeOutcome} :
      Passes task loop quiet pass →
      Awaits (loop.passed opts task pass) awaited nodeId outcome rest →
      outcome.state = .failed → Performs (drain rest.length rest) drained () →
      RoundTrace endNodeIds loop (quiet ++ awaited ++ drained)
        (.inr (.aborted ((loop.passed opts task pass).settle rest nodeId outcome) nodeId outcome))

theorem round_performs {endNodeIds : List String} {loop : Loop} {trace : List (Sigma Answer)}
    {out : Loop ⊕ LoopEnd} (performs : Performs (round opts task endNodeIds loop) trace out) :
    RoundTrace opts task endNodeIds loop trace out := by
  unfold round at performs
  split_ifs at performs with full
  · obtain ⟨rfl, rfl⟩ := performs_done.mp performs
    exact .complete full
  obtain ⟨pass, quiet, rest, rfl, passes, goes⟩ := performs_bind.mp performs
  dsimp only at goes
  split at goes
  · rename_i grounded
    obtain ⟨rfl, rfl⟩ := performs_done.mp goes
    rw [List.append_nil]
    exact .idle (Nat.lt_of_not_le full) passes (List.isEmpty_iff.mp grounded)
  · rename_i flying
    obtain ⟨choices, _, rfl, awaits⟩ := performs_ask.mp goes
    obtain ⟨next, trace, last, rfl, awaited, settles⟩ := performs_bind.mp awaits
    match next with
    | none =>
      exact absurd awaited.returns (awaitNext_ne_none (mt List.isEmpty_iff.mpr flying))
    | some ((nodeId, outcome), rest) =>
      have waits : Awaits (loop.passed opts task pass) (⟨.choose, choices⟩ :: trace) nodeId outcome rest :=
        ⟨choices, trace, rfl, awaited⟩
      dsimp only at settles
      split at settles
      · rename_i lost
        obtain ⟨_, drained, ends, rfl, drains, final⟩ := performs_bind.mp settles
        obtain ⟨rfl, rfl⟩ := performs_done.mp final
        have aborted : RoundTrace opts task endNodeIds loop
            (quiet ++ ⟨.choose, choices⟩ :: trace ++ drained) _ := .aborts passes waits lost.1 drains
        rw [List.append_assoc, List.cons_append] at aborted
        rw [List.append_nil]
        exact aborted
      · obtain ⟨rfl, rfl⟩ := performs_done.mp settles
        rw [List.append_nil]
        exact .settles passes waits

variable {endNodeIds : List String} {loop next : Loop} {pass : NodeStates × List DagNode}
  {trace quiet awaited : List (Sigma Answer)} {nodeId : String} {outcome : NodeOutcome}
  {rest : Futures Answer String NodeOutcome}

omit [CharClasses] in
theorem Passes.spec (distinct : (task.dag.nodes.map DagNode.id).Nodup)
    (passes : Passes task loop quiet pass) :
    pass.1.Perm ((failing task loop).map (fun node => (node.id, .failed)) ++ loop.nodeStates) ∧
      pass.2 = startable task loop :=
  failUnsatisfiable_returns (fun _ ready => (readyNodes_fresh ready).1)
    (readyNodes_distinct distinct loop) passes.returns

theorem Passes.passed (distinct : (task.dag.nodes.map DagNode.id).Nodup)
    (passes : Passes task loop quiet pass) : Passed opts task loop (loop.passed opts task pass) := by
  obtain ⟨perm, left⟩ := passes.spec distinct
  refine ⟨perm, rfl, ?_⟩
  change launch opts task loop pass.2 = _
  rw [left]

theorem Passes.sound (distinct : (task.dag.nodes.map DagNode.id).Nodup) (sound : loop.Sound task.dag)
    (passes : Passes task loop quiet pass) : (loop.passed opts task pass).Sound task.dag :=
  (passes.passed distinct).sound distinct sound

omit [CharClasses] in
theorem Awaits.finishes (awaits : Awaits loop awaited nodeId outcome rest) :
    Finishes loop nodeId outcome rest := by
  obtain ⟨choices, trace, -, performs⟩ := awaits
  exact ⟨choices, performs.returns⟩

/-- Where the loop stops, its state is as sound as before. -/
theorem RoundTrace.sound_last (distinct : (task.dag.nodes.map DagNode.id).Nodup)
    (sound : loop.Sound task.dag) {last : LoopEnd}
    (turn : RoundTrace opts task endNodeIds loop trace (.inr last)) : last.loop.Sound task.dag := by
  cases turn with
  | complete full => exact sound
  | idle left passes idle => exact passes.sound distinct sound
  | aborts passes awaits failed drains => exact (awaits.finishes.sound (passes.sound distinct sound)).1

theorem RoundTrace.sound_next (distinct : (task.dag.nodes.map DagNode.id).Nodup)
    (sound : loop.Sound task.dag) (turn : RoundTrace opts task endNodeIds loop trace (.inl next)) :
    next.Sound task.dag := by
  cases turn with
  | settles passes awaits => exact (awaits.finishes.sound (passes.sound distinct sound)).1

end Rounds
end Nps.Nop
