import NpsSdk.Lib.Traces
import NpsSdk.Nop.NodeExecution

/-! The numbers of the frames that a worker answers a delegation with. -/
namespace Nps.Nop
open Json (Value Fields)
open Interaction Prog

section Frames
variable (opts : NopOrchestratorOptions) (node : DagNode)

def AlignStreamFrame.stops (frame : AlignStreamFrame) : Bool :=
  frame.isFinal || (opts.validateSenderNid && frame.senderNid ≠ node.agent)

def framesRead : List AlignStreamFrame → List AlignStreamFrame
  | [] => []
  | frame :: rest => if frame.stops opts node then [frame] else frame :: framesRead rest

def InSequence (frames : List AlignStreamFrame) : Prop :=
  frames.map AlignStreamFrame.seq = List.range frames.length

instance (frames : List AlignStreamFrame) : Decidable (InSequence frames) :=
  inferInstanceAs (Decidable (_ = _))

/-- A number that the check does not let pass after another one. -/
def Gap (lastSeq seq : Nat) : Prop := seq ≠ lastSeq ∧ seq ≠ 0 ∧ seq ≠ lastSeq + 1

instance (lastSeq seq : Nat) : Decidable (Gap lastSeq seq) := inferInstanceAs (Decidable (_ ∧ _))

/-- Some number is neither 0, nor the one before it, nor the next one after that. -/
def Gapped : (lastSeq : Nat) → List AlignStreamFrame → Prop
  | _, [] => False
  | lastSeq, frame :: rest => Gap lastSeq frame.seq ∨ Gapped frame.seq rest

/-- A node is completed by frames in sequence up to the last one, and otherwise fails for it. -/
structure Sequenced (frames : List AlignStreamFrame) (outcome : NodeOutcome) : Prop where
  completed : outcome.state = .completed →
    InSequence (framesRead opts node frames) ∧
      ∃ frame, (framesRead opts node frames).getLast? = some frame ∧ frame.isFinal = true
  refused : ¬ InSequence (framesRead opts node frames) → outcome = .failed ErrorCodes.streamSeqGap

end Frames

section Sequence
variable {opts : NopOrchestratorOptions} {task : TaskFrame} {node : DagNode}
  {frames : List AlignStreamFrame} {lastSeq : Nat}

/-- The error of a gap, which nothing else has as it is. -/
theorem readStream_gapped : readStream opts node lastSeq frames = some (.failed ErrorCodes.streamSeqGap) ↔
    Gapped lastSeq (framesRead opts node frames) := by
  induction frames generalizing lastSeq with
  | nil => simp [readStream, framesRead, Gapped]
  | cons frame rest ih =>
    have other : ErrorCodes.streamNidMismatch ≠ ErrorCodes.streamSeqGap := by decide
    unfold readStream framesRead
    by_cases gap : Gap lastSeq frame.seq
    · have seen : frame.seq ≠ lastSeq ∧ frame.seq ≠ 0 ∧ frame.seq ≠ lastSeq + 1 := gap
      rw [if_pos seen]
      by_cases stops : frame.stops opts node = true <;> simp [stops, Gapped, gap]
    · have unseen : ¬ (frame.seq ≠ lastSeq ∧ frame.seq ≠ 0 ∧ frame.seq ≠ lastSeq + 1) := gap
      rw [if_neg unseen]
      by_cases foreign : opts.validateSenderNid = true ∧ frame.senderNid ≠ node.agent
      · have stops : frame.stops opts node = true := by simp [AlignStreamFrame.stops, foreign]
        rw [if_pos foreign, if_pos stops]
        simp [Gapped, gap, NodeOutcome.failed, other]
      · rw [if_neg foreign]
        by_cases final : frame.isFinal = true
        · have stops : frame.stops opts node = true := by simp [AlignStreamFrame.stops, final]
          rw [if_pos final, if_pos stops]
          cases frame.error <;> simp [Gapped, gap, NodeOutcome.failed]
        · have goes : frame.stops opts node = false := by
            rw [AlignStreamFrame.stops, Bool.or_eq_false_iff]
            refine ⟨Bool.eq_false_of_not_eq_true final, ?_⟩
            simpa using foreign
          rw [if_neg final, goes, ih]
          simp [Gapped, gap]

/-- Only a frame that ends the stream completes a node. -/
theorem readStream_completed {outcome : NodeOutcome}
    (read : readStream opts node lastSeq frames = some outcome) (completed : outcome.state = .completed) :
    ∃ frame, (framesRead opts node frames).getLast? = some frame ∧ frame.isFinal = true := by
  induction frames generalizing lastSeq with
  | nil => cases read
  | cons frame rest ih =>
    unfold readStream at read
    split_ifs at read with gap foreign final
    · cases read
      cases completed
    · cases read
      cases completed
    · have stops : frame.stops opts node = true := by simp [AlignStreamFrame.stops, final]
      refine ⟨frame, ?_, final⟩
      rw [framesRead, if_pos stops]
      rfl
    · obtain ⟨last, found, ends⟩ := ih read
      refine ⟨last, ?_, ends⟩
      unfold framesRead
      split
      · rename_i stops
        simp only [AlignStreamFrame.stops, final, Bool.false_or, Bool.and_eq_true,
          decide_eq_true_eq] at stops
        exact absurd stops foreign
      · rw [List.getLast?_cons, found]
        rfl

theorem streamOutcome_gapped {delegation : Delegation} :
    streamOutcome opts task node delegation = .failed ErrorCodes.streamSeqGap ↔
      Gapped 0 (framesRead opts node delegation.frames) := by
  rw [← readStream_gapped]
  unfold streamOutcome
  split
  · rename_i outcome read
    rw [read, Option.some.injEq]
  · rename_i unended
    rw [unended]
    simp [NodeOutcome.failed]

/-- A stream is treated as its numbers say exactly when these are in sequence or the check sees that
they are not. -/
theorem streamOutcome_sequenced (delegation : Delegation) :
    Sequenced opts node delegation.frames (streamOutcome opts task node delegation) ↔
      InSequence (framesRead opts node delegation.frames) ∨
        Gapped 0 (framesRead opts node delegation.frames) := by
  constructor
  · intro sequenced
    by_cases order : InSequence (framesRead opts node delegation.frames)
    · exact .inl order
    · exact .inr (streamOutcome_gapped.mp (sequenced.refused order))
  · intro seen
    constructor
    · intro completed
      rcases seen with order | gapped
      · refine ⟨order, ?_⟩
        unfold streamOutcome at completed
        split at completed
        · exact readStream_completed ‹_› completed
        · cases completed
      · rw [streamOutcome_gapped.mpr gapped] at completed
        cases completed
    · intro disorder
      exact streamOutcome_gapped.mpr (seen.resolve_left disorder)

theorem executeNodeOnce_delegation {subtaskId idempotencyKey : String} {context : Fields}
    {trace : List (Sigma Answer)} {outcome : NodeOutcome} {frame : DelegateFrame}
    {delegation : Delegation}
    (performs : Performs (executeNodeOnce opts task node subtaskId idempotencyKey context) trace outcome)
    (answered : ⟨.delegate frame, delegation⟩ ∈ trace) :
    outcome = streamOutcome opts task node delegation := by
  unfold executeNodeOnce at performs
  split at performs
  · obtain ⟨rfl, -⟩ := performs_done.mp performs
    cases answered
  · obtain ⟨now, _, rfl, sends⟩ := performs_ask.mp performs
    obtain ⟨sent, _, rfl, ends⟩ := performs_ask.mp sends
    obtain ⟨rfl, rfl⟩ := performs_done.mp ends
    simp only [List.mem_cons, Sigma.mk.injEq, reduceCtorEq, false_and, List.not_mem_nil, or_false,
      false_or, Op.delegate.injEq] at answered
    obtain ⟨-, same⟩ := answered
    rw [eq_of_heq same]

/-- A delegation completes its node only in sequence, and fails it otherwise for that reason, exactly
when the frames that are read are in sequence, or have a gap that the check sees. -/
theorem sequence_checked_iff {subtaskId idempotencyKey : String} {context : Fields}
    {trace : List (Sigma Answer)} {outcome : NodeOutcome} {frame : DelegateFrame}
    {delegation : Delegation}
    (performs : Performs (executeNodeOnce opts task node subtaskId idempotencyKey context) trace outcome)
    (answered : ⟨.delegate frame, delegation⟩ ∈ trace) :
    Sequenced opts node delegation.frames outcome ↔
      InSequence (framesRead opts node delegation.frames) ∨
        Gapped 0 (framesRead opts node delegation.frames) := by
  rw [executeNodeOnce_delegation performs answered]
  exact streamOutcome_sequenced delegation

end Sequence

namespace Restarted

def node : DagNode := { id := "n", action := "nwp://worker/act", agent := "worker" }

def task : TaskFrame := { taskId := "t", dag := ⟨[node], []⟩ }

def opts : NopOrchestratorOptions := { maxConcurrentNodes := 1 }

def frame (seq : Nat) (isFinal : Bool) : AlignStreamFrame := { seq, isFinal, senderNid := "worker" }

def sent : DelegateFrame := delegateFrame task node "s" "k" (.object []) 0

def trace (frames : List AlignStreamFrame) : List (Sigma Answer) :=
  [⟨.nowMs, (0 : Nat)⟩, ⟨.delegate sent, (⟨frames, false⟩ : Delegation)⟩]

theorem performs (frames : List AlignStreamFrame) :
    Performs (executeNodeOnce opts task node "s" "k" []) (trace frames)
      (streamOutcome opts task node ⟨frames, false⟩) :=
  performs_call.mpr ⟨(0 : Nat), _, rfl, performs_call.mpr ⟨_, _, rfl, performs_done.mpr ⟨rfl, rfl⟩⟩⟩

/-- Three frames in sequence complete the node. -/
theorem sequence_kept :
    Sequenced opts node [frame 0 false, frame 1 false, frame 2 true]
      (streamOutcome opts task node ⟨[frame 0 false, frame 1 false, frame 2 true], false⟩) :=
  have answered : (⟨.delegate sent, (⟨[frame 0 false, frame 1 false, frame 2 true], false⟩ : Delegation)⟩ :
      Sigma Answer) ∈ trace [frame 0 false, frame 1 false, frame 2 true] := by
    simp [trace]
  (sequence_checked_iff (performs _) answered).mpr (.inl (by decide))

/-- A node is completed although its stream starts again after the second frame. -/
theorem restart_completes :
    ∃ outcome, Performs (executeNodeOnce opts task node "s" "k" [])
        (trace [frame 0 false, frame 1 false, frame 0 false, frame 1 true]) outcome ∧
      outcome.state = .completed ∧
      ¬ Sequenced opts node [frame 0 false, frame 1 false, frame 0 false, frame 1 true] outcome := by
  refine ⟨_, performs _, rfl, fun sequenced => ?_⟩
  exact absurd (sequenced.completed rfl).1 (by decide)

end Restarted
end Nps.Nop
