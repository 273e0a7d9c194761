import NpsSdk.Lib.Traces
import NpsSdk.Nop.DuplicateTask

/-! The attempts at a node: how many there are, what they have in common and what is recorded of
the last one. -/
namespace Nps.Nop
open Json (Value Fields)
open Interaction Prog

/-- What a task records of a node, nothing without the task. -/
def InMemoryNopTaskStore.nodeOf (tasks : InMemoryNopTaskStore) (taskId nodeId : String) :
    Option (Option NopSubtaskRecord) :=
  (tasks.lookup taskId).map (·.subtasks.lookup nodeId)

/-- An operation while others act on the tasks before and after it, but not on this node's record. -/
def Beside (taskId nodeId : String) (op : Op) (s : InMemoryNopTaskStore) (answer : Answer op)
    (t : InMemoryNopTaskStore) : Prop :=
  ∃ before after, before.nodeOf taskId nodeId = s.nodeOf taskId nodeId ∧
    exec op before answer after ∧ t.nodeOf taskId nodeId = after.nodeOf taskId nodeId

section Records
variable {s t : InMemoryNopTaskStore} {taskId nodeId subtaskId : String} {state : TaskState}
  {update : SubtaskUpdate}

theorem nodeOf_updateSubtask :
    (s.updateSubtask taskId nodeId subtaskId state update).nodeOf taskId nodeId =
      (s.nodeOf taskId nodeId).map fun record =>
        some ((record.getD { nodeId, subtaskId, state }).apply state update) := by
  simp [InMemoryNopTaskStore.nodeOf, InMemoryNopTaskStore.updateSubtask, AList.lookup_modify,
    Function.comp_def]

theorem Beside.quiet {op : Op} {answer : Answer op} (beside : Beside taskId nodeId op s answer t)
    (quiet : ∀ before after, exec op before answer after → after = before) :
    t.nodeOf taskId nodeId = s.nodeOf taskId nodeId := by
  obtain ⟨before, after, begun, acts, ended⟩ := beside
  rw [ended, quiet before after acts, begun]

theorem Beside.updates {answer : Unit}
    (beside : Beside taskId nodeId (.updateSubtask taskId nodeId subtaskId state update) s answer t) :
    t.nodeOf taskId nodeId = (s.nodeOf taskId nodeId).map fun record =>
      some ((record.getD { nodeId, subtaskId, state }).apply state update) := by
  obtain ⟨before, after, begun, rfl, ended⟩ := beside
  rw [ended, nodeOf_updateSubtask, begun]

end Records

def Op.sent : Op → Option DelegateFrame
  | .delegate frame => some frame
  | _ => none

def delegations (trace : List (Sigma Answer)) : List DelegateFrame := trace.filterMap (·.1.sent)

@[simp] theorem delegations_nil : delegations [] = [] := rfl

@[simp] theorem delegations_cons (entry : Sigma Answer) (trace : List (Sigma Answer)) :
    delegations (entry :: trace) = entry.1.sent.toList ++ delegations trace := by
  unfold delegations
  rw [List.filterMap_cons]
  cases entry.1.sent <;> rfl

@[simp] theorem delegations_append (first second : List (Sigma Answer)) :
    delegations (first ++ second) = delegations first ++ delegations second := List.filterMap_append

section Once
variable {opts : NopOrchestratorOptions} {task : TaskFrame} {node : DagNode}
  {subtaskId idempotencyKey : String} {context : Fields} {trace : List (Sigma Answer)}
  {outcome : NodeOutcome} {s t : InMemoryNopTaskStore}

theorem executeNodeOnce_sends
    (performs : Performs (executeNodeOnce opts task node subtaskId idempotencyKey context) trace outcome) :
    (delegations trace).length ≤ 1 ∧ ∀ frame ∈ delegations trace,
      frame.nodeId = node.id ∧ frame.subtaskId = subtaskId ∧ frame.idempotencyKey = some idempotencyKey := by
  unfold executeNodeOnce at performs
  split at performs
  · obtain ⟨rfl, -⟩ := performs_done.mp performs
    simp
  · obtain ⟨now, _, rfl, sends⟩ := performs_ask.mp performs
    obtain ⟨delegation, _, rfl, ends⟩ := performs_ask.mp sends
    obtain ⟨rfl, -⟩ := performs_done.mp ends
    simp [Op.sent, delegateFrame]

theorem readStream_failed {lastSeq : Nat} {frames : List AlignStreamFrame}
    (read : readStream opts node lastSeq frames = some outcome) (failed : outcome.state ≠ .completed) :
    outcome.state = .failed ∧ outcome.errorCode.isSome := by
  induction frames generalizing lastSeq with
  | nil => cases read
  | cons frame rest ih =>
    unfold readStream at read
    split_ifs at read
    · cases read
      exact ⟨rfl, rfl⟩
    · cases read
      exact ⟨rfl, rfl⟩
    · split at read
      · cases read
        exact ⟨rfl, rfl⟩
      · cases read
        exact absurd rfl failed
    · exact ih read

theorem executeNodeOnce_failed
    (performs : Performs (executeNodeOnce opts task node subtaskId idempotencyKey context) trace outcome)
    (failed : outcome.state ≠ .completed) : outcome.state = .failed ∧ outcome.errorCode.isSome := by
  unfold executeNodeOnce at performs
  split at performs
  · obtain ⟨-, rfl⟩ := performs_done.mp performs
    exact ⟨rfl, rfl⟩
  · obtain ⟨now, _, rfl, sends⟩ := performs_ask.mp performs
    obtain ⟨delegation, _, rfl, ends⟩ := performs_ask.mp sends
    obtain ⟨-, rfl⟩ := performs_done.mp ends
    unfold streamOutcome at failed ⊢
    split at failed
    · exact readStream_failed ‹_› failed
    · exact ⟨rfl, rfl⟩

theorem executeNodeOnce_unrecorded (traces : Traces (Beside task.taskId node.id)
      (executeNodeOnce opts task node subtaskId idempotencyKey context) s trace outcome t) :
    t.nodeOf task.taskId node.id = s.nodeOf task.taskId node.id := by
  unfold executeNodeOnce at traces
  split at traces
  · obtain ⟨-, -, rfl⟩ := traces_done.mp traces
    rfl
  · obtain ⟨now, read, _, -, clock, sends⟩ := traces_ask.mp traces
    obtain ⟨delegation, _, _, -, worker, ends⟩ := traces_ask.mp sends
    obtain ⟨-, -, rfl⟩ := traces_done.mp ends
    calc
      t.nodeOf task.taskId node.id
      _ = read.nodeOf task.taskId node.id := worker.quiet fun _ _ acts => acts
      _ = s.nodeOf task.taskId node.id := clock.quiet fun _ _ acts => acts

end Once

/-- The policy of a node admits another attempt after this error. -/
def DagNode.admits (node : DagNode) (errorCode : Option String) : Prop :=
  ∀ retryOn, node.retryPolicy.bind RetryPolicy.retryOn = some retryOn → retryOn ≠ [] →
    ∀ code, errorCode = some code → code ∈ retryOn

theorem shouldRetry_iff {node : DagNode} {errorCode : Option String} {attempt maxRetries : Nat} :
    shouldRetry node.retryPolicy errorCode attempt maxRetries = true ↔
      attempt ≤ maxRetries ∧ node.admits errorCode := by
  unfold shouldRetry DagNode.admits
  by_cases late : attempt > maxRetries
  · simp [late]
  · rw [if_neg late]
    have early : attempt ≤ maxRetries := Nat.le_of_not_lt late
    cases node.retryPolicy.bind RetryPolicy.retryOn with
    | none => simp [early]
    | some retryOn =>
      cases retryOn with
      | nil => simp [early]
      | cons first rest => cases errorCode <;> simp [early]

/-- One attempt: what it performed and what came of it. -/
structure Attempt where
  trace : List (Sigma Answer)
  outcome : NodeOutcome

section Attempts
variable (opts : NopOrchestratorOptions) (task : TaskFrame) (node : DagNode)
  (subtaskId idempotencyKey : String) (context : Fields)

/-- A run of attempts, of at most so many: each but the last one failed and was admitted again,
and the last one decides. -/
structure Attempted (limit : Nat) (trace : List (Sigma Answer)) (outcome : NodeOutcome)
    (attempts : List Attempt) : Prop where
  bounded : attempts.length ≤ limit
  performed : ∀ attempt ∈ attempts, Performs
    (executeNodeOnce opts task node subtaskId idempotencyKey context) attempt.trace attempt.outcome
  delegated : delegations trace = attempts.flatMap fun attempt => delegations attempt.trace
  again : ∀ attempt ∈ attempts.dropLast,
    attempt.outcome.state ≠ .completed ∧ node.admits attempt.outcome.errorCode
  last : ∃ attempt, attempts.getLast? = some attempt ∧ attempt.outcome = outcome ∧
    (outcome.state = .completed ∨ ¬ node.admits outcome.errorCode ∨ attempts.length = limit)

variable {opts task node subtaskId idempotencyKey context}
  {limit left attempt : Nat} {trace : List (Sigma Answer)} {outcome : NodeOutcome}
  {attempts : List Attempt} {s t : InMemoryNopTaskStore}

theorem Attempted.sent
    (attempted : Attempted opts task node subtaskId idempotencyKey context limit trace outcome attempts) :
    (delegations trace).length ≤ limit ∧ ∀ frame ∈ delegations trace,
      frame.nodeId = node.id ∧ frame.subtaskId = subtaskId ∧ frame.idempotencyKey = some idempotencyKey := by
  rw [attempted.delegated]
  constructor
  · have counted : (attempts.flatMap fun attempt => delegations attempt.trace).length ≤
        attempts.length := by
      rw [List.length_flatMap]
      have each : ∀ count ∈ attempts.map fun attempt => (delegations attempt.trace).length, count ≤ 1 := by
        intro count member
        obtain ⟨attempt, listed, rfl⟩ := List.mem_map.mp member
        exact (executeNodeOnce_sends (attempted.performed attempt listed)).1
      simpa using List.sum_le_card_nsmul _ 1 each
    exact counted.trans attempted.bounded
  · intro frame member
    obtain ⟨attempt, listed, sends⟩ := List.mem_flatMap.mp member
    exact (executeNodeOnce_sends (attempted.performed attempt listed)).2 frame sends

/-- The only attempt, after which there is none. -/
theorem Attempted.single {trace' : List (Sigma Answer)}
    (performed : Performs (executeNodeOnce opts task node subtaskId idempotencyKey context) trace' outcome)
    (delegated : delegations trace = delegations trace')
    (ends : outcome.state = .completed ∨ ¬ node.admits outcome.errorCode ∨ limit = 0) :
    Attempted opts task node subtaskId idempotencyKey context (limit + 1) trace outcome
      [⟨trace', outcome⟩] where
  bounded := by simp
  performed := by simpa using performed
  delegated := by simpa using delegated
  again := by simp
  last := by
    refine ⟨_, rfl, rfl, ends.imp_right (Or.imp_right ?_)⟩
    rintro rfl
    rfl

theorem Attempted.after {trace' : List (Sigma Answer)}
    (attempted : Attempted opts task node subtaskId idempotencyKey context limit trace outcome attempts)
    (quiet : delegations trace' = delegations trace) :
    Attempted opts task node subtaskId idempotencyKey context limit trace' outcome attempts :=
  { attempted with delegated := quiet.trans attempted.delegated }

theorem Attempted.cons {first rest : List (Sigma Answer)} {failure : NodeOutcome}
    (performed : Performs (executeNodeOnce opts task node subtaskId idempotencyKey context) first failure)
    (failed : failure.state ≠ .completed) (admitted : node.admits failure.errorCode)
    (delegated : delegations trace = delegations first ++ delegations rest)
    (later : Attempted opts task node subtaskId idempotencyKey context limit rest outcome attempts) :
    Attempted opts task node subtaskId idempotencyKey context (limit + 1) trace outcome
      (⟨first, failure⟩ :: attempts) := by
  obtain ⟨last, found, decides, ends⟩ := later.last
  have some_ : attempts ≠ [] := by
    rintro rfl
    cases found
  constructor
  · simpa using later.bounded
  · rw [List.forall_mem_cons]
    exact ⟨performed, later.performed⟩
  · rw [delegated, later.delegated, List.flatMap_cons]
  · rw [List.dropLast_cons_of_ne_nil some_, List.forall_mem_cons]
    exact ⟨⟨failed, admitted⟩, later.again⟩
  · refine ⟨last, ?_, decides, ends.imp_right (Or.imp_right ?_)⟩
    · rw [List.getLast?_cons, found]
      rfl
    · intro full
      rw [List.length_cons, full]

/-- A node is recorded as its last attempt ended. Only where that has no message, one that the record
had before remains. -/
structure RecordedAs (outcome : NodeOutcome) (before : Option NopSubtaskRecord)
    (record : NopSubtaskRecord) : Prop where
  state : record.state = outcome.state
  errorCode : outcome.state ≠ .completed → record.errorCode = outcome.errorCode
  errorMessage : outcome.state ≠ .completed →
    record.errorMessage = (outcome.errorMessage <|> before.bind NopSubtaskRecord.errorMessage)

/-- One round of the loop: an attempt that decides and is recorded, or one that fails and leaves the
record without an error of its own. -/
theorem runAttempts_cases (traces : Traces (Beside task.taskId node.id)
      (runAttempts opts task node subtaskId idempotencyKey context (left + 1) attempt) s trace outcome t) :
    ∃ once tried, Performs (executeNodeOnce opts task node subtaskId idempotencyKey context) once tried ∧
      ((delegations trace = delegations once ∧ tried = outcome ∧
          (outcome.state = .completed ∨
            shouldRetry node.retryPolicy outcome.errorCode attempt (maxRetries task node) = false) ∧
          ∀ before, s.nodeOf task.taskId node.id = some before → ∃ record,
            t.nodeOf task.taskId node.id = some (some record) ∧ RecordedAs outcome before record) ∨
        (tried.state ≠ .completed ∧
          shouldRetry node.retryPolicy tried.errorCode attempt (maxRetries task node) = true ∧
          ∃ rest u, delegations trace = delegations once ++ delegations rest ∧
            (∀ before, s.nodeOf task.taskId node.id = some before → ∃ record,
              u.nodeOf task.taskId node.id = some (some record) ∧
                record.errorMessage = before.bind NopSubtaskRecord.errorMessage) ∧
            Traces (Beside task.taskId node.id)
              (runAttempts opts task node subtaskId idempotencyKey context left (attempt + 1)) u rest
              outcome t)) := by
  obtain ⟨_, _, _, rfl, starts, tries⟩ := traces_ask.mp traces
  obtain ⟨tried, _, once, last, rfl, attempted, goes⟩ := traces_bind.mp tries
  have running := (executeNodeOnce_unrecorded attempted).trans starts.updates
  have failed := executeNodeOnce_failed attempted.performs
  refine ⟨once, tried, attempted.performs, ?_⟩
  split_ifs at goes with completed stops
  · obtain ⟨_, _, _, rfl, records, ends⟩ := traces_ask.mp goes
    obtain ⟨rfl, rfl, rfl⟩ := traces_done.mp ends
    refine .inl ⟨by simp [Op.sent], rfl, .inl completed, fun before recorded => ?_⟩
    have written := records.updates
    rw [running, recorded] at written
    exact ⟨_, written, completed.symm, fun incomplete => absurd completed incomplete,
      fun incomplete => absurd completed incomplete⟩
  · obtain ⟨_, _, _, rfl, records, ends⟩ := traces_ask.mp goes
    obtain ⟨rfl, rfl, rfl⟩ := traces_done.mp ends
    refine .inl ⟨by simp [Op.sent], rfl, .inr (by simpa using stops), fun before recorded => ?_⟩
    have written := records.updates
    rw [running, recorded] at written
    obtain ⟨code, coded⟩ := Option.isSome_iff_exists.mp (failed completed).2
    refine ⟨_, written, (failed completed).1.symm, fun _ => ?_, fun _ => ?_⟩
    · simp [NopSubtaskRecord.apply, coded]
    · cases before <;> simp [NopSubtaskRecord.apply]
  · obtain ⟨_, u, rest, rfl, sleeps, more⟩ := traces_ask.mp goes
    refine .inr ⟨completed, by simpa using stops, rest, u, by simp [Op.sent], fun before recorded => ?_, more⟩
    have kept := sleeps.quiet fun _ _ acts => acts
    rw [running, recorded] at kept
    refine ⟨_, kept, ?_⟩
    cases before <;> simp [NopSubtaskRecord.apply]

/-- Each attempt leaves one less: the loop ends with an attempt that is not retried, and never for
want of attempts. -/
theorem runAttempts_attempted (counted : attempt + left = maxRetries task node + 1)
    (traces : Traces (Beside task.taskId node.id)
      (runAttempts opts task node subtaskId idempotencyKey context (left + 1) attempt) s trace outcome t) :
    ∃ attempts, Attempted opts task node subtaskId idempotencyKey context (left + 1) trace outcome
      attempts := by
  induction left generalizing attempt trace s with
  | zero =>
    obtain ⟨once, tried, performed, ⟨sent, rfl, -, -⟩ | ⟨-, retried, -⟩⟩ := runAttempts_cases traces
    · exact ⟨_, .single performed sent (.inr (.inr rfl))⟩
    · have early := (shouldRetry_iff.mp retried).1
      omega
  | succ left ih =>
    obtain ⟨once, tried, performed, ⟨sent, rfl, ends, -⟩ | ⟨failed, retried, rest, u, sent, -, more⟩⟩ :=
      runAttempts_cases traces
    · refine ⟨_, .single performed sent (ends.imp_right fun refused => .inl fun admitted => ?_)⟩
      rw [shouldRetry_iff.mpr ⟨by omega, admitted⟩] at refused
      cases refused
    · obtain ⟨attempts, later⟩ := ih (by omega) more
      exact ⟨_, .cons performed failed (shouldRetry_iff.mp retried).2 sent later⟩

/-- Failures on the way leave no error in the record, so that the last one is not mixed with them. -/
theorem runAttempts_recorded {before : Option NopSubtaskRecord}
    (counted : attempt + left = maxRetries task node + 1)
    (traces : Traces (Beside task.taskId node.id)
      (runAttempts opts task node subtaskId idempotencyKey context (left + 1) attempt) s trace outcome t)
    (recorded : s.nodeOf task.taskId node.id = some before) :
    ∃ record, t.nodeOf task.taskId node.id = some (some record) ∧ RecordedAs outcome before record := by
  induction left generalizing attempt trace s before with
  | zero =>
    obtain ⟨once, tried, -, ⟨-, -, -, written⟩ | ⟨-, retried, -⟩⟩ := runAttempts_cases traces
    · exact written before recorded
    · have early := (shouldRetry_iff.mp retried).1
      omega
  | succ left ih =>
    obtain ⟨once, tried, -, ⟨-, -, -, written⟩ | ⟨-, -, rest, u, -, kept, more⟩⟩ :=
      runAttempts_cases traces
    · exact written before recorded
    · obtain ⟨middle, noted, message⟩ := kept before recorded
      obtain ⟨record, written, state, errorCode, errorMessage⟩ := ih (by omega) more noted
      refine ⟨record, written, state, errorCode, ?_⟩
      rw [← message]
      exact errorMessage

variable [CharClasses]

/-- A node that is run is delegated for one attempt and every retry that its policy allows, stops at
the first attempt that completes or is not admitted again, sends the same identifiers each time, and
is recorded as its last attempt ended. A node whose condition keeps it from running sends nothing. -/
theorem node_retried (traces : Traces (Beside task.taskId node.id)
      (executeNodeWithRetry opts task node context) s trace outcome t) :
    ∃ subtaskId idempotencyKey,
      ((delegations trace).length ≤ maxRetries task node + 1 ∧ ∀ frame ∈ delegations trace,
        frame.nodeId = node.id ∧ frame.subtaskId = subtaskId ∧
          frame.idempotencyKey = some idempotencyKey) ∧
      (Condition.evaluate (node.condition.getD "") context = .ok true → ∃ attempts,
        Attempted opts task node subtaskId idempotencyKey context (maxRetries task node + 1) trace
          outcome attempts ∧
        ∀ before, s.nodeOf task.taskId node.id = some before → ∃ record,
          t.nodeOf task.taskId node.id = some (some record) ∧ RecordedAs outcome before record) ∧
      (Condition.evaluate (node.condition.getD "") context ≠ .ok true → delegations trace = []) := by
  obtain ⟨subtaskId, _, _, rfl, named, keyed⟩ := traces_ask.mp traces
  obtain ⟨idempotencyKey, _, rest, rfl, stamped, decides⟩ := traces_ask.mp keyed
  have quiet : delegations (⟨.newUuid, subtaskId⟩ :: ⟨.newUuid, idempotencyKey⟩ :: rest) =
      delegations rest := by
    simp [Op.sent]
  refine ⟨subtaskId, idempotencyKey, ?_⟩
  rw [quiet]
  split at decides
  · rename_i holds
    obtain ⟨attempts, attempted⟩ := runAttempts_attempted (Nat.add_comm 1 _) decides
    refine ⟨attempted.sent, fun _ => ⟨attempts, attempted.after quiet, ?_⟩, fun fails => absurd holds fails⟩
    · intro before recorded
      refine runAttempts_recorded (Nat.add_comm 1 _) decides ?_
      rw [stamped.quiet fun _ _ acts => acts, named.quiet fun _ _ acts => acts, recorded]
  all_goals
    rename_i differs
    obtain ⟨-, _, _, rfl, -, ends⟩ := traces_ask.mp decides
    obtain ⟨rfl, -, -⟩ := traces_done.mp ends
    simp [Op.sent, differs]

end Attempts

namespace Busy
open scoped Chain

def node : DagNode :=
  { Chain.node "a" none with retryPolicy := some { maxRetries := 3, retryOn := some ["BUSY"] } }

def task : TaskFrame := { taskId := "one", dag := { nodes := [node] } }

def stored : InMemoryNopTaskStore :=
  (AList.insert "one" ⟨"one", task, .running, 0, none, ∅⟩ ∅ : Assoc String NopTaskRecord)

def error (tasks : InMemoryNopTaskStore) : StreamError :=
  match tasks.nodeOf "one" "a" with
  | some (some record) => if record.attemptCount = 1 then ⟨"BUSY", "busy"⟩ else ⟨"DOWN", "down"⟩
  | _ => ⟨"LOST", "lost"⟩

def handler (op : Op) (tasks : InMemoryNopTaskStore) : Answer op × InMemoryNopTaskStore :=
  match op with
  | .delegate frame => ((Chain.answering (some (error tasks)) (.delegate frame) ()).1, tasks)
  | op => Twice.handler op tasks

theorem handler_faithful (op : Op) (tasks : InMemoryNopTaskStore) :
    Beside "one" "a" op tasks (handler op tasks).1 (handler op tasks).2 := by
  refine ⟨tasks, _, rfl, ?_, rfl⟩
  cases op with
  | delegate frame => rfl
  | _ => exact Twice.handler_faithful _ tasks

def performed : List (Sigma Answer) :=
  (executeNodeWithRetry Chain.opts task node []).performed handler stored

def ran : NodeOutcome × InMemoryNopTaskStore :=
  (executeNodeWithRetry Chain.opts task node []).runWith handler stored

/-- The second attempt is the last one, and its error is recorded. -/
theorem down_recorded : (delegations performed).length = 2 ∧ ran.1.errorCode = some "DOWN" ∧
    ∃ subtaskId idempotencyKey attempts, Attempted Chain.opts task node subtaskId idempotencyKey []
      4 performed ran.1 attempts ∧ ∃ record, ran.2.nodeOf "one" "a" = some (some record) ∧
        RecordedAs ran.1 none record := by
  have traces : Traces (Beside task.taskId node.id) (executeNodeWithRetry Chain.opts task node [])
      stored performed ran.1 ran.2 := traces_runWith handler_faithful _ stored
  obtain ⟨subtaskId, idempotencyKey, -, attempted, -⟩ := node_retried traces
  obtain ⟨attempts, tried, recorded⟩ := attempted rfl
  exact ⟨rfl, rfl, subtaskId, idempotencyKey, attempts, tried, recorded none rfl⟩

end Busy
end Nps.Nop
