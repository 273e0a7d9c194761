import NpsSdk.Nop.GraphAcceptance
import NpsSdk.Nop.SchedulerLaw

/-! What a completed run of a graph says about its nodes: all have come to an end and no end node
has failed, unless the answers of the workers leave it open what becomes of a node. -/
namespace Nps.Nop
open Json (Value Fields)
open Interaction Prog

/-- Every node has come to an end, and no end node has failed. -/
structure Settled (dag : TaskDag) (states : NodeStates) : Prop where
  terminal : ∀ node ∈ dag.nodes, ∃ state, Json.get node.id states = some state ∧ state.isTerminal
  ends : ∀ id ∈ dag.endNodes, Json.get id states ≠ some .failed

/-- The nodes that have come back from their workers, in this order, with what became of them. -/
abbrev Answers := List (String × TaskState)

namespace DagNode

/-- So many of its dependencies have failed that a node cannot have as many as it needs. -/
def Lost (node : DagNode) (failed : List String) : Prop :=
  node.deps ≠ [] ∧ node.deps.length - node.deps.countP (· ∈ failed) < node.required

instance (node : DagNode) (failed : List String) : Decidable (node.Lost failed) :=
  inferInstanceAs (Decidable (_ ∧ _))

/-- How many dependencies of a node have succeeded. -/
def supplied (node : DagNode) (answers : Answers) : Nat :=
  node.deps.countP fun dep => (dep, .completed) ∈ answers ∨ (dep, .skipped) ∈ answers

end DagNode

/-- Failures are passed on to the nodes that they leave with too few dependencies. -/
def passOn (dag : TaskDag) (failed : List String) : List String :=
  failed ++ (dag.nodes.filter (·.Lost failed)).map DagNode.id

/-- The failures there are after these answers. With every answer those before it have been passed
on once: by one level of dependencies, however many levels there are. -/
def failuresAfter (dag : TaskDag) (answers : Answers) : List String :=
  answers.foldl (fun failed answer =>
    passOn dag failed ++ if answer.2 = .failed then [answer.1] else []) []

/-- The answers decide what becomes of a node: it can be started, or is failed with the last failures
there are. -/
def DagNode.Decided (node : DagNode) (dag : TaskDag) (answers : Answers) : Prop :=
  node.deps = [] ∨ node.required ≤ node.supplied answers ∨ node.Lost (failuresAfter dag answers)

instance (node : DagNode) (dag : TaskDag) (answers : Answers) : Decidable (node.Decided dag answers) :=
  inferInstanceAs (Decidable (_ ∨ _ ∨ _))

section Failures
variable {dag : TaskDag} {node : DagNode} {answers : Answers} {failed later : List String} {id : String}

theorem DagNode.Lost.mono (lost : node.Lost failed) (more : failed ⊆ later) : node.Lost later := by
  refine ⟨lost.1, lt_of_le_of_lt (Nat.sub_le_sub_left ?_ _) lost.2⟩
  exact List.countP_mono_left fun dep _ gone => by simpa using more (by simpa using gone)

theorem mem_passOn : id ∈ passOn dag failed ↔
    id ∈ failed ∨ ∃ node ∈ dag.nodes, node.id = id ∧ node.Lost failed := by
  simp only [passOn, List.mem_append, List.mem_map, List.mem_filter, decide_eq_true_eq]
  refine or_congr_right (exists_congr fun node => ?_)
  rw [and_assoc, and_comm (a := node.Lost failed)]

theorem failuresAfter_concat (answers : Answers) (answer : String × TaskState) :
    failuresAfter dag (answers ++ [answer]) = passOn dag (failuresAfter dag answers) ++
      if answer.2 = .failed then [answer.1] else [] := List.foldl_concat ..

/-- A node has failed itself, or was left with too few dependencies. -/
theorem mem_failuresAfter (member : id ∈ failuresAfter dag answers) : (id, .failed) ∈ answers ∨
    ∃ node ∈ dag.nodes, node.id = id ∧ node.Lost (failuresAfter dag answers) := by
  induction answers using List.reverseRecOn with
  | nil => cases member
  | append_singleton answers answer ih =>
    have more : failuresAfter dag answers ⊆ failuresAfter dag (answers ++ [answer]) := by
      intro other before
      rw [failuresAfter_concat]
      exact List.mem_append_left _ (mem_passOn.mpr (.inl before))
    have lost_later : (∃ node ∈ dag.nodes, node.id = id ∧ node.Lost (failuresAfter dag answers)) →
        ∃ node ∈ dag.nodes, node.id = id ∧ node.Lost (failuresAfter dag (answers ++ [answer])) :=
      fun ⟨node, there, same, lost⟩ => ⟨node, there, same, lost.mono more⟩
    rw [failuresAfter_concat] at member
    rcases List.mem_append.mp member with passed | own
    · rcases mem_passOn.mp passed with before | lost
      · exact (ih before).imp (List.mem_append_left _) lost_later
      · exact .inr (lost_later lost)
    · split_ifs at own with failed
      · obtain ⟨nodeId, state⟩ := answer
        cases List.mem_singleton.mp own
        cases failed
        exact .inl (List.mem_append_right _ List.mem_cons_self)
      · cases own

end Failures

/-- The states are what the answers and these failures have made of them. -/
structure Accounts (answers : Answers) (failed : List String) (states : NodeStates) : Prop where
  answered : ∀ id state, state ≠ .failed →
    (Json.get id states = some state ↔ (id, state) ∈ answers)
  failures : ∀ id, Json.get id states = some .failed ↔ id ∈ failed

section Accounting
variable {answers : Answers} {failed : List String} {states : NodeStates} {node : DagNode}

theorem Accounts.succeeded (accounts : Accounts answers failed states) (node : DagNode) :
    node.succeeded states = node.supplied answers := by
  refine List.countP_congr fun dep _ => ?_
  simp only [Bool.or_eq_true, decide_eq_true_eq]
  rw [accounts.answered dep _ (by decide), accounts.answered dep _ (by decide)]

theorem Accounts.failed_deps (accounts : Accounts answers failed states) (node : DagNode) :
    node.failed states = node.deps.countP (· ∈ failed) := by
  refine List.countP_congr fun dep _ => ?_
  simp only [decide_eq_true_eq]
  exact accounts.failures dep

theorem succeeded_add_failed (node : DagNode) (states : NodeStates) :
    node.succeeded states + node.failed states ≤ node.deps.length := by
  rw [List.length_eq_countP_add_countP (fun dep =>
    Json.get dep states = some .completed || Json.get dep states = some .skipped) (l := node.deps)]
  refine Nat.add_le_add_left (List.countP_mono_left fun dep _ gone => ?_) _
  simp [of_decide_eq_true gone]

theorem Accounts.unlost (accounts : Accounts answers failed states)
    (enough : node.required ≤ node.supplied answers) : ¬ node.Lost failed := by
  rintro ⟨-, few⟩
  have all := succeeded_add_failed node states
  rw [accounts.succeeded, accounts.failed_deps] at all
  omega

end Accounting

def LoopEnd.loop : LoopEnd → Loop
  | ended loop => loop
  | aborted loop _ _ => loop

theorem nodeIds_eq {dag : TaskDag} (distinct : (dag.nodes.map DagNode.id).Nodup) :
    dag.nodeIds = dag.nodes.map DagNode.id := distinct.dedup

theorem Loop.Sound.keys_distinct {dag : TaskDag} {loop : Loop} (sound : loop.Sound dag) :
    (loop.nodeStates.map Prod.fst).Nodup := sound.distinct.of_append_left

theorem Loop.Sound.subperm {dag : TaskDag} {loop : Loop} (sound : loop.Sound dag) :
    (loop.nodeStates.map Prod.fst).Subperm (dag.nodes.map DagNode.id) :=
  sound.keys_distinct.subperm fun id settled => sound.known id (List.mem_append_left _ settled)

theorem Loop.Sound.all_settled {dag : TaskDag} {loop : Loop} (sound : loop.Sound dag)
    (full : (dag.nodes.map DagNode.id).length ≤ loop.nodeStates.length) {node : DagNode}
    (member : node ∈ dag.nodes) : node.id ∈ loop.nodeStates.map Prod.fst :=
  (sound.subperm.perm_of_length_le (by simpa using full)).mem_iff.mpr (List.mem_map_of_mem member)

section Runs
variable [CharClasses] {opts : NopOrchestratorOptions} {task : TaskFrame}

variable (opts task) in
/-- A turn after which the loop goes on, whatever the workers answer and whichever node is done
first. -/
def Round (endNodeIds : List String) (loop : Loop) (_ : Unit) (next : Loop) : Prop :=
  Returns (round opts task endNodeIds loop) (.inl next)

variable (opts task) in
/-- Such a turn, told by the node that was done first. -/
def Answered (endNodeIds : List String) (loop : Loop) (answer : String × TaskState) (next : Loop) :
    Prop :=
  Round opts task endNodeIds loop () next ∧ ∃ passed outcome rest, Passed opts task loop passed ∧
    Finishes passed answer.1 outcome rest ∧ answer.2 = outcome.state ∧
    next = passed.settle rest answer.1 outcome

variable (opts task) in
/-- A run of the graph: the answers up to the last turn of its loop, the head of the loop at that
turn, what the turn came to, and the result of the task. -/
structure DagRun (topoOrder endNodeIds : List String) (answers : Answers) (head : Loop)
    (last : LoopEnd) (result : NopTaskResult) : Prop where
  order : endNodeIds.Perm task.dag.endNodes
  reached : Transition.Run (Answered opts task endNodeIds) {} answers head
  left : Returns (round opts task endNodeIds head) (.inr last)
  concluded : Returns (conclude opts task topoOrder endNodeIds last) result

variable {topoOrder endNodeIds : List String} {head next : Loop} {last : LoopEnd}
  {result : NopTaskResult}

theorem Round.sound (distinct : (task.dag.nodes.map DagNode.id).Nodup) {loop : Loop} {u : Unit}
    (turn : Round opts task endNodeIds loop u next) (sound : loop.Sound task.dag) :
    next.Sound task.dag ∧ loop.nodeStates.length < next.nodeStates.length := by
  rcases round_turn distinct turn with _ | _ | ⟨passed, finishes⟩ | _
  obtain ⟨sound', longer⟩ := finishes.sound (passed.sound distinct sound)
  refine ⟨sound', ?_⟩
  rw [longer, passed.states.length_eq, List.length_append]
  omega

theorem Round.answered (distinct : (task.dag.nodes.map DagNode.id).Nodup) {loop : Loop}
    (turn : Round opts task endNodeIds loop () next) :
    ∃ answer, Answered opts task endNodeIds loop answer next := by
  rcases round_turn distinct turn with _ | _ | ⟨passed, finishes⟩ | _
  exact ⟨(_, _), turn, _, _, _, passed, finishes, rfl, rfl⟩

theorem dagLoop_run (distinct : (task.dag.nodes.map DagNode.id).Nodup) {fuel : Nat} {loop : Loop}
    (sound : loop.Sound task.dag) (enough : task.dag.nodeIds.length < fuel + loop.nodeStates.length)
    (returns : Returns (dagLoop opts task endNodeIds fuel loop) last) :
    ∃ answers head, Transition.Run (Answered opts task endNodeIds) loop answers head ∧
      Returns (round opts task endNodeIds head) (.inr last) := by
  induction fuel generalizing loop with
  | zero =>
    have few := sound.subperm.length_le
    rw [← nodeIds_eq distinct, List.length_map] at few
    omega
  | succ fuel ih =>
    obtain ⟨out, turn, returns⟩ := returns_bind.mp returns
    cases out with
    | inl next =>
      have goes : Round opts task endNodeIds loop () next := turn
      obtain ⟨answer, answered⟩ := goes.answered distinct
      obtain ⟨sound', longer⟩ := goes.sound distinct sound
      obtain ⟨answers, head, run, left⟩ := ih sound' (by omega) returns
      exact ⟨answer :: answers, head, .next answered run, left⟩
    | inr out =>
      cases returns_done.mp returns
      exact ⟨[], loop, .refl _, turn⟩

/-- Every run of the program is a run in turns. -/
theorem runDag_run (distinct : (task.dag.nodes.map DagNode.id).Nodup)
    {s t : InMemoryNopTaskStore} (runs : Runs exec (runDag opts task topoOrder) s result t) :
    ∃ endNodeIds answers head last, DagRun opts task topoOrder endNodeIds answers head last result := by
  obtain ⟨endNodeIds, s₁, listed, rest⟩ := runs_bind.mp runs
  obtain ⟨last, s₂, looped, concluded⟩ := runs_bind.mp rest
  obtain ⟨answer, s₃, ⟨order, rfl⟩, same⟩ := runs_call.mp listed
  obtain ⟨rfl, rfl⟩ := runs_done.mp same
  obtain ⟨answers, head, run, left⟩ := dagLoop_run distinct (Loop.sound_start _) (by simp)
    looped.returns
  exact ⟨_, answers, head, last, order, run, left, concluded.returns⟩

omit [CharClasses] in
theorem conclude_completed (returns : Returns (conclude opts task topoOrder endNodeIds last) result)
    (completed : result.finalState = .completed) :
    ∃ loop, last = .ended loop ∧ ∀ id ∈ endNodeIds, Json.get id loop.nodeStates ≠ some .failed := by
  cases last with
  | aborted loop failedNodeId outcome =>
    obtain ⟨compensation, -, returns⟩ := returns_bind.mp returns
    cases returns_done.mp returns
    cases completed
  | ended loop =>
    refine ⟨loop, rfl, ?_⟩
    unfold conclude at returns
    dsimp only at returns
    split_ifs at returns with failed
    · obtain ⟨compensation, -, returns⟩ := returns_bind.mp returns
      cases returns_done.mp returns
      cases completed
    · intro id member lost
      refine failed ⟨?_, ?_⟩
      · have failing : (id, TaskState.failed) ∈ loop.nodeStates.filter (·.2 = .failed) :=
          List.mem_filter.mpr ⟨Json.mem_of_get lost, decide_eq_true rfl⟩
        exact List.ne_nil_of_mem (List.mem_map_of_mem failing)
      · exact List.any_eq_true.mpr ⟨id, member, by simpa using lost⟩

variable {answers : Answers} {loop passed : Loop} {node : DagNode}

variable (opts task) in
/-- What is kept of the answers so far. Nodes that were started had no dependencies, or enough. -/
structure Followed (answers : Answers) (loop : Loop) : Prop where
  sound : loop.Sound task.dag
  accounts : Accounts answers (failuresAfter task.dag answers) loop.nodeStates
  entitled : ∀ node ∈ task.dag.nodes, node.id ∈ loop.inFlight.map Prod.fst ++ answers.map Prod.fst →
    node.deps = [] ∨ node.required ≤ node.supplied answers
  room : opts.maxConcurrentNodes = 0 → answers = [] ∧ loop.inFlight = []

omit [CharClasses] in
theorem followed_start : Followed opts task [] {} where
  sound := Loop.sound_start _
  accounts := ⟨fun _ _ _ => ⟨nofun, nofun⟩, fun _ => ⟨nofun, nofun⟩⟩
  entitled := nofun
  room _ := ⟨rfl, rfl⟩

omit [CharClasses] in
/-- The nodes that a turn fails are those that the failures before it leave with too few
dependencies. -/
theorem Followed.failing_iff (followed : Followed opts task answers loop)
    (member : node ∈ task.dag.nodes) (unsettled : Json.get node.id loop.nodeStates = none) :
    node ∈ failing task loop ↔ node.Lost (failuresAfter task.dag answers) := by
  have all := succeeded_add_failed node loop.nodeStates
  have failed := followed.accounts.failed_deps node
  constructor
  · intro fails
    obtain ⟨ready, short⟩ := List.mem_filter.mp fails
    have done := (List.mem_filter.mp ready).2
    simp only [unsatisfiable, Bool.and_eq_true, decide_eq_true_eq] at short
    simp only [Bool.and_eq_true, areDepsDone, Bool.or_eq_true, decide_eq_true_eq] at done
    refine ⟨short.1, ?_⟩
    rw [← failed]
    rcases done.2 with (free | enough) | few
    · exact absurd free short.1
    · exact absurd short.2 (Nat.not_lt.mpr enough)
    · exact few
  · intro lost
    have few : node.deps.length - node.failed loop.nodeStates < node.required := by
      rw [failed]
      exact lost.2
    have grounded : node.id ∉ loop.inFlight.map Prod.fst := by
      intro flying
      rcases followed.entitled node member (List.mem_append_left _ flying) with free | enough
      · exact lost.1 free
      · exact followed.accounts.unlost enough lost
    refine List.mem_filter.mpr ⟨List.mem_filter.mpr ⟨member, ?_⟩, ?_⟩
    · simp only [unsettled, Option.isNone_none, grounded, not_false_eq_true, decide_true,
        Bool.true_and, areDepsDone, few, Bool.or_true]
    · have short : node.succeeded loop.nodeStates < node.required := by omega
      simp only [unsatisfiable, lost.1, ne_eq, not_false_eq_true, decide_true, short, Bool.and_self]

/-- A turn passes the failures on. -/
theorem Followed.pass (followed : Followed opts task answers loop)
    (distinct : (task.dag.nodes.map DagNode.id).Nodup) (turn : Passed opts task loop passed) :
    Accounts answers (passOn task.dag (failuresAfter task.dag answers)) passed.nodeStates := by
  have sound := turn.sound distinct followed.sound
  have states (id : String) (state : TaskState) : Json.get id passed.nodeStates = some state ↔
      (∃ node ∈ failing task loop, node.id = id ∧ state = .failed) ∨
        Json.get id loop.nodeStates = some state := by
    rw [Json.get_eq_some sound.keys_distinct, Json.get_eq_some followed.sound.keys_distinct,
      turn.states.mem_iff, List.mem_append, List.mem_map]
    simp only [Prod.mk.injEq, eq_comm]
  constructor
  · intro id state lives
    rw [states, ← followed.accounts.answered id state lives]
    refine or_iff_right ?_
    rintro ⟨-, -, -, failed⟩
    exact lives failed
  · intro id
    rw [states, followed.accounts.failures, mem_passOn]
    constructor
    · rintro (⟨node, fails, same, -⟩ | before)
      · have ready := (List.mem_filter.mp fails).1
        have member := (List.mem_filter.mp ready).1
        exact .inr ⟨node, member, same,
          (followed.failing_iff member (readyNodes_fresh ready).1).mp fails⟩
      · exact .inl before
    · rintro (before | ⟨node, member, rfl, lost⟩)
      · exact .inr before
      · cases settled : Json.get node.id loop.nodeStates with
        | none => exact .inl ⟨node, (followed.failing_iff member settled).mpr lost, rfl, rfl⟩
        | some state =>
          by_cases failed : state = .failed
          · rw [failed] at settled
            exact .inr ((followed.accounts.failures _).mp settled)
          · have known := (followed.accounts.answered _ _ failed).mp settled
            have started : node.id ∈ loop.inFlight.map Prod.fst ++ answers.map Prod.fst :=
              List.mem_append_right _ (List.mem_map_of_mem known)
            rcases followed.entitled node member started with free | enough
            · exact absurd free lost.1
            · exact absurd lost (followed.accounts.unlost enough)

theorem Followed.flying (followed : Followed opts task answers loop)
    (distinct : (task.dag.nodes.map DagNode.id).Nodup) (turn : Passed opts task loop passed)
    (member : node ∈ task.dag.nodes) (flying : node.id ∈ passed.inFlight.map Prod.fst) :
    node.deps = [] ∨ node.required ≤ node.supplied answers := by
  rw [turn.flights, launch, List.map_append, List.map_map] at flying
  rcases List.mem_append.mp flying with before | now
  · exact followed.entitled node member (List.mem_append_left _ before)
  · obtain ⟨other, started, same⟩ := List.mem_map.mp now
    obtain ⟨ready, satisfiable⟩ := List.mem_filter.mp (List.mem_of_mem_take started)
    cases List.inj_on_of_nodup_map distinct (List.mem_filter.mp ready).1 member same
    by_cases free : node.deps = []
    · exact .inl free
    · rw [← followed.accounts.succeeded]
      simp only [unsatisfiable, ne_eq, free, not_false_eq_true, decide_true, Bool.true_and,
        Bool.not_eq_true', decide_eq_false_iff_not, Nat.not_lt] at satisfiable
      exact .inr satisfiable

theorem Followed.step {answer : String × TaskState} (followed : Followed opts task answers loop)
    (distinct : (task.dag.nodes.map DagNode.id).Nodup)
    (answered : Answered opts task endNodeIds loop answer next) :
    Followed opts task (answers ++ [answer]) next := by
  obtain ⟨nodeId, state⟩ := answer
  obtain ⟨-, passed, outcome, rest, turn, finishes, same, rfl⟩ := answered
  dsimp only at finishes same
  subst same
  have sound := turn.sound distinct followed.sound
  have accounts := followed.pass distinct turn
  obtain ⟨fresh, -⟩ := finishes.states_perm sound
  have flying : nodeId ∈ passed.inFlight.map Prod.fst :=
    (finishes.spec sound).1.mem_iff.mp List.mem_cons_self
  refine ⟨(finishes.sound sound).1, ⟨fun id state lives => ?_, fun id => ?_⟩, fun node member own => ?_,
    fun none_ => ?_⟩
  · change Json.get id (Json.insert nodeId outcome.state passed.nodeStates) = some state ↔ _
    rw [List.mem_append, List.mem_singleton, Prod.mk.injEq, ← accounts.answered id state lives]
    by_cases own : id = nodeId
    · subst own
      rw [Json.get_insert_self, fresh]
      simp [eq_comm]
    · rw [Json.get_insert_ne own]
      simp [own]
  · change Json.get id (Json.insert nodeId outcome.state passed.nodeStates) = some .failed ↔ _
    rw [failuresAfter_concat, List.mem_append, ← accounts.failures]
    by_cases own : id = nodeId
    · subst own
      rw [Json.get_insert_self, fresh]
      by_cases failed : outcome.state = .failed <;> simp [failed]
    · rw [Json.get_insert_ne own]
      by_cases failed : outcome.state = .failed <;> simp [failed, own]
  · have more : node.supplied answers ≤ node.supplied (answers ++ [(nodeId, outcome.state)]) := by
      refine List.countP_mono_left fun dep _ succeeded => ?_
      simp only [decide_eq_true_eq] at succeeded ⊢
      exact succeeded.imp (List.mem_append_left _) (List.mem_append_left _)
    refine Or.imp_right more.trans' ?_
    rw [List.map_append, ← List.append_assoc, List.mem_append, List.mem_append] at own
    rcases own with (flew | known) | now
    · refine followed.flying distinct turn member ?_
      exact (finishes.spec sound).1.mem_iff.mp (List.mem_cons_of_mem _ flew)
    · exact followed.entitled node member (List.mem_append_right _ known)
    · refine followed.flying distinct turn member ?_
      rw [List.mem_singleton.mp now]
      exact flying
  · have empty : passed.inFlight = [] := by
      rw [turn.flights, launch, none_, (followed.room none_).2]
      simp
    rw [empty] at flying
    cases flying

theorem run_followed (distinct : (task.dag.nodes.map DagNode.id).Nodup)
    (run : Transition.Run (Answered opts task endNodeIds) {} answers head) :
    Followed opts task answers head := by
  refine (run.recorded []).invariant (P := fun s => Followed opts task s.2 s.1) ?_ followed_start
  rintro ⟨loop, before⟩ answer ⟨next, after⟩ followed ⟨turn, same⟩
  dsimp only at turn same followed ⊢
  rw [same]
  exact followed.step distinct turn

omit [CharClasses] in
/-- Where the loop runs until every node has settled, no node is left behind. -/
theorem settled_of_full (distinct : (task.dag.nodes.map DagNode.id).Nodup)
    (sound : head.Sound task.dag) (full : task.dag.nodeIds.length ≤ head.nodeStates.length)
    (member : node ∈ task.dag.nodes) :
    ∃ state, Json.get node.id head.nodeStates = some state ∧ state.isTerminal := by
  rw [nodeIds_eq distinct] at full
  obtain ⟨⟨id, state⟩, settled, rfl⟩ := List.mem_map.mp (sound.all_settled full member)
  exact ⟨state, (Json.get_eq_some sound.keys_distinct).mpr settled, sound.terminal _ settled⟩

omit [CharClasses] in
/-- A node that has come to an end was decided on by the answers. -/
theorem Followed.decided (followed : Followed opts task answers loop)
    (distinct : (task.dag.nodes.map DagNode.id).Nodup) {failed : List String} {states : NodeStates}
    (accounts : Accounts answers failed states)
    (passed : failed ⊆ passOn task.dag (failuresAfter task.dag answers))
    (member : node ∈ task.dag.nodes) {state : TaskState}
    (settled : Json.get node.id states = some state) : node.Decided task.dag answers := by
  have started (state : TaskState) (known : (node.id, state) ∈ answers) :
      node.Decided task.dag answers :=
    (followed.entitled node member (List.mem_append_right _ (List.mem_map_of_mem known))).imp_right
      .inl
  have lost (gone : ∃ other ∈ task.dag.nodes, other.id = node.id ∧
      other.Lost (failuresAfter task.dag answers)) : node.Decided task.dag answers := by
    obtain ⟨other, there, same, lost⟩ := gone
    cases List.inj_on_of_nodup_map distinct there member same
    exact .inr (.inr lost)
  by_cases fails : state = .failed
  · subst fails
    rcases mem_passOn.mp (passed ((accounts.failures _).mp settled)) with before | gone
    · exact (mem_failuresAfter before).elim (started _) lost
    · exact lost gone
  · exact started state ((accounts.answered _ _ fails).mp settled)

/-- Where the loop ends with nothing in flight, every node that was decided on has come to an end. -/
theorem Followed.settles (followed : Followed opts task answers loop)
    (distinct : (task.dag.nodes.map DagNode.id).Nodup) (turn : Passed opts task loop passed)
    (idle : passed.inFlight = []) (room : opts.maxConcurrentNodes ≠ 0) (member : node ∈ task.dag.nodes)
    (decided : node.Decided task.dag answers) :
    ∃ state, Json.get node.id passed.nodeStates = some state ∧ state.isTerminal := by
  have sound := turn.sound distinct followed.sound
  have grounded : loop.inFlight = [] ∧ started opts task loop = [] := by
    rw [turn.flights, launch, List.append_eq_nil_iff, List.map_eq_nil_iff] at idle
    exact idle
  have unstarted : startable task loop = [] := by
    have none_ := grounded.2
    rw [started, grounded.1, List.take_eq_nil_iff] at none_
    exact none_.resolve_left room
  suffices settled : ∃ state, (node.id, state) ∈ passed.nodeStates by
    obtain ⟨state, settled⟩ := settled
    exact ⟨state, (Json.get_eq_some sound.keys_distinct).mpr settled, sound.terminal _ settled⟩
  cases pending : Json.get node.id loop.nodeStates with
  | some state =>
    exact ⟨state, turn.states.mem_iff.mpr (List.mem_append_right _ (Json.mem_of_get pending))⟩
  | none =>
    by_cases fails : node ∈ failing task loop
    · exact ⟨.failed, turn.states.mem_iff.mpr (List.mem_append_left _ (List.mem_map_of_mem fails))⟩
    · -- a node that is not failed could be started, and there is room
      have free : node.deps = [] ∨ node.required ≤ node.succeeded loop.nodeStates := by
        rw [followed.accounts.succeeded]
        rw [followed.failing_iff member pending] at fails
        exact decided.imp_right fun rest => rest.resolve_right fails
      have startable : node ∈ startable task loop := by
        refine List.mem_filter.mpr ⟨List.mem_filter.mpr ⟨member, ?_⟩, ?_⟩
        · rw [pending, grounded.1]
          rcases free with free | enough
          · simp [areDepsDone, free]
          · simp [areDepsDone, enough]
        · rcases free with free | enough
          · simp [unsatisfiable, free]
          · simp [unsatisfiable, enough]
      rw [unstarted] at startable
      cases startable

/-- A completed run has settled all nodes, with no end node failed, exactly if a node may be started
at all and the answers decide what becomes of every node. -/
theorem completed_iff (valid : validateDag task.dag = .ok topoOrder)
    (run : DagRun opts task topoOrder endNodeIds answers head last result)
    (completed : result.finalState = .completed) :
    Settled task.dag last.loop.nodeStates ↔ opts.maxConcurrentNodes ≠ 0 ∧
      ∀ node ∈ task.dag.nodes, node.Decided task.dag answers := by
  have distinct := validateDag_nodup valid
  have followed := run_followed distinct run.reached
  obtain ⟨loop, rfl, ends⟩ := conclude_completed run.concluded completed
  change Settled task.dag loop.nodeStates ↔ _
  have unfailed : ∀ id ∈ task.dag.endNodes, Json.get id loop.nodeStates ≠ some .failed :=
    fun id member => ends id (run.order.mem_iff.mpr member)
  obtain ⟨failed, few, accounts, settles⟩ : ∃ failed,
      failed ⊆ passOn task.dag (failuresAfter task.dag answers) ∧
      Accounts answers failed loop.nodeStates ∧
      (opts.maxConcurrentNodes ≠ 0 → ∀ node ∈ task.dag.nodes, node.Decided task.dag answers →
        ∃ state, Json.get node.id loop.nodeStates = some state ∧ state.isTerminal) := by
    rcases round_turn distinct run.left with full | ⟨-, passed, idle⟩ | _ | _
    · exact ⟨_, fun id before => mem_passOn.mpr (.inl before), followed.accounts,
        fun _ node member _ => settled_of_full distinct followed.sound full member⟩
    · exact ⟨_, List.Subset.refl _, followed.pass distinct passed,
        fun room node member => followed.settles distinct passed idle room member⟩
  constructor
  · intro settled
    refine ⟨fun none_ => ?_, fun node member => ?_⟩
    · -- an end node has come back from its worker
      obtain ⟨node, member, last⟩ := ((accepted_iff task.dag).mp ⟨_, valid⟩).1.finish
      obtain ⟨state, found, -⟩ := settled.terminal node member
      have isEnd : node.id ∈ task.dag.endNodes := by
        refine List.mem_filter.mpr ⟨List.mem_dedup.mpr (List.mem_map_of_mem member), ?_⟩
        simpa using last
      have lives : state ≠ .failed := fun failed => unfailed _ isEnd (failed ▸ found)
      have known := (accounts.answered _ _ lives).mp found
      rw [(followed.room none_).1] at known
      cases known
    · obtain ⟨state, found, -⟩ := settled.terminal node member
      exact followed.decided distinct accounts few member found
  · rintro ⟨room, decided⟩
    exact ⟨fun node member => settles room node member (decided node member), unfailed⟩

end Runs

namespace Chain

scoped instance charClasses : CharClasses := .ascii

def opts : NopOrchestratorOptions := { maxConcurrentNodes := 4 }

def node (id : String) (inputFrom : Option (List String)) : DagNode :=
  { id, action := "nwp://worker/run", agent := "urn:nps:agent:worker", inputFrom }

def single : TaskFrame := { taskId := "one", dag := { nodes := [node "a" none] }, maxRetries := 0 }

def chain : TaskFrame where
  taskId := "three"
  dag := {
    nodes := [node "a" none, node "b" (some ["a"]), node "c" (some ["b"])]
    edges := [⟨"a", "b"⟩, ⟨"b", "c"⟩] }
  maxRetries := 0

def answering (error : Option StreamError) : (op : Op) → Unit → Answer op × Unit
  | .get _, _ => (none, ())
  | .save _, _ => (.ok (), ())
  | .updateState _ _, _ => ((), ())
  | .updateSubtask _ _ _ _ _, _ => ((), ())
  | .newUuid, _ => ("id", ())
  | .nowMs, _ => (0, ())
  | .sleep _, _ => ((), ())
  | .delegate frame, _ =>
    (⟨[{ seq := 0, isFinal := true, senderNid := frame.targetAgentNid, error }], false⟩, ())
  | .preflight agentNid _ _ _, _ => (⟨agentNid, true, none⟩, ())
  | .timeUp _, _ => (false, ())
  | .choose, _ => ([], ())
  | .iterate keys, _ => (keys, ())
  | .post _ _ _, _ => (true, ())

/-- Surroundings in which one worker is down, and the others complete what they are given. -/
def oneDown : (op : Op) → Unit → Answer op × Unit
  | .delegate frame, s =>
    answering (if frame.targetAgentNid = "urn:nps:agent:down" then some ⟨"AGENT-DOWN", "down"⟩ else none)
      (.delegate frame) s
  | op, s => answering none op s

theorem returns_computed {α : Type} {p : Program α} {a : α} (handler : (op : Op) → Unit → Answer op × Unit)
    (computed : (p.runWith handler ()).1 = a) : Returns p a := by
  subst computed
  exact runs_runWith (fun _ _ => trivial) p ()

/-- A node that needs one of two others, and another one upstream of the second. -/
def join : TaskFrame where
  taskId := "join"
  dag := {
    nodes := [{ node "a" none with agent := "urn:nps:agent:down" }, node "b" none, node "c" (some ["a"]),
      { node "join" (some ["b", "c"]) with minRequired := 1 }]
    edges := [⟨"a", "c"⟩, ⟨"b", "join"⟩, ⟨"c", "join"⟩] }
  maxRetries := 0

def turn (loop : Loop) : Loop :=
  ((round opts join ["join"] loop).runWith oneDown ()).1.elim id fun _ => loop

def passing (loop : Loop) (states : NodeStates) : Loop where
  nodeStates := states
  nodeResults := loop.nodeResults
  inFlight := launch opts join loop (startable join loop)

/-- One worker is down: the node upstream fails, and with the next answer the one that waits for it.
The join has what it needs of the other, and all nodes come to an end. -/
theorem join_settled : ∃ last, Settled join.dag last ∧
    last = [("a", .failed), ("b", .completed), ("c", .failed), ("join", .completed)] := by
  have first : Answered opts join ["join"] {} ("a", .failed) (turn {}) :=
    ⟨returns_computed oneDown rfl, passing {} [], _, _, ⟨.refl _, rfl, rfl⟩,
      ⟨[], returns_computed oneDown rfl⟩, rfl, rfl⟩
  have second : Answered opts join ["join"] (turn {}) ("b", .completed) (turn (turn {})) :=
    ⟨returns_computed oneDown rfl, passing (turn {}) [("a", .failed), ("c", .failed)], _, _,
      ⟨.swap .., rfl, rfl⟩, ⟨[], returns_computed oneDown rfl⟩, rfl, rfl⟩
  have third : Answered opts join ["join"] (turn (turn {})) ("join", .completed)
      (turn (turn (turn {}))) :=
    ⟨returns_computed oneDown rfl, passing (turn (turn {})) (turn (turn {})).nodeStates, _, _,
      ⟨.refl _, rfl, rfl⟩, ⟨[], returns_computed oneDown rfl⟩, rfl, rfl⟩
  have run : DagRun opts join ["a", "b", "c", "join"] ["join"]
      [("a", .failed), ("b", .completed), ("join", .completed)] (turn (turn (turn {})))
      (.ended (turn (turn (turn {})))) _ :=
    ⟨.refl _, .next first (.next second (.single third)), returns_computed oneDown rfl,
      returns_computed oneDown rfl⟩
  exact ⟨_, (completed_iff rfl run rfl).mpr ⟨by decide, by decide⟩, rfl⟩

/-- The second node is failed with nothing in flight, and the third is never looked at again. -/
theorem abandoned : ∃ head last result, validateDag chain.dag = .ok ["a", "b", "c"] ∧
    DagRun opts chain ["a", "b", "c"] ["c"] [("a", .failed)] head last result ∧
    result.finalState = .completed ∧ ¬ Settled chain.dag last.loop.nodeStates := by
  let down := answering (some ⟨"AGENT-DOWN", "down"⟩)
  have turn : Answered opts chain ["c"] {} ("a", .failed) { nodeStates := [("a", .failed)] } :=
    ⟨returns_computed down rfl, { inFlight := launch opts chain {} (startable chain {}) }, _, _,
      ⟨.refl _, rfl, rfl⟩, ⟨[], returns_computed down rfl⟩, rfl, rfl⟩
  have run : DagRun opts chain ["a", "b", "c"] ["c"] [("a", .failed)] { nodeStates := [("a", .failed)] }
      (.ended { nodeStates := [("a", .failed), ("b", .failed)] })
      (.success "three" (some (.object [])) [] none) :=
    ⟨.refl _, .single turn, returns_computed down rfl, returns_computed down rfl⟩
  refine ⟨_, _, _, rfl, run, rfl, fun settled => ?_⟩
  obtain ⟨state, found, -⟩ := settled.terminal (node "c" (some ["b"])) (by simp [chain])
  cases found

end Chain
end Nps.Nop
