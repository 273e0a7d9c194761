import NpsSdk.Nop.PortableProfile.OrchestrationLaw

/-! The evaluation of a portable task as a whole, node after node in the order of the topology. -/
namespace Nps.Nop.PortableProfile
open Json Outcome Precedence

section Run
variable {task : Value} {nodes : Fields} {topo done : List String} {id : String}
  {node : Value} {t t' : Transcript} {report : Report}

/-- What holds between two nodes, of those that are through and of the others. -/
structure Kept (task : Value) (nodes : Fields) (done : List String) (t : Transcript) : Prop where
  lawful : Lawful task nodes t.events t.attempts
  fresh : ∀ id ∉ done, ∀ number, .attempt id number ∉ t.events
  through : ∀ id ∈ done, Through t.events id
  settled : ∀ id ∈ done, get id t.states = some .completed ∨ get id t.states = some .skipped
  waiting : ∀ id ∉ done, get id t.states = none

structure Fair (task : Value) (nodes : Fields) (report : Report) : Prop where
  lawful : Lawful task nodes report.events report.attempts
  completed_iff : report.state = .completed ↔ ∀ id ∈ nodeIds nodes,
    get id report.states = some .completed ∨ get id report.states = some .skipped

theorem Allowed.zero : Allowed task nodes id 0 := fun _ _ => Nat.zero_le _

theorem Fair.unfinished (lawful : Lawful task nodes report.events report.attempts)
    (ended : report.state ≠ .completed) (known : id ∈ nodeIds nodes)
    (undone : get id report.states ≠ some .completed ∧ get id report.states ≠ some .skipped) :
    Fair task nodes report :=
  ⟨lawful, fun completed => absurd completed ended, fun all =>
    absurd (all id known) (not_or.mpr undone)⟩

/-- One more node is through. -/
theorem Kept.advance {new : List Event} {count : Nat} {word : Word} (kept : Kept task nodes done t)
    (undone : id ∉ done) (ready : ∀ dependency, (dependency, id) ∈ edges nodes → dependency ∈ done)
    (own : ∀ other number, .attempt other number ∈ new →
      other = id ∧ Allowed task nodes id number ∧ new.count (.attempt id number) = 1)
    (allowed : Allowed task nodes id count) (ends : word = .completed ∨ word = .skipped)
    (said : .node id word ∈ new) (events : t'.events = t.events ++ new)
    (states : t'.states = insert id word t.states) (attempts : t'.attempts = insert id count t.attempts) :
    Kept task nodes (done ++ [id]) t' := by
  constructor
  · rw [events, attempts]
    exact kept.lawful.append (kept.fresh id undone)
      (fun dependency edge => kept.through dependency (ready dependency edge)) own allowed
  · intro other outside number member
    rw [events] at member
    simp only [List.mem_append, List.mem_singleton, not_or] at outside
    rcases List.mem_append.mp member with early | late
    · exact kept.fresh other outside.1 number early
    · exact outside.2 (own other number late).1
  · intro other member
    rw [events]
    rcases List.mem_append.mp member with old | same
    · exact (kept.through other old).append new
    · obtain rfl := List.mem_singleton.mp same
      rcases ends with rfl | rfl
      · exact .inl (List.mem_append_right _ said)
      · exact .inr (List.mem_append_right _ said)
  · intro other member
    rw [states]
    by_cases same : other = id
    · rw [same, get_insert_self]
      exact ends.imp (congrArg some) (congrArg some)
    · rw [get_insert_ne same]
      refine kept.settled other ((List.mem_append.mp member).resolve_right ?_)
      simpa using same
  · intro other outside
    simp only [List.mem_append, List.mem_singleton, not_or] at outside
    rw [states, get_insert_ne outside.2]
    exact kept.waiting other outside.1

theorem Kept.skip (kept : Kept task nodes done t) (undone : id ∉ done)
    (ready : ∀ dependency, (dependency, id) ∈ edges nodes → dependency ∈ done) :
    Kept task nodes (done ++ [id]) (t.settle id .skipped) :=
  have own : ∀ other number, .attempt other number ∈ [Event.node id .skipped] → other = id ∧
      Allowed task nodes id number ∧ [Event.node id .skipped].count (.attempt id number) = 1 := by simp
  kept.advance undone ready own Allowed.zero (.inr rfl) (by simp) rfl rfl rfl

theorem Kept.fail (kept : Kept task nodes done t) (undone : id ∉ done) (known : id ∈ nodeIds nodes)
    (ready : ∀ dependency, (dependency, id) ∈ edges nodes → dependency ∈ done)
    (error : Option String) : Fair task nodes ((t.settle id .failed).report .failed error) := by
  have failed : Lawful task nodes (t.events ++ [.node id .failed]) (insert id 0 t.attempts) :=
    kept.lawful.append (kept.fresh id undone)
      (fun dependency edge => kept.through dependency (ready dependency edge)) (by simp) Allowed.zero
  refine .unfinished (failed.quiet (by simp [Quiet])) (by simp [Transcript.report]) known ?_
  simp [Transcript.report, Transcript.settle]

theorem Kept.cancel (kept : Kept task nodes done t) (undone : id ∉ done) (known : id ∈ nodeIds nodes)
    (error : Option String) : Fair task nodes (t.report .cancelled error) := by
  refine .unfinished (kept.lawful.quiet (by simp [Quiet])) (by simp [Transcript.report]) known ?_
  simp [Transcript.report, kept.waiting id undone]

def scriptedResult (task node : Value) : Option Value :=
  answer node ((scriptedAttempts node).take (maxRetries task node + 1))

theorem attemptNode_overflow (limit : ¬ maxRetries task node + 1 < 2 ^ 64) :
    attemptNode task nodes topo id node t = .error .addition := by
  unfold attemptNode
  simp only [addUsize, if_neg limit, error_bind]

/-- The attempts at a node take the task on, or end it. -/
theorem attemptNode_spec (ordered : Ordered nodes topo) (kept : Kept task nodes done t)
    (undone : id ∉ done) (found : get id nodes = some node)
    (ready : ∀ dependency, (dependency, id) ∈ edges nodes → dependency ∈ done)
    (limit : maxRetries task node + 1 < 2 ^ 64) :
    (∀ result, scriptedResult task node = some result →
      ∃ t', attemptNode task nodes topo id node t = .ok (.next t') ∧
        Kept task nodes (done ++ [id]) t' ∧ t'.results = insert id result t.results) ∧
    (scriptedResult task node = none →
      ∃ report, attemptNode task nodes topo id node t = .ok (.stop report) ∧
        Fair task nodes report) := by
  have known : id ∈ nodeIds nodes := List.mem_map_of_mem (mem_of_get found)
  obtain ⟨after, run, concluded⟩ := tryOutcomes_spec id node (maxRetries task node)
    (scriptedAttempts node).length ((scriptedAttempts node).take (maxRetries task node + 1))
    { count := 0 } (by rw [List.length_take, Nat.zero_add]) limit rfl
  obtain ⟨new, events, attempts, completes⟩ := concluded.events
  have allowed (number : Nat) (most : number ≤ after.count) : Allowed task nodes id number := by
    intro other same
    obtain rfl := Option.some.inj (found.symm.trans same)
    exact most.trans concluded.most
  have own : ∀ other number, .attempt other number ∈ new →
      other = id ∧ Allowed task nodes id number ∧ new.count (.attempt id number) = 1 := by
    intro other number member
    rcases attempts.1 _ member with ⟨word, same⟩ | ⟨number', same, -, most⟩
    · cases same
    · cases same
      refine ⟨rfl, allowed number most, le_antisymm (attempts.2 number) ?_⟩
      exact List.count_pos_iff.mpr member
  have started : addUsize (maxRetries task node) 1 = .ok (maxRetries task node + 1) := if_pos limit
  rw [List.nil_append] at events
  constructor
  · intro result answered
    have resulted : after.result = some result := concluded.result.trans answered
    refine ⟨{
      t with
      events := t.events ++ after.events
      attempts := insert id after.count t.attempts
      results := insert id result t.results
      states := insert id .completed t.states }, ?_, ?_, rfl⟩
    · unfold attemptNode
      simp only [started, run, ok_bind, resulted, pure_eq]
    · exact kept.advance undone ready own (allowed _ le_rfl) (.inl rfl) (completes (by simp [resulted]))
        (by rw [events]) rfl rfl
  · intro unanswered
    have resulted : after.result = none := concluded.result.trans unanswered
    obtain ⟨undo, compensated, effect⟩ := compensate_spec task
      (if after.failed then insert id .failed t.states else t.states) (t.events ++ after.events)
      ordered known
    obtain ⟨quiet, said, silent⟩ := effect.events
    refine ⟨{
      events := undo.events ++ [.task .failed]
      state := .failed
      error := some ((undo.error.or after.error).getD ErrorCodes.delegateRejected)
      states := undo.states
      attempts := insert id after.count t.attempts
      mapped := t.mapped
      compensation := undo.order }, ?_, ?_⟩
    · unfold attemptNode
      simp only [started, run, ok_bind, resulted, pure_eq, compensated]
    · have tried : Lawful task nodes (t.events ++ new) (insert id after.count t.attempts) :=
        kept.lawful.append (kept.fresh id undone)
          (fun dependency edge => kept.through dependency (ready dependency edge)) own (allowed _ le_rfl)
      have state : get id (if after.failed then insert id .failed t.states else t.states) ≠
          some .completed ∧ get id (if after.failed then insert id .failed t.states else t.states) ≠
          some .skipped := by
        split
        · simp
        · simp [kept.waiting id undone]
      refine .unfinished ?_ (by simp) known ⟨fun same => ?_, fun same => ?_⟩
      · dsimp only
        rw [said, events]
        exact (tried.quiet silent).quiet (by simp [Quiet])
      · exact state.1 (effect.completed id same)
      · exact state.2 (effect.skipped id same)

end Run

/-- The nodes that get as far as their attempts: the condition of each holds and its parameters are
found in the results so far, and every node before it is skipped or has a result. -/
def reached [Nip.Serde] (task : Value) (nodes : Fields) : List String → Fields → List String
  | [], _ => []
  | id :: rest, results =>
    if stringValue task "cancel_before" = some id then []
    else match get id nodes with
    | none => []
    | some node =>
      match conditionHolds node results, mappedParameters node results with
      | some false, _ => reached task nodes rest results
      | some true, some _ =>
        match scriptedResult task node with
        | some result => id :: reached task nodes rest (insert id result results)
        | none => [id]
      | _, _ => []

/-- One more than the retry limit of each of the nodes can be counted. -/
def Countable (task : Value) (nodes : Fields) (ids : List String) : Prop :=
  ∀ id ∈ ids, ∀ node, get id nodes = some node → maxRetries task node + 1 < 2 ^ 64

theorem countable_cons {task node : Value} {nodes : Fields} {id : String} {rest : List String}
    (found : get id nodes = some node) : Countable task nodes (id :: rest) ↔
    maxRetries task node + 1 < 2 ^ 64 ∧ Countable task nodes rest := by
  simp [Countable, found]

section Run
variable [Nip.Serde] {task : Value} {nodes : Fields} {topo : List String}

variable (task nodes topo) in
/-- The run ends in a fair report exactly when no retry limit on its way is too great. -/
structure RunsFairly (rest : List String) (t : Transcript) : Prop where
  fair : Countable task nodes (reached task nodes rest t.results) →
    ∃ report, runNodes task nodes topo rest t = .ok report ∧ Fair task nodes report
  overflow : ¬ Countable task nodes (reached task nodes rest t.results) →
    runNodes task nodes topo rest t = .error .addition

section Step
variable {rest : List String} {id : String} {node : Value} {t t' : Transcript} {report : Report}

theorem runNodes_stop (step : runNode task nodes topo id t = .ok (.stop report)) :
    runNodes task nodes topo (id :: rest) t = .ok report := by
  unfold runNodes
  rw [step]
  rfl

theorem runNodes_next (step : runNode task nodes topo id t = .ok (.next t')) :
    runNodes task nodes topo (id :: rest) t = runNodes task nodes topo rest t' := by
  rw [runNodes, step]
  rfl

theorem RunsFairly.stop (step : runNode task nodes topo id t = .ok (.stop report))
    (fair : Fair task nodes report) (unreached : reached task nodes (id :: rest) t.results = []) :
    RunsFairly task nodes topo (id :: rest) t := by
  refine ⟨fun _ => ⟨report, runNodes_stop step, fair⟩, fun uncountable => absurd ?_ uncountable⟩
  simp [Countable, unreached]

theorem runNode_cancel (read : nodeAt nodes id = .ok node)
    (cancelled : stringValue task "cancel_before" = some id) :
    runNode task nodes topo id t =
      .ok (.stop (t.report .cancelled (some ErrorCodes.taskCancelled))) := by
  unfold runNode
  simp only [read, ok_bind, if_pos cancelled, pure_eq]

theorem runNode_unevaluable (read : nodeAt nodes id = .ok node)
    (on : stringValue task "cancel_before" ≠ some id) (condition : conditionHolds node t.results = none) :
    runNode task nodes topo id t = .ok (failNode id ErrorCodes.conditionEvalError t) := by
  unfold runNode
  simp only [read, ok_bind, if_neg on, condition, pure_eq]

theorem runNode_skip (read : nodeAt nodes id = .ok node)
    (on : stringValue task "cancel_before" ≠ some id)
    (condition : conditionHolds node t.results = some false) :
    runNode task nodes topo id t = .ok (.next (t.settle id .skipped)) := by
  unfold runNode
  simp only [read, ok_bind, if_neg on, condition, pure_eq]

theorem runNode_unmapped (read : nodeAt nodes id = .ok node)
    (on : stringValue task "cancel_before" ≠ some id)
    (condition : conditionHolds node t.results = some true)
    (mapped : mappedParameters node t.results = none) :
    runNode task nodes topo id t = .ok (failNode id ErrorCodes.inputMappingError t) := by
  unfold runNode
  simp only [read, ok_bind, if_neg on, condition, mapped, pure_eq]

theorem runNode_attempt (topo : List String) {parameters : Option Fields} (read : nodeAt nodes id = .ok node)
    (on : stringValue task "cancel_before" ≠ some id)
    (condition : conditionHolds node t.results = some true)
    (mapped : mappedParameters node t.results = some parameters) :
    ∃ t', runNode task nodes topo id t = attemptNode task nodes topo id node t' ∧
      t'.results = t.results ∧ ∀ done, Kept task nodes done t → Kept task nodes done t' := by
  unfold runNode
  simp only [read, ok_bind, if_neg on, condition, mapped]
  cases parameters with
  | none => exact ⟨t, rfl, rfl, fun _ kept => kept⟩
  | some parameters =>
    exact ⟨_, rfl, rfl, fun _ kept =>
      ⟨kept.lawful, kept.fresh, kept.through, kept.settled, kept.waiting⟩⟩

end Step

theorem runNodes_spec (ordered : Ordered nodes topo) (distinct : topo.Nodup) (rest : List String) :
    ∀ done t, topo = done ++ rest → Kept task nodes done t → RunsFairly task nodes topo rest t := by
  induction rest with
  | nil =>
    intro done t whole kept
    rw [List.append_nil] at whole
    refine ⟨fun _ => ⟨_, rfl, ?_, ?_⟩, fun uncountable => absurd ?_ uncountable⟩
    · exact kept.lawful.quiet (by simp [Quiet])
    · refine ⟨fun _ id known => kept.settled id ?_, fun _ => rfl⟩
      exact whole ▸ ordered.all.mem_iff.mpr known
    · simp [Countable, reached]
  | cons id rest ih =>
    intro done t whole kept
    have apart := List.nodup_middle.mp (whole ▸ distinct)
    obtain ⟨undone, unseen⟩ := not_or.mp (mt List.mem_append.mpr (List.nodup_cons.mp apart).1)
    have member : id ∈ topo := whole ▸ List.mem_append_right _ List.mem_cons_self
    have known : id ∈ nodeIds nodes := ordered.all.mem_iff.mp member
    have whole' : topo = done ++ [id] ++ rest := by rw [whole, List.append_assoc, List.singleton_append]
    have ready : ∀ dependency, (dependency, id) ∈ edges nodes → dependency ∈ done := by
      intro dependency edge
      obtain ⟨front, back, same, early⟩ := before_iff.mp (ordered.before dependency id edge)
      obtain ⟨rfl, -⟩ := (List.append_cons_inj_of_notMem undone unseen).mp (whole.symm.trans same)
      exact early
    obtain ⟨node, found, read⟩ := nodeAt_ok known
    by_cases cancelled : stringValue task "cancel_before" = some id
    · refine .stop (runNode_cancel read cancelled) (kept.cancel undone known _) ?_
      rw [reached, if_pos cancelled]
    cases condition : conditionHolds node t.results with
    | none =>
      refine .stop (runNode_unevaluable read cancelled condition) (kept.fail undone known ready _) ?_
      simp only [reached, if_neg cancelled, found, condition]
    | some holds =>
      cases holds with
      | false =>
        have step : runNode task nodes topo id t = .ok (.next (t.settle id .skipped)) :=
          runNode_skip read cancelled condition
        have skips : reached task nodes (id :: rest) t.results = reached task nodes rest t.results := by
          simp only [reached, if_neg cancelled, found, condition]
        have later := ih (done ++ [id]) _ whole' (kept.skip undone ready)
        constructor
        · rw [skips, runNodes_next step]
          exact later.fair
        · rw [skips, runNodes_next step]
          exact later.overflow
      | true =>
        cases mapped : mappedParameters node t.results with
        | none =>
          refine .stop (runNode_unmapped read cancelled condition mapped)
            (kept.fail undone known ready _) ?_
          simp only [reached, if_neg cancelled, found, condition, mapped]
        | some parameters =>
          obtain ⟨begun, step, same, keeps⟩ :=
            runNode_attempt topo read cancelled condition mapped
          have begun_kept := keeps done kept
          have attempted : reached task nodes (id :: rest) t.results =
              match scriptedResult task node with
              | some result => id :: reached task nodes rest (insert id result t.results)
              | none => [id] := by
            simp only [reached, if_neg cancelled, found, condition, mapped]
          by_cases limit : maxRetries task node + 1 < 2 ^ 64
          · obtain ⟨completes, fails⟩ := attemptNode_spec ordered begun_kept undone found ready limit
            cases scripted : scriptedResult task node with
            | none =>
              obtain ⟨report, ended, fair⟩ := fails scripted
              refine ⟨fun _ => ⟨report, runNodes_stop (step.trans ended), fair⟩, ?_⟩
              rw [attempted, scripted, countable_cons found]
              exact fun uncountable => absurd ⟨limit, by simp [Countable]⟩ uncountable
            | some result =>
              obtain ⟨t', ended, kept', results⟩ := completes result scripted
              have later := ih (done ++ [id]) t' whole' kept'
              have shape : reached task nodes (id :: rest) t.results =
                  id :: reached task nodes rest t'.results := by
                rw [attempted, scripted, results, same]
              constructor
              · rw [shape, countable_cons found, runNodes_next (step.trans ended)]
                exact fun countable => later.fair countable.2
              · rw [shape, countable_cons found, runNodes_next (step.trans ended)]
                exact fun uncountable => later.overflow fun all => uncountable ⟨limit, all⟩
          · have first : ∃ others, reached task nodes (id :: rest) t.results = id :: others := by
              rw [attempted]
              split
              · exact ⟨_, rfl⟩
              · exact ⟨[], rfl⟩
            obtain ⟨others, shape⟩ := first
            constructor
            · rw [shape, countable_cons found]
              exact fun countable => absurd countable.1 limit
            · intro _
              unfold runNodes
              rw [step, attemptNode_overflow limit]
              rfl

end Run

def reportedEvents (value : Value) : List String :=
  (((field value "events").bind Value.asArray).getD []).filterMap Value.asStr

def reportedState (value : Value) : Option String := stringValue value "terminal_state"

def reportedNode (value : Value) (id : String) : Option String :=
  (field value "node_states").bind (stringValue · id)

def reportedAttempts (value : Value) (id : String) : Option Value :=
  (field value "attempt_counts").bind (field · id)

/-- What the claims of a report about the nodes of a task amount to. -/
structure Consistent (task : Value) (nodes : Fields) (value : Value) : Prop where
  completed_iff : reportedState value = some "completed" ↔ ∀ id ∈ nodeIds nodes,
    reportedNode value id = some "completed" ∨ reportedNode value id = some "skipped"
  started : ∀ (id : String) (number : Nat) front back,
    reportedEvents value = front ++ (id ++ ":attempt:" ++ toString number) :: back →
    ∀ dependency, (dependency, id) ∈ edges nodes →
      dependency ++ ":completed" ∈ front ∨ dependency ++ ":skipped" ∈ front
  counted : ∀ id node, get id nodes = some node → ∀ count : Nat,
    reportedAttempts value id = some (integer count) → count ≤ maxRetries task node + 1
  numbered : ∀ id node, get id nodes = some node → ∀ number : Nat,
    id ++ ":attempt:" ++ toString number ∈ reportedEvents value →
      number ≤ maxRetries task node + 1 ∧
        (reportedEvents value).count (id ++ ":attempt:" ++ toString number) = 1

section Reports
variable {task : Value} {nodes : Fields} {report : Report} {id : String} {number : Nat}

theorem field_buildResult (key : String) : field (buildResult report) key = get key [
    ("events", stringArray (report.events.map Event.text)),
    ("terminal_state", .string report.state.text),
    ("error_code", optional report.error),
    ("aggregate", report.aggregate),
    ("node_states", .object (report.states.map fun entry => (entry.1, .string entry.2.text))),
    ("attempt_counts", .object (report.attempts.map fun entry => (entry.1, integer entry.2))),
    ("mapped_params", .object report.mapped),
    ("compensation_order", stringArray report.compensation)] := by
  unfold field buildResult document
  exact get_sortEntries key _

theorem get_mapped {β γ : Type} (f : β → γ) (key : String) (entries : List (String × β)) :
    get key (entries.map fun entry => (entry.1, f entry.2)) = (get key entries).map f := by
  induction entries with
  | nil => rfl
  | cons entry rest ih =>
    simp only [List.map_cons, Json.get, ih]
    split <;> rfl

theorem reportedEvents_buildResult :
    reportedEvents (buildResult report) = report.events.map Event.text := by
  unfold reportedEvents
  rw [field_buildResult]
  simp [Json.get, stringArray, Value.asArray, List.filterMap_map, Function.comp_def, Value.asStr]

theorem reportedState_buildResult : reportedState (buildResult report) = some report.state.text := by
  unfold reportedState stringValue
  rw [field_buildResult]
  rfl

theorem reportedNode_buildResult :
    reportedNode (buildResult report) id = (get id report.states).map Word.text := by
  unfold reportedNode
  rw [field_buildResult]
  have states := get_mapped (fun word : Word => Value.string word.text) id report.states
  change ((get id (report.states.map fun entry => (entry.1, Value.string entry.2.text))).bind
    Value.asStr) = _
  rw [states]
  cases get id report.states <;> rfl

theorem reportedAttempts_buildResult :
    reportedAttempts (buildResult report) id =
      (get id report.attempts).map fun count : Nat => integer count := by
  unfold reportedAttempts
  rw [field_buildResult]
  change get id (report.attempts.map fun entry => (entry.1, integer entry.2)) = _
  exact get_mapped (fun count : Nat => integer count) id report.attempts

theorem Word.text_injective : Function.Injective Word.text := by
  intro a b same
  cases a <;> cases b <;> first | rfl | exact absurd same (by decide)

theorem text_completed : (Event.node id .completed).text = id ++ ":completed" := String.append_assoc

theorem text_skipped : (Event.node id .skipped).text = id ++ ":skipped" := String.append_assoc

theorem count_attempt (events : List Event) (id : String) (number : Nat) :
    (events.map Event.text).count (id ++ ":attempt:" ++ toString number) =
      events.count (.attempt id number) := by
  induction events with
  | nil => rfl
  | cons e rest ih =>
    rw [List.map_cons, List.count_cons, List.count_cons, ih]
    by_cases same : e = .attempt id number
    · simp [same, Event.text]
    · have texts : (e.text == id ++ ":attempt:" ++ toString number) = false :=
        beq_eq_false_iff_ne.mpr fun equal => same (Event.text_attempt equal)
      rw [texts, beq_eq_false_iff_ne.mpr same]

theorem Fair.consistent (fair : Fair task nodes report) : Consistent task nodes (buildResult report) := by
  have named (word : Word) (id : String) :
      reportedNode (buildResult report) id = some word.text ↔ get id report.states = some word := by
    rw [reportedNode_buildResult, Option.map_eq_some_iff]
    constructor
    · rintro ⟨other, found, same⟩
      rw [found, Word.text_injective same]
    · exact fun found => ⟨word, found, rfl⟩
  constructor
  · rw [reportedState_buildResult]
    have state : some report.state.text = some "completed" ↔ report.state = .completed :=
      ⟨fun same => Word.text_injective (Option.some.inj same), fun same => by rw [same]; rfl⟩
    rw [state, fair.completed_iff]
    exact forall₂_congr fun id _ => or_congr (named .completed id).symm (named .skipped id).symm
  · intro id number front back said dependency edge
    rw [reportedEvents_buildResult] at said
    obtain ⟨before, after, same, rfl, tail⟩ := List.map_eq_append_iff.mp said
    obtain ⟨e, later, rfl, text, -⟩ := List.map_eq_cons_iff.mp tail
    obtain rfl := Event.text_attempt text
    rw [← text_completed, ← text_skipped]
    exact (fair.lawful.started before id number later same dependency edge).imp
      List.mem_map_of_mem List.mem_map_of_mem
  · intro id node found count counted
    rw [reportedAttempts_buildResult, Option.map_eq_some_iff] at counted
    obtain ⟨other, read, same⟩ := counted
    have equal : other = count := by
      simpa [integer] using same
    exact fair.lawful.counted id count (equal ▸ read) node found
  · intro id node found number member
    rw [reportedEvents_buildResult] at member ⊢
    have counted := count_attempt report.events id number
    have there : Event.attempt id number ∈ report.events := by
      apply List.count_pos_iff.mp
      rw [← counted]
      exact List.count_pos_iff.mpr member
    obtain ⟨allowed, once⟩ := fair.lawful.numbered id number there
    exact ⟨allowed node found, counted.trans once⟩

end Reports

theorem kept_start {task : Value} {nodes : Fields} (events : List Event) (quiet : Quiet events) :
    Kept task nodes [] { events } := by
  refine ⟨⟨?_, ?_, ?_⟩, fun id _ => quiet id, by simp, by simp, fun _ _ => rfl⟩
  · intro front id number back same
    obtain rfl : events = front ++ .attempt id number :: back := same
    exact absurd (by simp) (quiet id number)
  · intro id count found
    cases found
  · exact fun id number member => absurd member (quiet id number)

section Evaluation
variable [Nip.Serde] (task : Value)

/-- The nodes and the order that the evaluation works with. -/
def Admitted (nodes : Fields) (topo : List String) : Prop :=
  taskNodes task = some nodes ∧ stableTopology nodes = .ok (some topo)

def attempted (nodes : Fields) (topo : List String) : List String :=
  if boolValue task "preflight" false && topo.any fun id => (get id nodes).any unavailable then []
  else reached task nodes topo []

/-- The evaluation comes to an end, and a task whose graph is accepted is reported on truly. -/
def Sound : Prop := ∃ value, evaluateOrchestration task = .ok value ∧
  ∀ nodes topo, Admitted task nodes topo → Consistent task nodes value

variable {task} {nodes : Fields} {topo : List String}

variable (task) in
theorem orchestrate_spec (distinct : (nodeIds nodes).Nodup) (ordered : Ordered nodes topo) :
    (Countable task nodes (attempted task nodes topo) →
      ∃ report, orchestrate task nodes topo = .ok report ∧ Fair task nodes report) ∧
    (¬ Countable task nodes (attempted task nodes topo) →
      orchestrate task nodes topo = .error .addition) := by
  have runs (events : List Event) (quiet : Quiet events) :
      RunsFairly task nodes topo topo { events } :=
    runNodes_spec ordered (ordered.all.nodup_iff.mpr distinct) topo [] _ rfl (kept_start events quiet)
  have asked := anyNode_spec unavailable fun id (member : id ∈ topo) => ordered.all.mem_iff.mp member
  unfold orchestrate attempted
  simp only [asked, ok_bind]
  by_cases preflight : boolValue task "preflight" false = true
  · rw [preflight, if_pos rfl, Bool.true_and]
    by_cases lacking : (topo.any fun id => (get id nodes).any unavailable) = true
    · rw [if_pos lacking, if_pos lacking]
      refine ⟨fun _ => ⟨_, rfl, ?_⟩, fun uncountable => absurd (by simp [Countable]) uncountable⟩
      obtain ⟨id, member, -⟩ := List.any_eq_true.mp lacking
      have start : Kept task nodes [] { events := [.task .preflight, .task .failed] } :=
        kept_start _ (by simp [Quiet])
      exact .unfinished start.lawful (by simp) (ordered.all.mem_iff.mp member) (by simp [Json.get])
    · rw [if_neg lacking, if_neg lacking]
      have run := runs [.task .preflight, .task .running] (by simp [Quiet])
      exact ⟨run.fair, run.overflow⟩
  · rw [if_neg preflight, if_neg (by simp [preflight])]
    have run := runs [.task .running] (by simp [Quiet])
    exact ⟨run.fair, run.overflow⟩

/-- The evaluation is sound exactly when no node that is attempted may be retried as often as a
machine word can count. -/
theorem orchestration_sound_iff (task : Value) : Sound task ↔
    ∀ nodes topo, Admitted task nodes topo → Countable task nodes (attempted task nodes topo) := by
  unfold Sound Admitted evaluateOrchestration
  cases read : taskNodes task with
  | none => simp
  | some nodes =>
    have distinct := taskNodes_distinct read
    obtain ⟨order, sorted⟩ := stableTopology_total distinct
    cases order with
    | none =>
      have refused : ∀ nodes' topo, some nodes = some nodes' →
          stableTopology nodes' ≠ .ok (some topo) := by
        rintro nodes' topo ⟨⟩
        simp [sorted]
      refine ⟨fun _ nodes' topo accepted => absurd accepted.2 (refused nodes' topo accepted.1), fun _ => ?_⟩
      refine ⟨buildResult (emptyFailure ErrorCodes.taskDagCycle), ?_, fun nodes' topo accepted =>
        absurd accepted.2 (refused nodes' topo accepted.1)⟩
      simp only [sorted, ok_bind, pure_eq]
    | some topo =>
      obtain ⟨fair, overflow⟩ :=
        orchestrate_spec task distinct (stableTopology_ordered distinct sorted)
      constructor
      · rintro ⟨value, run, -⟩ nodes' topo' ⟨same, sorted'⟩
        cases same
        obtain rfl := Option.some.inj (Except.ok.inj (sorted.symm.trans sorted'))
        by_contra uncountable
        simp only [sorted, ok_bind, overflow uncountable, error_bind] at run
        cases run
      · intro all
        obtain ⟨report, run, true_⟩ := fair (all nodes topo ⟨rfl, sorted⟩)
        refine ⟨buildResult report, ?_, ?_⟩
        · simp only [sorted, ok_bind, run, pure_eq]
        · rintro nodes' topo' ⟨same, sorted'⟩
          cases same
          exact true_.consistent

end Evaluation

namespace OneNode

def task (retries : Nat) : Value := document [
  ("max_retries", integer retries),
  ("nodes", .array [document [
    ("id", .string "a"),
    ("attempts", .array [document [("kind", .string "success")]])]])]

abbrev serde : Nip.Serde := .table []

theorem greatest_overflows : ¬ @Sound serde (task (2 ^ 64 - 1)) := by
  have stops : (@evaluateOrchestration serde (task (2 ^ 64 - 1))).toOption.isNone = true := by
    decide +kernel
  rintro ⟨value, run, -⟩
  rw [run] at stops
  cases stops

example : (@evaluateOrchestration serde (task (2 ^ 64 - 2))).toOption.map reportedEvents =
    some ["task:running", "a:attempt:1", "a:completed", "task:completed"] := by
  decide +kernel

end OneNode
end Nps.Nop.PortableProfile
