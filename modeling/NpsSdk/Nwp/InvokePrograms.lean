import NpsSdk.Nwp.ActionServer

/-! The programs of requests and tasks: which operations they perform on the cache of outcomes, and
that they execute an action at most once. -/
namespace Nps.Nwp.ActionServer
open Interaction Prog

def ParsedActionFrame.slot (frame : ParsedActionFrame) (agentNid : Option String) : Option String :=
  frame.idempotencyKey.map
    (InMemoryIdempotencyCache.key (idempotencyCacheScope frame.actionId agentNid))

/-- Operations that neither touch the cache nor lead to an execution. -/
def Op.Idle : Op → Prop
  | .cacheGet _ _ _ => False
  | .tryStore _ _ _ _ => False
  | .execute _ _ => False
  | .spawn _ => False
  | _ => True

/-- Operations that only look, or that touch nothing but tokens and the counter. -/
def Op.Quiet : Op → Prop
  | .isCancelled _ => True
  | .genHex _ => True
  | .nowUtc => True
  | .taskGet _ => True
  | _ => False

/-- Idle operations that neither start a task nor report its progress. -/
def Op.Calm : Op → Prop
  | .tryTransition _ _ _ _ => False
  | .task _ (.tryTransition _ _ _) => False
  | .task _ (.updateProgress _ _) => False
  | op => op.Idle

def Op.Runs : Op → Prop
  | .execute _ _ => True
  | .spawn _ => True
  | _ => False

/-- Operations by which a frame that was looked up is executed and its outcome kept. -/
def Op.Of (frame : ParsedActionFrame) (agentNid : Option String) : Op → Prop
  | .cacheGet _ _ _ => False
  | .tryStore scope key entry _ => scope = idempotencyCacheScope frame.actionId agentNid ∧
      frame.idempotencyKey = some key ∧ entry.paramsHash = hashParams frame.params
  | .execute executed context => executed = frame ∧ context.agentNid = agentNid
  | .spawn work => work.frame = frame ∧ work.context.agentNid = agentNid
  | _ => True

/-- The operation has nothing to do with the slot. -/
def Op.Avoids (slot : String) : Op → Prop
  | .cacheGet scope key _ => InMemoryIdempotencyCache.key scope key ≠ slot
  | .tryStore scope key _ _ => InMemoryIdempotencyCache.key scope key ≠ slot
  | .execute frame context => frame.slot context.agentNid ≠ some slot
  | .spawn work => work.frame.slot work.context.agentNid ≠ some slot
  | _ => True

/-- What the operation executes or keeps under the slot is for these parameters. -/
def Op.Keeps (slot hash : String) : Op → Prop
  | .cacheGet scope key _ => InMemoryIdempotencyCache.key scope key ≠ slot
  | .tryStore scope key entry _ =>
    InMemoryIdempotencyCache.key scope key = slot → entry.paramsHash = hash
  | .execute frame context =>
    frame.slot context.agentNid = some slot → hashParams frame.params = hash
  | .spawn work =>
    work.frame.slot work.context.agentNid = some slot → hashParams work.frame.params = hash
  | _ => True

def Op.RunsAt (slot : String) : Op → Prop
  | .execute frame context => frame.slot context.agentNid = some slot
  | .spawn work => work.frame.slot work.context.agentNid = some slot
  | _ => False

theorem Op.Quiet.idle (op : Op) (quiet : op.Quiet) : op.Idle := by
  cases op <;> trivial

theorem Op.Quiet.calm (op : Op) (quiet : op.Quiet) : op.Calm := by
  cases op <;> trivial

theorem Op.Calm.idle (op : Op) (calm : op.Calm) : op.Idle := by
  cases op with
  | task now op => trivial
  | tryTransition now taskId expected new => exact False.elim calm
  | _ => exact calm

theorem Op.Idle.of {frame : ParsedActionFrame} {agentNid : Option String} (op : Op) (idle : op.Idle) :
    op.Of frame agentNid := by
  cases op <;> trivial

theorem Op.Idle.not_runs (op : Op) (idle : op.Idle) : ¬ op.Runs := by
  cases op <;> first | exact not_false | exact False.elim idle

section Slots
variable {slot hash : String} {frame : ParsedActionFrame} {agentNid : Option String} (op : Op)

theorem Op.Idle.avoids (idle : op.Idle) : op.Avoids slot := by
  cases op <;> trivial

theorem Op.Avoids.keeps (avoids : op.Avoids slot) : op.Keeps slot hash := by
  cases op with
  | cacheGet scope key now => exact avoids
  | tryStore scope key entry now => exact fun same => absurd same avoids
  | execute frame context => exact fun same => absurd same avoids
  | spawn work => exact fun same => absurd same avoids
  | _ => trivial

theorem Op.Avoids.not_runsAt (avoids : op.Avoids slot) : ¬ op.RunsAt slot := by
  cases op with
  | execute frame context => exact avoids
  | spawn work => exact avoids
  | _ => exact not_false

theorem Op.RunsAt.runs (runs : op.RunsAt slot) : op.Runs := by
  cases op <;> trivial

theorem Op.Of.avoids (elsewhere : frame.slot agentNid ≠ some slot) (own : op.Of frame agentNid) :
    op.Avoids slot := by
  cases op with
  | cacheGet scope key now => exact False.elim own
  | tryStore scope key entry now =>
    obtain ⟨rfl, known, -⟩ := own
    intro same
    refine elsewhere ?_
    rw [ParsedActionFrame.slot, known, ← same]
    rfl
  | execute executed context =>
    obtain ⟨rfl, rfl⟩ := own
    exact elsewhere
  | spawn work =>
    obtain ⟨rfl, rfl⟩ := own
    exact elsewhere
  | _ => trivial

theorem Op.Of.keeps (own : op.Of frame agentNid) : op.Keeps slot (hashParams frame.params) := by
  cases op with
  | cacheGet scope key now => exact False.elim own
  | tryStore scope key entry now => exact fun _ => own.2.2
  | execute executed context =>
    obtain ⟨rfl, -⟩ := own
    exact fun _ => rfl
  | spawn work =>
    obtain ⟨rfl, -⟩ := own
    exact fun _ => rfl
  | _ => trivial

end Slots

section Programs
variable {opt : ActionNodeOptions} {frame : ParsedActionFrame} {context : ActionContext}

theorem emit_quiet (streamId : String) (cancellation : Nat) (supplied : ActionStreamFrame)
    (written : Written) : Only Op.Quiet (emit streamId cancellation supplied written) := by
  refine Only.ask trivial fun cancelled => ?_
  split
  · trivial
  · split
    · trivial
    · split
      · trivial
      · split <;> trivial

theorem runStream_quiet (streamId : String) (cancellation : Nat) (stream : ActionStream)
    (written : Written) : Only Op.Quiet (runStream streamId cancellation stream written) := by
  induction stream generalizing written with
  | finished result => trivial
  | emits frame next ih => exact (emit_quiet _ _ _ _).bind fun answer => ih _ _

theorem writeStream_quiet (stream : ActionStream) (cancellation : Nat) (requestId : Option String) :
    Only Op.Quiet (writeStream stream cancellation requestId) := by
  refine Only.ask trivial fun streamId => (runStream_quiet _ _ _ _).bind fun out => ?_
  dsimp only
  split
  · trivial
  · split
    · trivial
    · refine Only.ask trivial fun cancelled => ?_
      split <;> trivial

theorem writeStream_idle (stream : ActionStream) (cancellation : Nat) (requestId : Option String) :
    Only Op.Idle (writeStream stream cancellation requestId) :=
  (writeStream_quiet stream cancellation requestId).mono Op.Quiet.idle

theorem replay_quiet (cached : IdempotentEntry) :
    Only Op.Quiet (replay opt frame context cached) := by
  unfold replay
  split
  · trivial
  · split
    · exact ⟨trivial, fun record => trivial⟩
    · split
      · exact (writeStream_quiet _ _ _).bind fun out => trivial
      · trivial

theorem replay_idle (cached : IdempotentEntry) : Only Op.Idle (replay opt frame context cached) :=
  (replay_quiet cached).mono Op.Quiet.idle

theorem remember_of (result : Option Json.Value) (frames : Option (List ActionStreamFrame))
    (anchorRef taskId : Option String) :
    Only (Op.Of frame context.agentNid) (remember opt frame context result frames anchorRef taskId) ∧
      Only (fun op => ¬ op.Runs) (remember opt frame context result frames anchorRef taskId) := by
  unfold remember
  split
  · exact ⟨trivial, trivial⟩
  · rename_i key known
    exact ⟨⟨trivial, fun now => ⟨trivial, fun stored => ⟨⟨rfl, known, rfl⟩, fun answer => trivial⟩⟩⟩,
      ⟨not_false, fun now => ⟨not_false, fun stored => ⟨not_false, fun answer => trivial⟩⟩⟩⟩

theorem deliver_of (result : ActionExecutionResult) :
    Only (Op.Of frame context.agentNid) (deliver opt frame context result) ∧
      Only (fun op => ¬ op.Runs) (deliver opt frame context result) := by
  unfold deliver
  dsimp only
  split
  · constructor
    · refine ((writeStream_idle _ _ _).mono Op.Idle.of).bind fun out => ?_
      split
      · exact (remember_of _ _ _ _).1.bind fun _ => trivial
      · trivial
    · refine ((writeStream_idle _ _ _).mono Op.Idle.not_runs).bind fun out => ?_
      split
      · exact (remember_of _ _ _ _).2.bind fun _ => trivial
      · trivial
  · exact ⟨(remember_of _ _ _ _).1.bind fun _ => trivial, (remember_of _ _ _ _).2.bind fun _ => trivial⟩

theorem Once.ask_once {β : Type} {op : Op} {next : Answer op → Program β}
    (rest : ∀ answer, Only (fun op => ¬ op.Runs) (next answer)) : Once Op.Runs (ask op >>= next) :=
  Once.bind (fun _ => ⟨trivial, fun _ => trivial⟩) rest

theorem performSync_of : Only (Op.Of frame context.agentNid) (performSync opt frame context) := by
  refine Only.ask ⟨rfl, rfl⟩ fun _ => Only.ask trivial fun received => ?_
  split
  · exact (deliver_of _).1
  · trivial
  · exact ⟨trivial, fun _ => trivial⟩
  · exact ⟨trivial, fun _ => trivial⟩

theorem performSync_once : Once Op.Runs (performSync opt frame context) := by
  refine Once.ask_once fun _ => Only.ask not_false fun received => ?_
  split
  · exact (deliver_of _).2
  · trivial
  · exact ⟨not_false, fun _ => trivial⟩
  · exact ⟨not_false, fun _ => trivial⟩

theorem performAsync_of : Only (Op.Of frame context.agentNid) (performAsync opt frame context) := by
  refine Only.ask trivial fun taskId => Only.ask trivial fun now => Only.ask trivial fun _ => ?_
  refine (remember_of _ _ _ _).1.bind fun _ => Only.ask trivial fun _ => ?_
  exact Only.ask ⟨rfl, rfl⟩ fun _ => trivial

theorem performAsync_once : Once Op.Runs (performAsync opt frame context) := by
  refine Once.after ⟨not_false, fun _ => trivial⟩ fun taskId => ?_
  refine Once.after ⟨not_false, fun _ => trivial⟩ fun now => ?_
  refine Once.after ⟨not_false, fun _ => trivial⟩ fun _ => ?_
  refine Once.after (remember_of _ _ _ _).2 fun _ => ?_
  refine Once.after ⟨not_false, fun _ => trivial⟩ fun _ => ?_
  exact Once.ask_once fun _ => trivial

theorem perform_of : Only (Op.Of frame context.agentNid) (perform opt frame context) := by
  unfold perform
  split
  · exact performAsync_of
  · exact performSync_of

theorem perform_once : Once Op.Runs (perform opt frame context) := by
  unfold perform
  split
  · exact performAsync_once
  · exact performSync_once

/-- A frame without a key is executed without a look at the cache. -/
theorem consult_of {agentNid : Option String} (caller : context.agentNid = agentNid)
    (keyless : frame.idempotencyKey = none) :
    Only (Op.Of frame agentNid) (consult opt frame context) := by
  unfold consult
  rw [keyless, ← caller]
  exact perform_of

theorem failTask_calm (taskId : String) (error : Json.Value) : Only Op.Calm (failTask taskId error) :=
  ⟨trivial, fun _ => ⟨trivial, fun _ => trivial⟩⟩

theorem awaitTask_calm (task : AsyncTask) (left : Nat) : Only Op.Calm (awaitTask task left) := by
  induction left with
  | zero =>
    refine Only.ask trivial fun cancelled => ?_
    split
    · trivial
    · exact Only.ask trivial fun _ => failTask_calm _ _
  | succ left ih =>
    refine Only.ask trivial fun cancelled => ?_
    split
    · trivial
    · refine Only.ask trivial fun past => ?_
      split
      · exact Only.ask trivial fun _ => failTask_calm _ _
      · refine Only.ask trivial fun received => ?_
        split
        · refine Only.ask trivial fun cancelled => ?_
          split
          · trivial
          · exact Only.ask trivial fun now => ⟨trivial, fun _ => trivial⟩
        · refine Only.ask trivial fun cancelled => ?_
          split
          · trivial
          · exact failTask_calm _ _
        · exact ih
        · exact failTask_calm _ _

theorem runAsyncTask_of (task : AsyncTask) :
    Only (Op.Of task.frame task.context.agentNid) (runAsyncTask task) := by
  refine Only.ask trivial fun now => Only.ask trivial fun running => ?_
  split
  · refine Only.ask ⟨rfl, rfl⟩ fun _ => ((awaitTask_calm _ _).mono fun op calm => (calm.idle op).of op).bind fun _ => ?_
    exact ⟨trivial, fun _ => trivial⟩
  · exact ⟨trivial, fun _ => trivial⟩

theorem runAsyncTask_once (task : AsyncTask) : Once Op.Runs (runAsyncTask task) := by
  refine Once.after ⟨not_false, fun _ => trivial⟩ fun now => ?_
  refine Once.after ⟨not_false, fun _ => trivial⟩ fun running => ?_
  split
  · refine Once.ask_once fun _ => ((awaitTask_calm _ _).mono fun op calm => (calm.idle op).not_runs op).bind fun _ => ?_
    exact ⟨not_false, fun _ => trivial⟩
  · exact .of_only ⟨not_false, fun _ => trivial⟩

theorem ownTask_quiet (agentNid : Option String) : Only Op.Quiet (ownTask frame agentNid) := by
  unfold ownTask
  split
  · trivial
  · refine Only.ask trivial fun found => ?_
    split
    · trivial
    · split <;> trivial

theorem handleTaskStatus_quiet [Formats] (agentNid : Option String) :
    Only Op.Quiet (handleTaskStatus frame agentNid) := by
  refine (ownTask_quiet agentNid).bind fun owned => ?_
  split <;> trivial

theorem handleTaskCancel_calm (agentNid : Option String) :
    Only Op.Calm (handleTaskCancel frame agentNid) := by
  refine ((ownTask_quiet agentNid).mono Op.Quiet.calm).bind fun owned => ?_
  split
  · trivial
  · split
    · trivial
    · refine Only.ask trivial fun now => Only.ask trivial fun _ => Only.ask trivial fun token => ?_
      split
      · exact ⟨trivial, fun _ => trivial⟩
      · trivial

end Programs

section Requests
variable {opt : ActionNodeOptions} {frame : ParsedActionFrame} {agentNid : Option String}

def answered (opt : ActionNodeOptions) (frame : ParsedActionFrame) (context : ActionContext) :
    Option IdempotentEntry → Program ActionResponse
  | some cached => replay opt frame context cached
  | none => perform opt frame context

/-- The frame has been looked up, and its request goes on with the answer. -/
def Consulted (opt : ActionNodeOptions) (frame : ParsedActionFrame) (agentNid : Option String) :
    (op : Op) → Answer op → Program (Option ActionResponse) → Prop
  | .cacheGet scope key _, cached, p =>
    scope = idempotencyCacheScope frame.actionId agentNid ∧ frame.idempotencyKey = some key ∧
      ∃ context : ActionContext, context.agentNid = agentNid ∧
        p = some <$> answered opt frame context cached
  | _, _, _ => False

theorem only_some {allowed : Op → Prop} {p : Program ActionResponse} (only : Only allowed p) :
    Only allowed (some <$> p) := only.bind fun _ => trivial

theorem once_some {p : Program ActionResponse} (once : Once Op.Runs p) :
    Once Op.Runs (some <$> p) := once.bind fun _ => trivial

theorem consult_until {context : ActionContext} {key : String} (caller : context.agentNid = agentNid)
    (known : frame.idempotencyKey = some key) :
    Until Op.Idle (Consulted opt frame agentNid) (some <$> consult opt frame context) := by
  unfold consult
  rw [known]
  subst caller
  refine fun now => .inl ⟨trivial, fun cached => .inr ⟨rfl, known, context, rfl, ?_⟩⟩
  cases cached <;> rfl

/-- A request is answered without the provider and the cache, or executes its frame because that
has no key, or goes on after a lookup only. -/
theorem handleInvoke_cases [Formats] (opt : ActionNodeOptions) (req : InvokeRequest) :
    Only Op.Idle (handleInvoke opt req) ∨
    ∃ frame, req.frame = .ok frame ∧
      (frame.idempotencyKey = none ∧ Only (Op.Of frame req.agentNid) (handleInvoke opt req) ∨
        Until Op.Idle (Consulted opt frame req.agentNid) (some <$> handleInvoke opt req)) := by
  unfold handleInvoke
  split
  · exact .inl trivial
  · rename_i frame parsed
    split_ifs
    · exact .inl ((handleTaskStatus_quiet _).mono Op.Quiet.idle)
    · exact .inl ((handleTaskCancel_calm _).mono Op.Calm.idle)
    · unfold invoke
      split
      · exact .inl trivial
      · refine .inr ⟨frame, parsed, ?_⟩
        cases known : frame.idempotencyKey with
        | none =>
          refine .inl ⟨rfl, Only.ask trivial fun token => Only.ask trivial fun authorized => ?_⟩
          split
          · trivial
          · exact consult_of rfl known
        | some key =>
          refine .inr fun token => .inl ⟨trivial, fun authorized => .inl ⟨trivial, ?_⟩⟩
          cases authorized with
          | error error => trivial
          | ok u => exact consult_until rfl known

/-- A request has yet to look up the slot of its frame. -/
def Waiting (opt : ActionNodeOptions) (slot : String) (call : Call)
    (p : Program (Option ActionResponse)) : Prop :=
  ∃ req frame, call = .request req ∧ req.frame = .ok frame ∧
    frame.slot req.agentNid = some slot ∧ Until Op.Idle (Consulted opt frame req.agentNid) p

/-- What is left executes and keeps nothing under the slot but for these parameters, and starts
at most one execution. -/
def Bound (slot hash : String) (p : Program (Option ActionResponse)) : Prop :=
  Only (Op.Keeps slot hash) p ∧ Once (Op.RunsAt slot) p

variable {slot hash : String} {p : Program (Option ActionResponse)}

theorem Bound.of_avoids (avoids : Only (Op.Avoids slot) p) : Bound slot hash p :=
  ⟨avoids.mono Op.Avoids.keeps, .of_only (avoids.mono Op.Avoids.not_runsAt)⟩

theorem Bound.of_own (own : Only (Op.Of frame agentNid) p) (once : Once Op.Runs p) :
    Bound slot (hashParams frame.params) p :=
  ⟨own.mono Op.Of.keeps, once.mono Op.RunsAt.runs⟩

theorem answer_exists (op : Op) : Nonempty (Answer op) := by
  cases op with
  | authorize frame context => exact ⟨.ok ()⟩
  | receive timeoutMs => exact ⟨.timeout⟩
  | nowUtc => exact ⟨(0 : Int)⟩
  | newCancellation => exact ⟨(0 : Nat)⟩
  | cacheGet scope key now => exact ⟨none⟩
  | taskGet taskId => exact ⟨none⟩
  | getCancellation taskId => exact ⟨none⟩
  | genHex bytes => exact ⟨""⟩
  | isCancelled token => exact ⟨false⟩
  | pastDeadline => exact ⟨false⟩
  | tryStore scope key entry now => exact ⟨false⟩
  | tryTransition now taskId expected new => exact ⟨false⟩
  | _ => exact ⟨()⟩

theorem answered_of (context : ActionContext) (cached : Option IdempotentEntry) :
    Only (Op.Of frame context.agentNid) (answered opt frame context cached) := by
  cases cached with
  | some cached => exact (replay_idle cached).mono Op.Idle.of
  | none => exact perform_of

theorem Consulted.op {op : Op} {answer : Answer op} (consulted : Consulted opt frame agentNid op answer p) :
    ∃ scope key now, op = .cacheGet scope key now ∧
      frame.slot agentNid = some (InMemoryIdempotencyCache.key scope key) := by
  cases op with
  | cacheGet scope key now =>
    obtain ⟨rfl, known, -⟩ := consulted
    refine ⟨_, _, _, rfl, ?_⟩
    rw [ParsedActionFrame.slot, known]
    rfl
  | _ => exact False.elim consulted

theorem avoids_of_until (elsewhere : frame.slot agentNid ≠ some slot)
    (until_ : Until Op.Idle (Consulted opt frame agentNid) p) : Only (Op.Avoids slot) p := by
  induction p with
  | done result => trivial
  | call op next ih =>
    constructor
    · obtain ⟨answer⟩ := answer_exists op
      rcases until_ answer with ⟨idle, -⟩ | consulted
      · exact idle.avoids
      · obtain ⟨scope, key, now, rfl, own⟩ := consulted.op
        exact fun same => elsewhere (same ▸ own)
    · intro answer
      rcases until_ answer with ⟨-, later⟩ | consulted
      · exact ih answer later
      · cases op with
        | cacheGet scope key now =>
          obtain ⟨-, -, context, rfl, same⟩ := consulted
          rw [same]
          exact only_some ((answered_of context _).mono (Op.Of.avoids · elsewhere))
        | _ => exact False.elim consulted

theorem request_fresh [Formats] (req : InvokeRequest) :
    Waiting opt slot (.request req) (some <$> handleInvoke opt req) ∨
      Only (Op.Avoids slot) (some <$> handleInvoke opt req) := by
  rcases handleInvoke_cases opt req with idle | ⟨frame, parsed, ⟨keyless, own⟩ | until_⟩
  · exact .inr (only_some (idle.mono Op.Idle.avoids))
  · have elsewhere : frame.slot req.agentNid ≠ some slot := by
      rw [ParsedActionFrame.slot, keyless]
      exact Option.some_ne_none slot ∘ Eq.symm
    exact .inr (only_some (own.mono (Op.Of.avoids · elsewhere)))
  · by_cases here : frame.slot req.agentNid = some slot
    · exact .inl ⟨req, frame, rfl, parsed, here, until_⟩
    · exact .inr (avoids_of_until here until_)

theorem task_bound (work : AsyncTask) (same : (Op.spawn work).Keeps slot hash) :
    Bound slot hash ((fun _ => none) <$> runAsyncTask work) := by
  have own : Only (Op.Of work.frame work.context.agentNid)
      ((fun _ => (none : Option ActionResponse)) <$> runAsyncTask work) :=
    (runAsyncTask_of work).bind fun _ => trivial
  by_cases here : work.frame.slot work.context.agentNid = some slot
  · have once : Once Op.Runs ((fun _ => (none : Option ActionResponse)) <$> runAsyncTask work) :=
      (runAsyncTask_once work).bind fun _ => trivial
    rw [← same here]
    exact .of_own own once
  · exact .of_avoids (own.mono (Op.Of.avoids · here))

/-- What is left may still execute for the slot. -/
def Runner (slot : String) (p : Program (Option ActionResponse)) : Prop :=
  ¬ Only (fun op => ¬ op.RunsAt slot) p

theorem Runner.before {op : Op} {next : Answer op → Program (Option ActionResponse)}
    {answer : Answer op} (runner : Runner slot (next answer)) : Runner slot (.call op next) :=
  fun only => runner (only.2 answer)

theorem not_runner_of_avoids (avoids : Only (Op.Avoids slot) p) : ¬ Runner slot p :=
  not_not_intro (avoids.mono Op.Avoids.not_runsAt)

theorem task_runner {work : AsyncTask}
    (runner : Runner slot ((fun _ => none) <$> runAsyncTask work)) :
    (Op.spawn work).RunsAt slot := by
  by_contra elsewhere
  have own : Only (Op.Of work.frame work.context.agentNid)
      ((fun _ => (none : Option ActionResponse)) <$> runAsyncTask work) :=
    (runAsyncTask_of work).bind fun _ => trivial
  exact not_runner_of_avoids (own.mono (Op.Of.avoids · elsewhere)) runner

/-- What is left may execute for the slot, and for these parameters only. -/
def Engaged (slot hash : String) (p : Program (Option ActionResponse)) : Prop :=
  Only (Op.Keeps slot hash) p ∧ Runner slot p

theorem Waiting.not_engaged {call : Call} (waiting : Waiting opt slot call p) :
    ¬ Engaged slot hash p := by
  obtain ⟨req, frame, -, -, own, until_⟩ := waiting
  rintro ⟨keeps, runner⟩
  refine runner ?_
  clear runner
  induction p with
  | done result => trivial
  | call op next ih =>
    constructor
    · obtain ⟨answer⟩ := answer_exists op
      rcases until_ answer with ⟨idle, -⟩ | consulted
      · exact Op.Avoids.not_runsAt op idle.avoids
      · obtain ⟨scope, key, now, rfl, -⟩ := consulted.op
        exact not_false
    · intro answer
      rcases until_ answer with ⟨-, later⟩ | consulted
      · exact ih answer later (keeps.2 answer)
      · obtain ⟨scope, key, now, rfl, here⟩ := consulted.op
        exact absurd (Option.some.inj (here.symm.trans own)) keeps.1

end Requests
end Nps.Nwp.ActionServer
