import NpsSdk.Lib.Traces
import NpsSdk.Nwp.ReservationOutcomes

/-! How the reservation of a stream ends. The coordinator commits or aborts while the provider's source
runs, or aborts after it; only a source that passes over the refusal of its last frame leaves the
reservation to itself. -/
namespace Nps.Nwp.LlmActionServer
open Interaction Prog
open ActionServer (ActionContext ActionError ActionExecutionResult ActionStream ParsedActionFrame)
open LlmContext (Message MutationRequest Operation Owner Reservation Rfc3339 StoreOptions StoreResult)

def wasCancelled : ActionError := .internal "action stream was cancelled"

def afterTerminal : ActionError := .internal "LLM stream emitted frames after terminal"

/-- What has been heard of an assistant, as it is stored. -/
def spoken (heard : List LlmCompleteStreamChunkDto) : Message :=
  let content := String.join (heard.filterMap (·.contentDelta))
  let toolCalls := (heard.filterMap (·.toolCalls)).flatten
  { role := "assistant"
    content := if content = "" then none else some content
    toolCalls := if toolCalls = [] then none else some toolCalls }

def cleared (chunks : List LlmCompleteStreamChunkDto) : List LlmCompleteStreamChunkDto :=
  chunks.map fun chunk => { chunk with context := none }

section Sources
variable [Serde] (options : StatefulLlmActionOptions) (owner : Owner) (requestFrame : ParsedActionFrame)
  (context : ActionContext)

/-- The chunks of a frame, unless they cannot be read or belong to the last one only. -/
def offered (frame : ActionStreamFrame) : Except ActionError (List LlmCompleteStreamChunkDto) :=
  match readChunks frame.data with
  | .error error => .error error
  | .ok chunks =>
    if !frame.isLast ∧ chunks.any LlmCompleteStreamChunkDto.terminal then .error (.internal
      "LLM stream stop_reason, error, usage, and context are terminal-only fields")
    else .ok chunks

def rewritten (chunks : List LlmCompleteStreamChunkDto) : Except ActionError (List Json.Value) :=
  writeChunks "serialize stateful LLM stream chunk" (cleared chunks)

/-- A frame that does not end the stream: what is performed for it, the chunks that are kept of it, and
what its source is told. -/
inductive Passes (frame : ActionStreamFrame) :
    List (Sigma Answer) → List LlmCompleteStreamChunkDto → Except ActionError Unit → Prop where
  | cancelled : Passes frame [⟨.isCancelled context.cancellation, true⟩] [] (.error wasCancelled)
  | refused {e : ActionError} : offered frame = .error e →
      Passes frame [⟨.isCancelled context.cancellation, false⟩] [] (.error e)
  | unwritten {chunks : List LlmCompleteStreamChunkDto} {e : ActionError} : offered frame = .ok chunks →
      rewritten chunks = .error e →
      Passes frame [⟨.isCancelled context.cancellation, false⟩] chunks (.error e)
  | emitted {chunks : List LlmCompleteStreamChunkDto} {data : List Json.Value}
      {answer : Except ActionError Unit} : offered frame = .ok chunks → rewritten chunks = .ok data →
      frame.isLast = false →
      Passes frame [⟨.isCancelled context.cancellation, false⟩, ⟨.emit { frame with data }, answer⟩]
        chunks answer

/-- The last frame of a stream as its coordinator concludes it, and how its source goes on. -/
structure Closing where
  frame : ActionStreamFrame
  chunks : List LlmCompleteStreamChunkDto
  next : Except ActionError Unit → ActionStream

/-- The source comes to its last frame; this has been heard by then, and the last frame with it. -/
inductive Reaches : ActionStream → List (Sigma Answer) → List LlmCompleteStreamChunkDto → Closing →
    List (Sigma Answer) → Prop where
  | passes {frame : ActionStreamFrame} {next : Except ActionError Unit → ActionStream}
      {first second rest : List (Sigma Answer)} {chunks heard : List LlmCompleteStreamChunkDto}
      {answer : Except ActionError Unit} {closing : Closing} :
      Passes context frame first chunks answer → Reaches (next answer) second heard closing rest →
      Reaches (.emits frame next) (first ++ second) (chunks ++ heard) closing rest
  | last {frame : ActionStreamFrame} {next : Except ActionError Unit → ActionStream}
      {rest : List (Sigma Answer)} {chunks : List LlmCompleteStreamChunkDto} {data : List Json.Value} :
      offered frame = .ok chunks → rewritten chunks = .ok data → frame.isLast = true →
      Reaches (.emits frame next) (⟨.isCancelled context.cancellation, false⟩ :: rest) chunks
        ⟨{ frame with data }, cleared chunks, next⟩ rest

def Closing.Fails (closing : Closing) : Prop :=
  closing.frame.errorCode.isSome ∨
    closing.chunks.any fun chunk => chunk.error.isSome || chunk.stopReason = some .error

def Closing.Stops (closing : Closing) : Prop := ∃ chunk ∈ closing.chunks, chunk.stopReason.isSome = true

/-- A last frame that tells of no failure is refused before the guard is tried: it gives no reason to
stop, or the check of capabilities is not configured or fails, or the request was cancelled meanwhile. -/
inductive Refused (closing : Closing) : List (Sigma Answer) → ActionError → Prop where
  | endless : ¬ closing.Fails → ¬ closing.Stops →
      Refused closing [] (.internal "successful LLM stream terminal frame requires stop_reason")
  | unconfigured : ¬ closing.Fails → closing.Stops → options.authorizer = false →
      Refused closing [] contextForbidden
  | unauthorized {e : ActionError} : ¬ closing.Fails → closing.Stops → options.authorizer = true →
      Refused closing [⟨.authorizer owner requestFrame.actionId .commit (requiredCapabilities requestFrame)
        context, .error e⟩] e
  | cancelled : ¬ closing.Fails → closing.Stops → options.authorizer = true →
      Refused closing [⟨.authorizer owner requestFrame.actionId .commit (requiredCapabilities requestFrame)
        context, .ok ()⟩, ⟨.isCancelled context.cancellation, true⟩] wasCancelled

/-- A source that says in the end that all is well, though every frame is refused. -/
inductive Excuses : ActionStream → List (Sigma Answer) → Prop where
  | finished : Excuses (.finished (.ok ())) []
  | emits {frame : ActionStreamFrame} {next : Except ActionError Unit → ActionStream} {cancelled : Bool}
      {trace : List (Sigma Answer)} :
      Excuses (next (.error (if cancelled then wasCancelled else afterTerminal))) trace →
      Excuses (.emits frame next) (⟨.isCancelled context.cancellation, cancelled⟩ :: trace)

/-- The source's last frame is refused, and the source passes over it. -/
def Abandons (source : ActionStream) (trace : List (Sigma Answer)) : Prop :=
  ∃ heard closing first e rest, Reaches context source trace heard closing (first ++ rest) ∧
    Refused options owner requestFrame context closing first e ∧ Excuses context (closing.next (.error e)) rest

end Sources

/-- What is kept of the chunks that were heard before the last frame. -/
def keptOf (heard : List LlmCompleteStreamChunkDto) : StreamState where
  content := String.join (heard.filterMap (·.contentDelta))
  toolCalls := (heard.filterMap (·.toolCalls)).flatten

theorem keptOf_append (heard chunks : List LlmCompleteStreamChunkDto) :
    { keptOf heard with
      content := (keptOf heard).content ++ String.join (chunks.filterMap (·.contentDelta))
      toolCalls := (keptOf heard).toolCalls ++ (chunks.filterMap (·.toolCalls)).flatten } =
      keptOf (heard ++ chunks) := by
  simp [keptOf, String.join_append]

def Tried (guard : ReservationGuard) (trace : List (Sigma Answer)) : Prop :=
  ∃ new taken, (⟨.compareExchange guard .active new, taken⟩ : Sigma Answer) ∈ trace

theorem Tried.append_left {guard : ReservationGuard} {first second : List (Sigma Answer)}
    (tried : Tried guard first) : Tried guard (first ++ second) := by
  obtain ⟨new, taken, member⟩ := tried
  exact ⟨new, taken, List.mem_append_left _ member⟩

theorem Tried.append_right {guard : ReservationGuard} {first second : List (Sigma Answer)}
    (tried : Tried guard second) : Tried guard (first ++ second) := by
  obtain ⟨new, taken, member⟩ := tried
  exact ⟨new, taken, List.mem_append_right _ member⟩

theorem abort_tries {guard : ReservationGuard} {errorCode : String} {trace : List (Sigma Answer)}
    {out : Unit} (performs : Performs (guard.abort errorCode) trace out) : Tried guard trace := by
  obtain ⟨taken, rest, rfl, -⟩ := performs_ask.mp performs
  exact ⟨_, taken, List.mem_cons_self⟩

def NoCommit (trace : List (Sigma Answer)) : Prop :=
  ∀ reservation message answer, (⟨.commit reservation message, answer⟩ : Sigma Answer) ∉ trace

theorem NoCommit.append {first second : List (Sigma Answer)} (one : NoCommit first)
    (other : NoCommit second) : NoCommit (first ++ second) := by
  intro reservation message answer member
  rcases List.mem_append.mp member with before | after
  · exact one reservation message answer before
  · exact other reservation message answer after

@[simp] theorem noCommit_nil : NoCommit [] := fun _ _ _ => List.not_mem_nil

@[simp] theorem noCommit_cons {entry : Sigma Answer} {rest : List (Sigma Answer)} :
    NoCommit (entry :: rest) ↔
      (∀ reservation message, entry.1 ≠ .commit reservation message) ∧ NoCommit rest := by
  constructor
  · intro none_
    refine ⟨fun reservation message same => ?_, fun reservation message answer member =>
      none_ reservation message answer (List.mem_cons_of_mem _ member)⟩
    obtain ⟨op, answer⟩ := entry
    cases same
    exact none_ reservation message answer List.mem_cons_self
  · rintro ⟨other, none_⟩ reservation message answer member
    rcases List.mem_cons.mp member with rfl | later
    · exact other reservation message rfl
    · exact none_ reservation message answer later

/-- All that is committed is one message, to the reservation of the guard. -/
def CommitsOnly (guard : ReservationGuard) (assistant : Message) (trace : List (Sigma Answer)) : Prop :=
  ∀ reservation message answer, (⟨.commit reservation message, answer⟩ : Sigma Answer) ∈ trace →
    reservation = guard.reservation ∧ message = assistant

section Committing
variable {guard : ReservationGuard} {assistant : Message} {trace first second : List (Sigma Answer)}

theorem CommitsOnly.append (one : CommitsOnly guard assistant first)
    (other : CommitsOnly guard assistant second) : CommitsOnly guard assistant (first ++ second) := by
  intro reservation message answer member
  rcases List.mem_append.mp member with before | after
  · exact one reservation message answer before
  · exact other reservation message answer after

theorem CommitsOnly.of_none (none_ : NoCommit trace) : CommitsOnly guard assistant trace :=
  fun reservation message answer member => absurd member (none_ reservation message answer)

theorem commit_tries {out : Except ActionError LlmContext.Receipt}
    (performs : Performs (guard.commit assistant) trace out) :
    Tried guard trace ∧ CommitsOnly guard assistant trace := by
  obtain ⟨taken, rest, rfl, goes⟩ := performs_ask.mp performs
  refine ⟨⟨_, taken, List.mem_cons_self⟩, ?_⟩
  cases taken with
  | false =>
    obtain ⟨rfl, -⟩ := performs_done.mp goes
    intro reservation message answer member
    cases List.mem_singleton.mp member
  | true =>
    obtain ⟨committed, rest, rfl, ended⟩ := performs_ask.mp goes
    have own : ∀ {later : List (Sigma Answer)}, NoCommit later → CommitsOnly guard assistant
        (⟨.compareExchange guard .active .committing, true⟩ ::
          ⟨.commit guard.reservation assistant, committed⟩ :: later) := by
      intro later none_ reservation message answer member
      simp only [List.mem_cons] at member
      rcases member with ⟨⟨⟩⟩ | same | late
      · cases same
        exact ⟨rfl, rfl⟩
      · exact absurd late (none_ reservation message answer)
    cases committed with
    | ok receipt =>
      obtain ⟨_, _, rfl, returns⟩ := performs_ask.mp ended
      obtain ⟨rfl, -⟩ := performs_done.mp returns
      exact own (by simp)
    | error e =>
      obtain ⟨_, _, rfl, stores⟩ := performs_ask.mp ended
      obtain ⟨_, _, rfl, returns⟩ := performs_ask.mp stores
      obtain ⟨rfl, -⟩ := performs_done.mp returns
      exact own (by simp)

end Committing

section Frames
variable [Serde] {options : StatefulLlmActionOptions} {guard : ReservationGuard} {owner : Owner}
  {requestFrame : ParsedActionFrame} {context : ActionContext} {trace : List (Sigma Answer)}
  {answer : Except ActionError Unit} {state after : StreamState} {heard : List LlmCompleteStreamChunkDto}

omit [Serde] in
theorem stops_iff {closing : Closing} :
    (closing.chunks.reverse.findIdx? fun chunk => chunk.stopReason.isSome) = none ↔ ¬ closing.Stops := by
  simp [List.findIdx?_eq_none_iff, Closing.Stops]

theorem commitStream_cases {closing : Closing} (sound : ¬ closing.Fails)
    (performs : Performs (commitStream options guard owner requestFrame context closing.frame closing.chunks
      { keptOf heard with terminalSeen := true }) trace (answer, after)) :
    after.terminalSeen = true ∧ CommitsOnly guard (spoken heard) trace ∧
      (Tried guard trace ∨ ∃ e, Refused options owner requestFrame context closing trace e ∧
        answer = .error e ∧ after.resolved = false) := by
  unfold commitStream at performs
  split at performs
  · rename_i endless
    obtain ⟨rfl, rfl, rfl⟩ := performs_done_pair.mp performs
    exact ⟨rfl, .of_none (by simp), .inr ⟨_, .endless sound (stops_iff.mp endless), rfl, rfl⟩⟩
  · rename_i fromEnd found
    have stops : closing.Stops := by
      by_contra endless
      cases found.symm.trans (stops_iff.mpr endless)
    obtain ⟨checked, first, second, rfl, checks, goes⟩ := performs_bind.mp performs
    unfold checkAuthorization at checks
    split at checks
    · rename_i configured
      obtain ⟨allowed, _, rfl, done_⟩ := performs_call.mp checks
      obtain ⟨rfl, rfl⟩ := performs_done.mp done_
      cases checked with
      | error e =>
        obtain ⟨rfl, rfl, rfl⟩ := performs_done_pair.mp goes
        exact ⟨rfl, .of_none (by simp), .inr ⟨_, .unauthorized sound stops configured, rfl, rfl⟩⟩
      | ok u =>
        obtain ⟨cancelled, rest, rfl, goes'⟩ := performs_ask.mp goes
        cases cancelled with
        | true =>
          obtain ⟨rfl, rfl, rfl⟩ := performs_done_pair.mp goes'
          exact ⟨rfl, .of_none (by simp), .inr ⟨_, .cancelled sound stops configured, rfl, rfl⟩⟩
        | false =>
          obtain ⟨committed, third, fourth, rfl, commits, ends⟩ := performs_bind.mp goes'
          obtain ⟨tried, only⟩ := commit_tries commits
          have before : CommitsOnly guard (spoken heard) [⟨.authorizer owner requestFrame.actionId .commit
              (requiredCapabilities requestFrame) context, .ok ()⟩,
              ⟨.isCancelled context.cancellation, false⟩] := .of_none (by simp)
          have here : Tried guard ([⟨.authorizer owner requestFrame.actionId .commit
              (requiredCapabilities requestFrame) context, .ok ()⟩] ++
              ⟨.isCancelled context.cancellation, false⟩ :: (third ++ fourth)) := by
            change Tried guard ([_, _] ++ (third ++ fourth))
            exact (Tried.append_left tried).append_right
          have after_ : after.terminalSeen = true ∧ CommitsOnly guard (spoken heard) fourth := by
            cases committed with
            | error e =>
              obtain ⟨rfl, rfl, rfl⟩ := performs_done_pair.mp ends
              exact ⟨rfl, .of_none (by simp)⟩
            | ok receipt =>
              dsimp only at ends
              split at ends
              · obtain ⟨rfl, rfl, rfl⟩ := performs_done_pair.mp ends
                exact ⟨rfl, .of_none (by simp)⟩
              · obtain ⟨emitted, _, rfl, returns⟩ := performs_ask.mp ends
                obtain ⟨rfl, rfl, rfl⟩ := performs_done_pair.mp returns
                exact ⟨rfl, .of_none (by simp)⟩
          exact ⟨after_.1, before.append (only.append after_.2), .inl here⟩
    · rename_i unconfigured
      obtain ⟨rfl, rfl⟩ := performs_done.mp checks
      obtain ⟨rfl, rfl, rfl⟩ := performs_done_pair.mp goes
      exact ⟨rfl, .of_none (by simp),
        .inr ⟨_, .unconfigured sound stops (Bool.eq_false_iff.mpr unconfigured), rfl, rfl⟩⟩

omit [Serde] in
theorem abort_commits_nothing {errorCode : String} {out : Unit}
    (performs : Performs (guard.abort errorCode) trace out) : NoCommit trace := by
  have only : Only (fun op : Op => ∀ reservation message, op ≠ .commit reservation message)
      (guard.abort errorCode) := by
    refine Only.ask nofun fun taken => ?_
    cases taken with
    | false => trivial
    | true => exact Only.ask nofun fun _ => trivial
  intro reservation message answer member
  exact only.performed performs _ member reservation message rfl

theorem concludeStream_cases {closing : Closing} (performs : Performs (concludeStream options guard owner
      requestFrame context closing.frame closing.chunks (keptOf heard)) trace (answer, after)) :
    after.terminalSeen = true ∧ CommitsOnly guard (spoken heard) trace ∧
      (Tried guard trace ∨ ∃ e, Refused options owner requestFrame context closing trace e ∧
        answer = .error e ∧ after.resolved = false) := by
  unfold concludeStream at performs
  dsimp only at performs
  split at performs
  · obtain ⟨u, first, second, rfl, aborts, goes⟩ := performs_bind.mp performs
    obtain ⟨emitted, _, rfl, returns⟩ := performs_ask.mp goes
    obtain ⟨rfl, rfl, rfl⟩ := performs_done_pair.mp returns
    have last : CommitsOnly guard (spoken heard)
        [⟨.emit { closing.frame with errorCode := some (closing.frame.errorCode.getD nodeUnavailable) },
          answer⟩] := .of_none (by simp)
    exact ⟨rfl, (CommitsOnly.of_none (abort_commits_nothing aborts)).append last, .inl (abort_tries aborts).append_left⟩
  · rename_i sound
    exact commitStream_cases sound performs

/-- A frame before the end is passed over, or it is the last one. -/
theorem coordinateFrame_cases {frame : ActionStreamFrame}
    (performs : Performs (coordinateFrame options guard owner requestFrame context frame (keptOf heard))
      trace (answer, after)) :
    (∃ chunks, Passes context frame trace chunks answer ∧ after = keptOf (heard ++ chunks)) ∨
      ∃ chunks data rest, offered frame = .ok chunks ∧ rewritten chunks = .ok data ∧
        frame.isLast = true ∧ trace = ⟨.isCancelled context.cancellation, false⟩ :: rest ∧
        Performs (concludeStream options guard owner requestFrame context { frame with data }
          (cleared chunks) (keptOf (heard ++ chunks))) rest (answer, after) := by
  obtain ⟨cancelled, rest, rfl, goes⟩ := performs_ask.mp performs
  cases cancelled with
  | true =>
    obtain ⟨rfl, rfl, rfl⟩ := performs_done_pair.mp goes
    exact .inl ⟨[], .cancelled, by rw [List.append_nil]⟩
  | false =>
    rw [if_neg Bool.false_ne_true, if_neg (show ¬ (keptOf heard).terminalSeen = true from nofun)] at goes
    split at goes
    · rename_i e unreadable
      have refuses : offered frame = .error e := by simp only [offered, unreadable]
      obtain ⟨rfl, rfl, rfl⟩ := performs_done_pair.mp goes
      exact .inl ⟨[], .refused refuses, by rw [List.append_nil]⟩
    · rename_i chunks readable
      split at goes
      · rename_i early
        obtain ⟨rfl, rfl, rfl⟩ := performs_done_pair.mp goes
        refine .inl ⟨[], .refused ?_, by rw [List.append_nil]⟩
        simp only [offered, readable, if_pos early]
      · rename_i placed
        have offers : offered frame = .ok chunks := by
          simp only [offered, readable, if_neg placed]
        rw [keptOf_append] at goes
        dsimp only at goes
        split at goes
        · rename_i e unwritten
          obtain ⟨rfl, rfl, rfl⟩ := performs_done_pair.mp goes
          exact .inl ⟨chunks, .unwritten offers unwritten, rfl⟩
        · rename_i data writes
          split at goes
          · rename_i last
            exact .inr ⟨chunks, data, rest, offers, writes, last, rfl, goes⟩
          · rename_i more
            obtain ⟨emitted, _, rfl, returns⟩ := performs_ask.mp goes
            obtain ⟨rfl, rfl, rfl⟩ := performs_done_pair.mp returns
            exact .inl ⟨chunks, .emitted offers writes (Bool.eq_false_iff.mpr more), rfl⟩

end Frames

section Sources
variable [Serde] {options : StatefulLlmActionOptions} {guard : ReservationGuard} {owner : Owner}
  {requestFrame : ParsedActionFrame} {context : ActionContext} {trace : List (Sigma Answer)}
  {source : ActionStream} {result answer : Except ActionError Unit} {state after : StreamState}
  {heard : List LlmCompleteStreamChunkDto}

omit [Serde] in
theorem Passes.commits_nothing [Serde] {frame : ActionStreamFrame}
    {chunks : List LlmCompleteStreamChunkDto} (passes : Passes context frame trace chunks answer) :
    NoCommit trace := by
  cases passes <;> simp

/-- Once the last frame was seen, every other one is refused. -/
theorem runSource_late (seen : state.terminalSeen = true)
    (performs : Performs (runSource options guard owner requestFrame context source state) trace
      (result, after)) :
    after = state ∧ NoCommit trace ∧ (result = .ok () → Excuses context source trace) := by
  induction source generalizing trace with
  | finished answer =>
    obtain ⟨rfl, rfl, rfl⟩ := performs_done_pair.mp performs
    refine ⟨rfl, by simp, fun ok => ?_⟩
    subst ok
    exact .finished
  | emits frame next ih =>
    obtain ⟨⟨told, between⟩, first, second, rfl, once, goes⟩ := performs_bind.mp performs
    obtain ⟨cancelled, rest, rfl, refuses⟩ := performs_ask.mp once
    have refused : rest = [] ∧ told = .error (if cancelled then wasCancelled else afterTerminal) ∧
        between = state := by
      cases cancelled with
      | true =>
        exact performs_done_pair.mp refuses
      | false =>
        rw [if_neg Bool.false_ne_true, if_pos seen] at refuses
        exact performs_done_pair.mp refuses
    obtain ⟨rfl, rfl, rfl⟩ := refused
    obtain ⟨rfl, only, excuses⟩ := ih _ goes
    refine ⟨rfl, ?_, fun ok => .emits (excuses ok)⟩
    exact NoCommit.append (by simp) only

/-- A source either ends without a last frame, with nothing tried, or comes to its last frame. -/
theorem runSource_cases (performs : Performs (runSource options guard owner requestFrame context source
      (keptOf heard)) trace (result, after)) :
    (after.terminalSeen = false ∧ after.resolved = false ∧ NoCommit trace) ∨
      ∃ more closing early first second answer between, trace = early ++ (first ++ second) ∧
        NoCommit early ∧ Reaches context source trace more closing (first ++ second) ∧
        Performs (concludeStream options guard owner requestFrame context closing.frame closing.chunks
          (keptOf (heard ++ more))) first (answer, between) ∧
        Performs (runSource options guard owner requestFrame context (closing.next answer) between) second
          (result, after) := by
  induction source generalizing heard trace with
  | finished answer =>
    obtain ⟨rfl, rfl, rfl⟩ := performs_done_pair.mp performs
    exact .inl ⟨rfl, rfl, by simp⟩
  | emits frame next ih =>
    obtain ⟨⟨told, between⟩, first, second, rfl, once, goes⟩ := performs_bind.mp performs
    rcases coordinateFrame_cases once with
      ⟨chunks, passes, rfl⟩ | ⟨chunks, data, rest, offers, writes, last, rfl, concludes⟩
    · rcases ih told goes with ⟨unseen, unresolved, none_⟩ |
        ⟨more, closing, early, third, fourth, answer, between, rfl, none_, reaches, concludes, runs⟩
      · exact .inl ⟨unseen, unresolved, passes.commits_nothing.append none_⟩
      · rw [List.append_assoc] at concludes
        exact .inr ⟨chunks ++ more, closing, first ++ early, third, fourth, answer, between,
          (List.append_assoc ..).symm, passes.commits_nothing.append none_, .passes passes reaches,
          concludes, runs⟩
    · exact .inr ⟨chunks, ⟨{ frame with data }, cleared chunks, next⟩,
        [⟨.isCancelled context.cancellation, false⟩], rest, second, told, between, rfl,
        by simp, .last offers writes last, concludes, goes⟩

theorem Reaches.append {closing : Closing} {rest : List (Sigma Answer)}
    (reaches : Reaches context source trace heard closing rest) (more : List (Sigma Answer)) :
    Reaches context source (trace ++ more) heard closing (rest ++ more) := by
  induction reaches with
  | passes passes later ih =>
    rw [List.append_assoc]
    exact .passes passes ih
  | last offers writes last => exact .last offers writes last

omit [Serde] in
/-- What the coordinator does once its source has returned: it aborts what it has not resolved, if anything
went wrong. -/
theorem afterwards_cases {written : Except ActionError Unit}
    (performs : Performs (do
      let outcome : Except ActionError Unit := do
        written
        Outcome.ensure state.terminalSeen
          (.internal "stateful llm.complete stream ended without a terminal frame")
      match outcome with
      | .ok () => return .ok ()
      | .error error =>
        if !state.resolved then guard.abort nodeUnavailable
        return .error error) trace result) :
    NoCommit trace ∧ (state.resolved = false → Tried guard trace ∨
      (written = .ok () ∧ state.terminalSeen = true ∧ trace = [])) := by
  dsimp only at performs
  split at performs
  · rename_i well
    obtain ⟨rfl, -⟩ := performs_done.mp performs
    refine ⟨by simp, fun _ => .inr ?_⟩
    cases written with
    | error e => cases well
    | ok u => exact ⟨rfl, Outcome.ensure_ok.mp well, rfl⟩
  · split at performs
    · obtain ⟨u, first, second, rfl, aborts, returns⟩ := performs_bind.mp performs
      obtain ⟨rfl, -⟩ := performs_done.mp returns
      rw [List.append_nil]
      exact ⟨abort_commits_nothing aborts, fun _ => .inl (abort_tries aborts)⟩
    · rename_i resolved
      obtain ⟨rfl, -⟩ := performs_done.mp performs
      refine ⟨by simp, fun unresolved => absurd ?_ resolved⟩
      rw [unresolved]
      rfl

/-- A stream that has been written was abandoned by its source, or its guard was tried; and what is
committed is what was heard up to the last frame. -/
theorem coordinateStream_cases (performs : Performs (coordinateStream options guard owner requestFrame
      context source) trace result) :
    (Abandons options owner requestFrame context source trace ∨ Tried guard trace) ∧
      ∀ reservation assistant told,
        (⟨.commit reservation assistant, told⟩ : Sigma Answer) ∈ trace →
        ∃ heard closing rest, Reaches context source trace heard closing rest ∧
          reservation = guard.reservation ∧ assistant = spoken heard := by
  obtain ⟨⟨written, state⟩, running, ending, rfl, runs, ends⟩ := performs_bind.mp performs
  obtain ⟨quiet, aborts⟩ := afterwards_cases ends
  have runs : Performs (runSource options guard owner requestFrame context source (keptOf [])) running
      (written, state) := runs
  rcases runSource_cases runs with ⟨unseen, unresolved, none_⟩ |
    ⟨heard, closing, early, first, second, answer, between, rfl, none_, reaches, concludes, late⟩
  · refine ⟨.inr ?_, fun reservation assistant told member => ?_⟩
    · rcases aborts unresolved with tried | ⟨-, seen, -⟩
      · exact tried.append_right
      · cases unseen.symm.trans seen
    · exact absurd member (none_.append quiet reservation assistant told)
  · obtain ⟨seen, commits, tried⟩ := concludeStream_cases concludes
    obtain ⟨rfl, quiet', excuses⟩ := runSource_late seen late
    refine ⟨?_, fun reservation assistant told member => ?_⟩
    · rcases tried with tried | ⟨e, refused, rfl, unresolved⟩
      · exact .inr tried.append_left.append_right.append_left
      · rcases aborts unresolved with tried | ⟨rfl, -, rfl⟩
        · exact .inr tried.append_right
        · rw [List.append_nil]
          exact .inl ⟨heard, closing, first, e, second, reaches, refused, excuses rfl⟩
    · have all := (CommitsOnly.of_none none_).append (commits.append (.of_none quiet')) |>.append (.of_none quiet)
      exact ⟨heard, closing, _, reaches.append ending, all reservation assistant told member⟩

end Sources

section Requests
variable [Serde] {options : StatefulLlmActionOptions} {frame : ParsedActionFrame} {context : ActionContext}
  {owner : Owner} {guard other : ReservationGuard} {trace : List (Sigma Answer)} {outcome : Outcome}

omit [Serde] in
theorem failReserved_left {message : String} (performs : Performs (failReserved guard message) trace outcome) :
    leftTo outcome = none := by
  obtain ⟨u, first, second, -, -, returns⟩ := performs_bind.mp performs
  obtain ⟨-, rfl⟩ := performs_done.mp returns
  rfl

theorem concludeUnary_left {result : ActionExecutionResult} {response : LlmCompleteActionResponse}
    (performs : Performs (concludeUnary options frame context owner guard result response) trace outcome) :
    leftTo outcome = none := by
  unfold concludeUnary at performs
  split at performs
  · obtain ⟨u, first, second, -, -, returns⟩ := performs_bind.mp performs
    obtain ⟨-, rfl⟩ := performs_done.mp returns
    exact leftTo_unaryResult
  · obtain ⟨checked, first, second, -, -, goes⟩ := performs_bind.mp performs
    cases checked with
    | error e =>
      obtain ⟨u, first, second, -, -, returns⟩ := performs_bind.mp goes
      obtain ⟨-, rfl⟩ := performs_done.mp returns
      rfl
    | ok u =>
      obtain ⟨cancelled, rest, -, goes'⟩ := performs_ask.mp goes
      cases cancelled with
      | true => exact failReserved_left goes'
      | false =>
        obtain ⟨committed, first, second, -, -, returns⟩ := performs_bind.mp goes'
        cases committed with
        | error e =>
          obtain ⟨-, rfl⟩ := performs_done.mp returns
          rfl
        | ok receipt =>
          obtain ⟨-, rfl⟩ := performs_done.mp returns
          exact leftTo_unaryResult

/-- A completion that leaves its guard to a stream has only asked its provider. -/
theorem executeReserved_left {streaming : Bool} (left : leftTo outcome = some other)
    (performs : Performs (executeReserved options frame context owner guard streaming) trace outcome) :
    other = guard ∧ NoCommit trace := by
  obtain ⟨executed, rest, rfl, goes⟩ := performs_ask.mp performs
  cases executed with
  | error e =>
    obtain ⟨u, first, second, -, -, returns⟩ := performs_bind.mp goes
    obtain ⟨-, rfl⟩ := performs_done.mp returns
    cases left
  | ok result =>
    obtain ⟨cancelled, rest, rfl, goes'⟩ := performs_ask.mp goes
    split at goes'
    · cases (failReserved_left goes').symm.trans left
    · split at goes'
      · split at goes'
        · cases (failReserved_left goes').symm.trans left
        · obtain ⟨rfl, rfl⟩ := performs_done.mp goes'
          exact ⟨(Option.some.inj left).symm, by simp⟩
      · split at goes'
        · cases (failReserved_left goes').symm.trans left
        · split at goes'
          · cases (failReserved_left goes').symm.trans left
          · split at goes'
            · cases (failReserved_left goes').symm.trans left
            · cases (concludeUnary_left goes').symm.trans left

omit [Serde] in
theorem onCancel_commits_nothing {token : Nat} {out : Unit}
    (performs : Performs (onCancel token guard) trace out) : NoCommit trace := by
  obtain ⟨cancelled, rest, rfl, goes⟩ := performs_ask.mp performs
  cases cancelled with
  | true => exact noCommit_cons.mpr ⟨nofun, abort_commits_nothing goes⟩
  | false =>
    obtain ⟨added, rest, rfl, goes'⟩ := performs_ask.mp goes
    cases added with
    | true =>
      obtain ⟨rfl, -⟩ := performs_done.mp goes'
      simp
    | false => exact noCommit_cons.mpr ⟨nofun, noCommit_cons.mpr ⟨nofun, abort_commits_nothing goes'⟩⟩

/-- The reservation of the guard that is left to a stream was made by the request itself, which has
committed nothing so far. -/
def LeavesGuard (guard : ReservationGuard) (trace : List (Sigma Answer)) : Prop :=
  (∃ request, (⟨.reserve request, .ok guard.reservation⟩ : Sigma Answer) ∈ trace) ∧ NoCommit trace

theorem completeReserved_left {request : LlmCompleteActionRequest} {contextRequest : LlmContextRequestDto}
    {binding : LlmContext.Binding} (left : leftTo outcome = some other)
    (performs : Performs (completeReserved options frame context owner request contextRequest binding) trace
      outcome) : LeavesGuard other trace := by
  obtain ⟨reserved, rest, rfl, goes⟩ := performs_ask.mp performs
  cases reserved with
  | error e =>
    obtain ⟨-, rfl⟩ := performs_done.mp goes
    cases left
  | ok reservation =>
    obtain ⟨u, rest, rfl, goes'⟩ := performs_ask.mp goes
    obtain ⟨u', first, second, rfl, listens, executes⟩ := performs_bind.mp goes'
    obtain ⟨rfl, quiet⟩ := executeReserved_left left executes
    have none_ := (onCancel_commits_nothing listens).append quiet
    exact ⟨⟨_, List.mem_cons_self⟩, noCommit_cons.mpr ⟨nofun, noCommit_cons.mpr ⟨nofun, none_⟩⟩⟩

omit [Serde] in
theorem resolveBinding_commits_nothing {request : LlmCompleteActionRequest}
    {contextRequest : LlmContextRequestDto} {out : Except ActionError LlmContext.Binding}
    (performs : Performs (resolveBinding options owner request contextRequest) trace out) :
    NoCommit trace := by
  unfold resolveBinding at performs
  split at performs
  · split at performs
    · obtain ⟨rfl, -⟩ := performs_done.mp performs
      simp
    · obtain ⟨snapshot, rest, rfl, goes⟩ := performs_ask.mp performs
      cases snapshot <;>
      · obtain ⟨rfl, -⟩ := performs_done.mp goes
        simp
  · obtain ⟨rfl, -⟩ := performs_done.mp performs
    simp

omit [Serde] in
theorem provided_left (performs : Performs (do
      return (← ask (.execute frame context)).map served : Program Outcome) trace outcome) :
    leftTo outcome = none := by
  obtain ⟨executed, rest, -, returns⟩ := performs_ask.mp performs
  obtain ⟨-, rfl⟩ := performs_done.mp returns
  cases executed with
  | error e => rfl
  | ok result => cases stream : result.stream <;> simp [leftTo, served, Except.map, stream]

theorem complete_left (left : leftTo outcome = some other)
    (performs : Performs (complete options frame context) trace outcome) : LeavesGuard other trace := by
  unfold complete at performs
  split at performs
  · obtain ⟨-, rfl⟩ := performs_done.mp performs
    cases left
  · split at performs
    · obtain ⟨-, rfl⟩ := performs_done.mp performs
      cases left
    · cases (provided_left performs).symm.trans left
    · split at performs
      · obtain ⟨-, rfl⟩ := performs_done.mp performs
        cases left
      · obtain ⟨-, rfl⟩ := performs_done.mp performs
        cases left
      · obtain ⟨resolved, first, second, rfl, resolves_, goes⟩ := performs_bind.mp performs
        cases resolved with
        | error e =>
          obtain ⟨-, rfl⟩ := performs_done.mp goes
          cases left
        | ok binding =>
          obtain ⟨⟨request, reserved⟩, none_⟩ := completeReserved_left left goes
          exact ⟨⟨request, List.mem_append_right _ reserved⟩,
            (resolveBinding_commits_nothing resolves_).append none_⟩

/-- A request that leaves a guard to a stream made its reservation. -/
theorem execute_left (left : leftTo outcome = some other)
    (performs : Performs (execute options frame context) trace outcome) : LeavesGuard other trace := by
  unfold execute at performs
  split at performs
  · exact complete_left left performs
  · split at performs
    · unfold status at performs
      split at performs
      · obtain ⟨-, rfl⟩ := performs_done.mp performs
        cases left
      · obtain ⟨-, rfl⟩ := performs_done.mp performs
        cases left
      · obtain ⟨answer, rest, rfl, goes⟩ := performs_ask.mp performs
        cases answer with
        | error e =>
          obtain ⟨-, rfl⟩ := performs_done.mp goes
          cases left
        | ok found =>
          dsimp only at goes
          split at goes <;>
          · obtain ⟨-, rfl⟩ := performs_done.mp goes
            cases left
    · split at performs
      · unfold release at performs
        split at performs
        · obtain ⟨-, rfl⟩ := performs_done.mp performs
          cases left
        · obtain ⟨-, rfl⟩ := performs_done.mp performs
          cases left
        · obtain ⟨answer, rest, rfl, goes⟩ := performs_ask.mp performs
          cases answer with
          | error e =>
            obtain ⟨-, rfl⟩ := performs_done.mp goes
            cases left
          | ok receipt =>
            dsimp only at goes
            split at goes <;>
            · obtain ⟨-, rfl⟩ := performs_done.mp goes
              cases left
      · cases (provided_left performs).symm.trans left

/-- The request has returned a stream, which its host has written. -/
def Coordinated (outcome : Outcome) (source : ActionStream) (guard : ReservationGuard) (owner : Owner)
    (requestFrame : ParsedActionFrame) (context : ActionContext) : Prop :=
  ∃ result anchorRef tokenEst, outcome = .ok
    { result, stream := some (.coordinated source guard owner requestFrame context), anchorRef, tokenEst }

theorem serve_cases {source : ActionStream} {requestFrame : ParsedActionFrame} {actionContext : ActionContext}
    (coordinated : Coordinated outcome source guard owner requestFrame actionContext)
    (performs : Performs (serve options frame context) trace outcome) :
    ∃ before writing answer, trace = before ++ writing ∧ LeavesGuard guard before ∧
      Performs (coordinateStream options guard owner requestFrame actionContext source) writing answer := by
  obtain ⟨given, before, writing, rfl, executes, goes⟩ := performs_bind.mp performs
  obtain ⟨result, anchorRef, tokenEst, rfl⟩ := coordinated
  dsimp only at goes
  split at goes
  · obtain ⟨answer, first, second, rfl, writes, returns⟩ := performs_bind.mp goes
    obtain ⟨rfl, same⟩ := performs_done.mp returns
    cases same
    rw [List.append_nil]
    exact ⟨before, first, answer, rfl, execute_left rfl executes, writes⟩
  · rename_i other
    obtain ⟨rfl, rfl⟩ := performs_done.mp goes
    exact (other _ _ _ _ _ _ _ _ rfl).elim

end Requests

def wins (id : String) : Event Answer Call → Bool
  | .act _ (.compareExchange guard .active _) taken => taken && guard.id == id
  | _ => false

def Won (events : List (Event Answer Call)) (id : String) : Prop := ∃ event ∈ events, wins id event = true

def Phase.tried : Phase → Bool
  | idle | reserved _ | guarded _ => false
  | watching | committing _ | aborting _ _ | passed _ => true

section Winning
variable {w after : World} {phases : Nat → Phase} {history : List (Event Answer Call)} {id : String}
  {thread : Nat} {phase next : Phase} {op : Op} {answer : Answer op}

theorem Advances.tried (advances : Advances phase op answer next) (tried : phase.tried = true) :
    next.tried = true := by
  cases advances with
  | apart => exact tried
  | refused | reserved | guarded => cases tried
  | @won _ guard new held closes => cases new <;> rfl
  | _ => rfl

theorem Advances.tries {guard : ReservationGuard} {new : GuardState} {taken : Bool}
    (advances : Advances phase (.compareExchange guard .active new) taken next) : next.tried = true := by
  cases advances with
  | apart plain => exact plain.elim
  | won held closes => cases new <;> rfl
  | _ => rfl

/-- A guard has been won if its reservation has a guard, and the guard is active no longer; and whoever
has tried one is past it. -/
structure Contested (w : World) (phases : Nat → Phase) (history : List (Event Answer Call)) : Prop where
  won_iff : ∀ id, Won history id ↔ id ∈ w.contexts.issued ∧ (∀ thread, phases thread ≠ .reserved id) ∧
    w.guards.lookup id ≠ some .active
  tried : ∀ {thread guard new taken}, .act thread (.compareExchange guard .active new) taken ∈ history →
    (phases thread).tried = true

theorem won_append {event : Event Answer Call} :
    Won (history ++ [event]) id ↔ Won history id ∨ wins id event = true := by
  simp [Won, or_and_right, exists_or]

theorem wins_touches (won : wins id (.act thread op answer) = true) : op.touches answer = some id := by
  unfold wins at won
  split at won
  · rename_i same
    cases same
    simpa [Op.touches] using (Bool.and_eq_true_iff.mp won).2
  · cases won

theorem reserved_update (goes : next = .reserved id ↔ phases thread = .reserved id) :
    (∀ other, Function.update phases thread next other ≠ .reserved id) ↔
      ∀ other, phases other ≠ .reserved id := by
  refine forall_congr' fun other => ?_
  by_cases same : other = thread
  · subst same
    rw [Function.update_self]
    exact not_congr goes
  · rw [Function.update_of_ne same]

theorem Contested.start (contested : Contested w phases history) (unborn : phases thread = .idle)
    (call : Call) :
    Contested w (Function.update phases thread call.start) (history ++ [.start call]) where
  won_iff id := by
    have goes : call.start = .reserved id ↔ phases thread = .reserved id := by
      refine iff_of_false ?_ (by rw [unborn]; nofun)
      unfold Call.start
      split <;> nofun
    rw [won_append, reserved_update goes, ← contested.won_iff]
    simp [wins]
  tried {other guard new taken} happened := by
    rcases List.mem_append.mp happened with before | last
    · have tried := contested.tried before
      have old : other ≠ thread := by
        rintro rfl
        rw [unborn] at tried
        cases tried
      rwa [Function.update_of_ne old]
    · cases List.mem_singleton.mp last

section Steps
variable [Nip.Sha256] [Rfc3339] {store : StoreOptions} {place : Place}

omit [Nip.Sha256] [Rfc3339] in
theorem Contested.stay (contested : Contested w phases history)
    (unwon : wins id (.act thread op answer) = false)
    (issued : id ∈ after.contexts.issued ↔ id ∈ w.contexts.issued)
    (goes : next = .reserved id ↔ phases thread = .reserved id)
    (guarded : after.guards.lookup id = some .active ↔ w.guards.lookup id = some .active) :
    Won (history ++ [.act thread op answer]) id ↔ id ∈ after.contexts.issued ∧
      (∀ other, Function.update phases thread next other ≠ .reserved id) ∧
      after.guards.lookup id ≠ some .active := by
  simp only [won_append, unwon, contested.won_iff, reserved_update goes, issued, ne_eq, guarded,
    Bool.false_eq_true, or_false]

/-- A thread that wins the guard of a reservation. -/
theorem Kept.taken {guard : ReservationGuard} {new : GuardState}
    (kept : Kept w phases history guard.id place) (closes : new ≠ .active) (past : next ≠ .reserved guard.id)
    (exec : exec store (.compareExchange guard .active new) w true after) :
    guard.id ∈ after.contexts.issued ∧
      (∀ other, Function.update phases thread next other ≠ .reserved guard.id) ∧
      after.guards.lookup guard.id ≠ some .active := by
  obtain ⟨active, rfl⟩ := exec
  have guarded := kept.guarded.mp (of_decide_eq_true active.symm)
  refine ⟨kept.issued.mpr ?_, fun other => ?_, ?_⟩
  · intro unmade
    cases place with
    | guard maker => cases unmade
    | _ => cases guarded
  · by_cases same : other = thread
    · subst same
      rwa [Function.update_self]
    · rw [Function.update_of_ne same]
      intro reserved
      have fresh := (kept.standing reserved rfl).reserved
      subst fresh
      cases guarded
  · simp only [if_true, AList.lookup_insert]
    exact fun same => closes (Option.some.inj same)

theorem Contested.touched (contested : Contested w phases history) (sound : LlmContext.Sound store w.contexts)
    (kept : Kept w phases history id place) (advances : Advances (phases thread) op answer next)
    (exec : exec store op w answer after) (touched : op.touches answer = some id) :
    Won (history ++ [.act thread op answer]) id ↔ id ∈ after.contexts.issued ∧
      (∀ other, Function.update phases thread next other ≠ .reserved id) ∧
      after.guards.lookup id ≠ some .active := by
  generalize here : phases thread = phase at advances
  cases advances with
  | apart plain resting =>
    cases op with
    | reserve | newGuard | compareExchange | storeState | commit | abort => exact False.elim plain
    | _ => cases touched
  | refused => cases touched
  | @reserved request reservation =>
    obtain rfl := Option.some.inj touched
    obtain ⟨newReservationId, now, contexts, step, rfl⟩ := exec
    refine iff_of_false (fun won => ?_) (fun ⟨_, past, _⟩ => past thread (Function.update_self ..))
    rcases won_append.mp won with before | last
    · exact step.fresh _ rfl ((contested.won_iff _).mp before).1
    · cases last
  | @guarded reservation =>
    obtain rfl := Option.some.inj touched
    cases exec
    refine iff_of_false (fun won => ?_) (fun ⟨_, _, closed⟩ => closed (AList.lookup_insert _))
    rcases won_append.mp won with before | last
    · exact ((contested.won_iff _).mp before).2.1 thread here
    · cases last
  | @won _ guard new held closes =>
    obtain rfl := Option.some.inj touched
    refine iff_of_true (won_append.mpr (.inr (by simp [wins]))) (kept.taken closes ?_ exec)
    cases new <;> nofun
  | @wonToCancel guard new closes =>
    obtain rfl := Option.some.inj touched
    exact iff_of_true (won_append.mpr (.inr (by simp [wins]))) (kept.taken closes nofun exec)
  | @lost _ guard new held =>
    obtain rfl := Option.some.inj touched
    obtain ⟨-, rfl⟩ := exec
    refine contested.stay rfl Iff.rfl (iff_of_false nofun ?_) Iff.rfl
    rw [here]
    rcases held with rfl | rfl <;> nofun
  | @lostToCancel guard new =>
    obtain rfl := Option.some.inj touched
    obtain ⟨-, rfl⟩ := exec
    exact contested.stay rfl Iff.rfl (iff_of_false nofun (by rw [here]; nofun)) Iff.rfl
  | @noted guard new closes =>
    obtain rfl := Option.some.inj touched
    have guarded := (kept.noted here closes exec).guarded.trans kept.guarded.symm
    cases exec
    exact contested.stay rfl Iff.rfl (iff_of_false nofun (by rw [here]; nofun)) guarded
  | @committed reservation assistant receipt =>
    obtain rfl := Option.some.inj touched
    obtain ⟨factory, now, contexts, step, rfl⟩ := exec
    refine contested.stay rfl ?_ (iff_of_false nofun (by rw [here]; nofun)) Iff.rfl
    rw [step.issued]
    exact Iff.rfl
  | @failed reservation assistant e =>
    obtain rfl := Option.some.inj touched
    obtain ⟨factory, now, contexts, step, rfl⟩ := exec
    refine contested.stay rfl ?_ (iff_of_false nofun (by rw [here]; nofun)) Iff.rfl
    rw [step.issued]
    exact Iff.rfl
  | aborted | cancelled =>
    obtain rfl := Option.some.inj touched
    obtain ⟨now, contexts, step, rfl⟩ := exec
    refine contested.stay rfl ?_ (iff_of_false nofun (by rw [here]; nofun)) Iff.rfl
    rw [step.issued]
    exact Iff.rfl

theorem Contested.act (contested : Contested w phases history) (sound : LlmContext.Sound store w.contexts)
    (all : ∀ id, ∃ place, Kept w phases history id place)
    (advances : Advances (phases thread) op answer next) (exec : exec store op w answer after) :
    Contested after (Function.update phases thread next) (history ++ [.act thread op answer]) where
  won_iff id := by
    by_cases touched : op.touches answer = some id
    · obtain ⟨place, kept⟩ := all id
      exact contested.touched sound kept advances exec touched
    · have same := exec_same exec touched
      have unwon : wins id (.act thread op answer) = false :=
        Bool.eq_false_iff.mpr fun won => touched (wins_touches won)
      refine contested.stay unwon same.issued ?_ (by rw [same.guards])
      rcases advances.apart_of touched with rfl | ⟨before, later⟩
      · exact Iff.rfl
      · refine iff_of_false (fun reserved => later ?_) (fun reserved => before ?_)
        · rw [reserved]
          rfl
        · rw [reserved]
          rfl
  tried {other guard new taken} happened := by
    rcases List.mem_append.mp happened with before | last
    · by_cases same : other = thread
      · subst same
        rw [Function.update_self]
        exact advances.tried (contested.tried before)
      · rw [Function.update_of_ne same]
        exact contested.tried before
    · cases List.mem_singleton.mp last
      rw [Function.update_self]
      exact advances.tries

end Steps

variable [Nip.Sha256] [Rfc3339] [Serde] {options : StatefulLlmActionOptions} {store : StoreOptions}
  {pool : Requests} {events : List (Event Answer Call)}

theorem run_contested {start : Nip.Instant}
    (run : Transition.Run (server options store).Step ⟨{ contexts := { clock := start } }, []⟩ events pool) :
    ∃ phases, Ledger store pool events phases ∧ Contested pool.shared phases events := by
  refine (run.recorded []).invariant
    (P := fun recorded : Requests × List (Event Answer Call) => ∃ phases,
      Ledger store recorded.1 recorded.2 phases ∧ Contested recorded.1.shared phases recorded.2) ?_
    ⟨_, .empty, fun id => iff_of_false (by simp [Won]) (by simp), by simp⟩
  rintro ⟨pool, history⟩ event ⟨after, later⟩ ⟨phases, ledger, contested⟩ ⟨step, rfl⟩
  cases event with
  | start call =>
    cases step
    exact ⟨_, ledger.start call, contested.start (ledger.unborn _ (Nat.le_refl _)) call⟩
  | act thread op answer =>
    obtain ⟨next, advances, kept⟩ := ledger.act step
    have exec : exec store op pool.shared answer after.shared := by
      cases step with
      | act found exec => exact exec
    exact ⟨_, kept, contested.act ledger.sound ledger.kept advances exec⟩

end Winning

/-- Whenever the reservation is committed with this message, the message is the last one of a context. -/
def StoredLast [Nip.Sha256] [Rfc3339] (store : StoreOptions) (reservation : Reservation)
    (assistant : Message) : Prop :=
  ∀ {w after : World} {receipt : LlmContext.Receipt},
    exec store (.commit reservation assistant) w (.ok receipt) after →
    ∃ contextId entry, after.contexts.store.contexts.lookup contextId = some entry ∧
      entry.transcript.getLast? = some assistant

section Written
variable [Nip.Sha256] [Rfc3339] {store : StoreOptions} {reservation : Reservation} {assistant : Message}

theorem stored_last : StoredLast store reservation assistant := by
  rintro w after receipt ⟨factory, now, contexts, step, rfl⟩
  obtain ⟨data, identity, live, committed⟩ := LlmContext.Commits.committed ⟨factory, step⟩
  generalize contexts.store = s at committed ⊢
  cases committed with
  | created expiry adds free => exact ⟨_, _, AList.lookup_insert _, by simp [LlmContext.StoreState.createdEntry]⟩
  | mutated expiry mutates named there =>
    refine ⟨_, _, AList.lookup_insert _, ?_⟩
    unfold LlmContext.StoreState.mutatedEntry
    dsimp only
    split <;> simp

variable [Serde] {options : StatefulLlmActionOptions} {pool : Requests} {events : List (Event Answer Call)}
  {phases : Nat → Phase} {thread : Nat} {frame : ParsedActionFrame} {context : ActionContext}
  {outcome : Option Outcome} {guard : ReservationGuard} {trace : List (Sigma Answer)}

/-- A reservation whose maker has returned with its guard tried ends, or is left to whoever cancels; with
its guard untried by anybody it stays. -/
theorem Ledger.resolved_iff (ledger : Ledger store pool events phases)
    (contested : Contested pool.shared phases events)
    (returned : pool.threads[thread]? = some (.execute frame context, .done outcome)) {request : MutationRequest}
    (made : .act thread (.reserve request) (.ok reservation) ∈ events) :
    (EndedOnce pool events reservation.reservationId ↔
      ¬ LeftToCancel store pool events reservation.reservationId ∧ Won events reservation.reservationId) ∧
      (phases thread = .guarded reservation.reservationId ∨ Won events reservation.reservationId) := by
  obtain ⟨place, kept⟩ := ledger.kept reservation.reservationId
  have maker := kept.made thread request reservation made rfl
  have concerns := kept.holds thread (Place.maker_threads maker)
  have stands := kept.stands thread concerns
  have closed (past : ∀ thread, place ≠ .fresh thread) (open_ : place.guarded = false) :
      Won events reservation.reservationId := by
    refine (contested.won_iff _).mpr ⟨kept.issued.mpr (by simp [maker]), fun other reserved => ?_, ?_⟩
    · exact past _ (kept.standing reserved rfl).reserved
    · exact kept.guarded.not.mpr (by simp [open_])
  have ended : (Call.execute frame context).Ended (phases thread) :=
    ledger.phased.follows thread _ _ returned
  have held : (phases thread).Held reservation.reservationId := by
    obtain idle | ⟨id, passed | ⟨-, untried⟩⟩ := ended
    · rw [idle] at concerns
      cases concerns
    · rw [passed] at concerns ⊢
      exact .inr (congrArg _ (Option.some.inj concerns))
    · rw [untried] at concerns ⊢
      exact .inl (congrArg _ (Option.some.inj concerns))
  generalize phases thread = phase at stands held
  cases stands with
  | guard =>
    have unwon : ¬ Won events reservation.reservationId := fun won =>
      ((contested.won_iff _).mp won).2.2 (kept.guarded.mpr rfl)
    refine ⟨iff_of_false (fun once => once.2 (kept.live.mpr rfl)) fun left => unwon left.2, .inl rfl⟩
  | forestalled _ different =>
    refine ⟨iff_of_false (fun once => once.2 (kept.live.mpr rfl)) fun left => left.1 ?_, .inr ?_⟩
    · exact ledger.cancelling kept different
    · exact closed nofun rfl
  | spent _ =>
    have won := closed nofun rfl
    refine ⟨iff_of_true ⟨kept.resolved, kept.live.not.mpr nofun⟩ ⟨fun left => ?_, won⟩, .inr won⟩
    cases kept.resolved.symm.trans left.1
  | fresh | committing | aborting | cancelling => rcases held with ⟨⟨⟩⟩ | ⟨⟨⟩⟩

/-- When a stream has been written, its reservation has been committed or aborted, once, unless the source
has passed over the refusal of its last frame and nobody else has won the guard, or somebody who cancels
has won the guard and is about to abort. What is committed is what was heard up to the last frame. -/
theorem stream_resolved_iff {start : Nip.Instant} {outcome : Outcome} {source : ActionStream} {owner : Owner}
    {requestFrame : ParsedActionFrame} {actionContext : ActionContext}
    (run : Transition.Run (server options store).Step ⟨{ contexts := { clock := start } }, []⟩ events pool)
    (returned : pool.threads[thread]? = some (.execute frame context, .done (some outcome)))
    (coordinated : Coordinated outcome source guard owner requestFrame actionContext) :
    ∃ before writing answer, actsOf thread events = before ++ writing ∧
      Performs (coordinateStream options guard owner requestFrame actionContext source) writing answer ∧
      (EndedOnce pool events guard.id ↔ ¬ LeftToCancel store pool events guard.id ∧
        (Abandons options owner requestFrame actionContext source writing → Won events guard.id)) ∧
      ∀ assistant receipt, .act thread (.commit guard.reservation assistant) (.ok receipt) ∈ events →
        StoredLast store guard.reservation assistant ∧ ∃ heard closing rest,
          Reaches actionContext source writing heard closing rest ∧ assistant = spoken heard := by
  obtain ⟨phases, ledger, contested⟩ := run_contested run
  have performs : Performs (serve options frame context >>= fun outcome => .done (some outcome))
      (actsOf thread events) (some outcome) := performs_actsOf run returned
  obtain ⟨same, first, second, whole, serves, returns⟩ := performs_bind.mp performs
  obtain ⟨rfl, ⟨⟩⟩ := performs_done.mp returns
  rw [List.append_nil] at whole
  obtain ⟨before, writing, answer, rfl, ⟨⟨request, reserved⟩, none_⟩, writes⟩ := serve_cases coordinated serves
  have acted {op : Op} {told : Answer op} : (⟨op, told⟩ : Sigma Answer) ∈ before ++ writing ↔
      .act thread op told ∈ events := by rw [← whole, mem_actsOf]
  have made := acted.mp (List.mem_append_left writing reserved)
  obtain ⟨ends, untried⟩ := ledger.resolved_iff contested returned made
  obtain ⟨abandoned, commits⟩ := coordinateStream_cases writes
  refine ⟨before, writing, answer, whole, writes, ends.trans ?_, fun assistant receipt happened => ?_⟩
  · refine and_congr_right fun _ => ⟨fun won _ => won, fun settled => ?_⟩
    rcases abandoned with abandoned | ⟨new, taken, tried⟩
    · exact settled abandoned
    · refine untried.resolve_left fun guarded => ?_
      have past := contested.tried (acted.mp (List.mem_append_right before tried))
      rw [guarded] at past
      cases past
  · refine ⟨stored_last, ?_⟩
    have member := (List.mem_append.mp (acted.mpr happened)).resolve_left (none_ _ _ _)
    obtain ⟨heard, closing, rest, reaches, -, spoke⟩ := commits _ _ _ member
    exact ⟨heard, closing, rest, reaches, spoke⟩

end Written

/-- Once the stream of a request has been written, its reservation has ended. -/
def ResolvedOnWrite [Nip.Sha256] [Rfc3339] [Serde] (options : StatefulLlmActionOptions)
    (store : StoreOptions) : Prop :=
  ∀ {start : Nip.Instant} {events : List (Event Answer Call)} {pool : Requests},
    Transition.Run (server options store).Step ⟨{ contexts := { clock := start } }, []⟩ events pool →
    ∀ {thread : Nat} {frame context outcome source guard owner requestFrame actionContext},
      pool.threads[thread]? = some (Call.execute frame context, Prog.done (some outcome)) →
      Coordinated outcome source guard owner requestFrame actionContext → EndedOnce pool events guard.id

namespace Streaming
open scoped Provided

/-- Every request is for a stream into a new context; a chunk that is not null gives a reason to stop. -/
scoped instance serde : Serde where
  readRequest _ := .ok {
    model := "m1"
    stream := true
    messages := [{ role := "user", content := some "hi" }]
    context := some { operation := .create } }
  readResponse _ := .error "no response"
  readChunk
    | .null => .ok { contentDelta := some "hello" }
    | _ => .ok { contentDelta := some "hello", stopReason := some .endTurn }
  readStatus _ := .error "no status"
  readRelease _ := .error "no release"
  writeResponse _ := .ok .null
  writeChunk _ := .ok .null
  writeStatus _ := .ok .null
  writeReceipt _ := .ok .null

def options : StatefulLlmActionOptions := { Provided.options with supportsStream := true }

/-- A source of one frame, which takes no notice of what it is told. -/
def source (payload : Json.Value) : ActionStream :=
  .emits { streamId := "stream-1", seq := 0, isLast := true, data := [payload] } fun _ => .finished (.ok ())

/-- The provider answers with a stream, and nothing is refused. -/
def handler (payload : Json.Value) (op : Op) (w : World) : Answer op × World :=
  match op with
  | .execute _ _ => (.ok { stream := some (source payload) }, w)
  | op => Provided.handler op w

theorem handler_faithful (payload : Json.Value) (op : Op) (w : World) :
    exec Provided.store op w (handler payload op w).1 (handler payload op w).2 := by
  cases op with
  | execute frame context => rfl
  | _ => exact Provided.handler_faithful _ w

def played (payload : Json.Value) (steps : Nat) : List (Event Answer Call) × Requests :=
  (server options Provided.store).play (handler payload)
    [.start (.execute Provided.frame Provided.context), .run 0 steps] Provided.initial

theorem played_run (payload : Json.Value) (steps : Nat) :
    Transition.Run (server options Provided.store).Step Provided.initial (played payload steps).1
      (played payload steps).2 :=
  System.run_play (handler_faithful payload) _ Provided.initial

def owner : Owner := ⟨"urn:nps:agent:example.org:a1", "default"⟩

def guard : ReservationGuard := ⟨Provided.reservation⟩

def outcome (payload : Json.Value) : Outcome := .ok {
  stream := some (.coordinated (source payload) guard owner Provided.frame Provided.context)
  anchorRef := some "nps:system:llm.complete:stream" }

theorem coordinated (payload : Json.Value) : Coordinated (outcome payload) (source payload) guard owner
    Provided.frame Provided.context := ⟨_, _, _, rfl⟩

/-- The last frame gives no reason to stop; it is refused, the source returns, and the context stays busy. -/
theorem stays_reserved : ¬ ∀ (_ : Nip.Sha256) (_ : Rfc3339) (_ : Serde)
    (options : StatefulLlmActionOptions) (store : StoreOptions), ResolvedOnWrite options store := by
  intro claimed
  have returned : (played .null 7).2.threads[0]? =
      some (.execute Provided.frame Provided.context, .done (some (outcome .null))) := rfl
  have ended := claimed Provided.digest Provided.format serde options Provided.store (played_run .null 7)
    returned (coordinated .null)
  exact ended.2 rfl

/-- With a reason to stop the stream is committed. -/
theorem stopped_committed :
    EndedOnce (played (.bool true) 13).2 (played (.bool true) 13).1 "reservation-1" := by
  have returned : (played (.bool true) 13).2.threads[0]? =
      some (.execute Provided.frame Provided.context, .done (some (outcome (.bool true)))) := rfl
  obtain ⟨before, writing, answer, -, -, ends, -⟩ :=
    stream_resolved_iff (played_run (.bool true) 13) returned (coordinated _)
  refine ends.mpr ⟨?_, fun _ => ⟨_, List.mem_of_getElem? (i := 10) rfl, rfl⟩⟩
  rintro ⟨-, -, thread, token, _, _, _, found, -⟩
  match thread with
  | 0 => cases found
  | thread + 1 => cases found

end Streaming

end Nps.Nwp.LlmActionServer
