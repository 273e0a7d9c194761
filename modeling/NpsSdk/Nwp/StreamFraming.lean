import NpsSdk.Lib.Traces
import NpsSdk.Nwp.ActionServer

/-! The frames of an action's stream: numbered from zero, ended once, and the same when the stream is
answered again from the cache. -/
namespace Nps.Nwp.ActionServer
open Interaction Prog

/-- The frames of one stream in their order: none but the last one ends it or tells of an error. -/
structure Framed (streamId : String) (frames : List ActionStreamFrame) : Prop where
  addressed : ∀ frame ∈ frames, frame.streamId = streamId
  numbered : frames.map ActionStreamFrame.seq = List.range frames.length
  unended : ∀ frame ∈ frames.dropLast, frame.isLast = false
  errors : ∀ frame ∈ frames, frame.errorCode.isSome → frame.isLast = true

def Ended (frames : List ActionStreamFrame) : Prop :=
  ∃ last, frames.getLast? = some last ∧ last.isLast = true

/-- What was written is in order, and is known to have ended when it has. -/
structure Written.Sound (streamId : String) (written : Written) : Prop where
  framed : Framed streamId written.emitted
  terminal : written.terminal = true ↔ Ended written.emitted

section Frames
variable {streamId : String} {frames : List ActionStreamFrame} {frame : ActionStreamFrame}

@[simp] theorem ended_append : Ended (frames ++ [frame]) ↔ frame.isLast = true := by
  simp [Ended]

theorem not_ended_nil : ¬ Ended [] := by
  rintro ⟨last, ⟨⟩, -⟩

theorem Framed.nil : Framed streamId [] := by
  constructor <;> simp

/-- Frames that have not ended go on with the next number. -/
theorem Framed.append (framed : Framed streamId frames) (open_ : ¬ Ended frames)
    (own : frame.streamId = streamId) (next : frame.seq = frames.length)
    (errors : frame.errorCode.isSome → frame.isLast = true) : Framed streamId (frames ++ [frame]) where
  addressed := by
    simp only [List.mem_append, List.mem_singleton]
    rintro other (before | rfl)
    · exact framed.addressed other before
    · exact own
  numbered := by
    simp [framed.numbered, next, List.range_succ]
  unended := by
    rw [List.dropLast_concat]
    intro other before
    by_contra ends
    have last : some other ≠ frames.getLast? :=
      fun same => open_ ⟨other, same.symm, by simpa using ends⟩
    exact ends (framed.unended other (List.mem_dropLast_of_mem_of_ne_getLast? before last))
  errors := by
    simp only [List.mem_append, List.mem_singleton]
    rintro other (before | rfl)
    · exact framed.errors other before
    · exact errors

theorem Framed.clean (framed : Framed streamId frames)
    (clean : frames.getLast?.any (·.errorCode.isNone) = true) : ∀ frame ∈ frames, frame.errorCode = none := by
  intro frame member
  by_cases last : some frame = frames.getLast?
  · rw [← last] at clean
    exact Option.isNone_iff_eq_none.mp clean
  · have unended := framed.unended frame (List.mem_dropLast_of_mem_of_ne_getLast? member last)
    by_contra failed
    have ends := framed.errors frame member (Option.isSome_iff_ne_none.mpr failed)
    rw [unended] at ends
    cases ends

end Frames

/-- Some look at the token of the stream found it cancelled. -/
def SeenCancelled (cancellation : Nat) (trace : List (Sigma Answer)) : Prop :=
  ⟨.isCancelled cancellation, true⟩ ∈ trace

section Writing
variable {streamId : String} {cancellation : Nat} {supplied : ActionStreamFrame} {written after : Written}
  {answer : Except ActionError Unit} {trace : List (Sigma Answer)}

/-- A frame is written in its turn, under the id of the stream, or refused without a trace. -/
theorem emit_cases
    (performs : Performs (emit streamId cancellation supplied written) trace (answer, after)) :
    (∃ e, answer = .error e ∧ after = written) ∨
      (answer = .ok () ∧ written.terminal = false ∧ supplied.seq = written.emitted.length ∧
        (supplied.errorCode.isSome → supplied.isLast = true) ∧
        after = ⟨written.emitted ++ [{ supplied with streamId }], supplied.isLast⟩) := by
  obtain ⟨cancelled, _, rfl, goes⟩ := performs_ask.mp performs
  split_ifs at goes with stopped terminal early misplaced
  all_goals
    obtain ⟨-, result⟩ := performs_done.mp goes
    obtain ⟨rfl, rfl⟩ := Prod.mk.inj result
  · exact .inl ⟨_, rfl, rfl⟩
  · exact .inl ⟨_, rfl, rfl⟩
  · exact .inl ⟨_, rfl, rfl⟩
  · exact .inl ⟨_, rfl, rfl⟩
  · refine .inr ⟨rfl, by simpa using terminal, by simpa using early, fun failed => ?_, rfl⟩
    by_contra unfinished
    exact misplaced ⟨failed, by simpa using unfinished⟩

theorem Written.Sound.emit (sound : written.Sound streamId)
    (performs : Performs (emit streamId cancellation supplied written) trace (answer, after)) :
    after.Sound streamId := by
  rcases emit_cases performs with ⟨e, -, rfl⟩ | ⟨-, unfinished, next, errors, rfl⟩
  · exact sound
  · have open_ : ¬ Ended written.emitted := by
      rw [← sound.terminal, unfinished]
      exact Bool.false_ne_true
    exact ⟨sound.framed.append open_ rfl next errors, by simp⟩

theorem Written.Sound.start : ({} : Written).Sound streamId where
  framed := .nil
  terminal := ⟨nofun, fun ended => absurd ended not_ended_nil⟩

/-- Whatever a stream emits and makes of the answers, what was written stays in order. -/
theorem Written.Sound.run {stream : ActionStream} (sound : written.Sound streamId)
    (performs : Performs (runStream streamId cancellation stream written) trace (answer, after)) :
    after.Sound streamId := by
  induction stream generalizing written trace with
  | finished result =>
    obtain ⟨-, same⟩ := performs_done.mp performs
    obtain ⟨-, rfl⟩ := Prod.mk.inj same
    exact sound
  | emits frame next ih =>
    obtain ⟨⟨told, between⟩, first, second, rfl, emitted, goes⟩ := performs_bind.mp performs
    exact ih told (sound.emit emitted) goes

end Writing

/-- The frames of a response are in order, and they have ended unless the stream was cancelled; those
that are kept are all of them, without an error. -/
structure Streamed (cancellation : Nat) (trace : List (Sigma Answer))
    (out : ActionResponse × Option (List ActionStreamFrame)) (frames : List ActionStreamFrame) : Prop where
  body : out.1.body = frames.map frameValue
  framed : ∃ streamId, Framed streamId frames
  ended : Ended frames ∨ SeenCancelled cancellation trace
  kept : ∀ cached, out.2 = some cached →
    cached = frames ∧ Ended frames ∧ ∀ frame ∈ frames, frame.errorCode = none

section Streams
variable {cancellation : Nat} {stream : ActionStream} {requestId : Option String}
  {trace : List (Sigma Answer)} {out : ActionResponse × Option (List ActionStreamFrame)}

/-- How a response is put together: from what was written if that has ended or the stream was cancelled,
and with an error frame at its end otherwise. -/
theorem writeStream_cases (performs : Performs (writeStream stream cancellation requestId) trace out) :
    ∃ streamId result written running ending, trace = ⟨.genHex 16, streamId⟩ :: (running ++ ending) ∧
      Performs (runStream streamId cancellation stream {}) running (result, written) ∧
      ((written.terminal = true ∧ out.1.body = written.emitted.map frameValue ∧
          ∀ cached, out.2 = some cached →
            cached = written.emitted ∧ written.emitted.getLast?.any (·.errorCode.isNone) = true) ∨
        (written.terminal = false ∧ SeenCancelled cancellation ending ∧
          out.1.body = written.emitted.map frameValue ∧ out.2 = none) ∨
        (written.terminal = false ∧ out.2 = none ∧ ∃ last : ActionStreamFrame,
          last.streamId = streamId ∧ last.seq = written.emitted.length ∧ last.isLast = true ∧
            out.1.body = (written.emitted ++ [last]).map frameValue)) := by
  obtain ⟨streamId, _, rfl, runs⟩ := performs_ask.mp performs
  obtain ⟨⟨result, written⟩, running, ending, rfl, run, ends⟩ := performs_bind.mp runs
  refine ⟨streamId, result, written, running, ending, rfl, run, ?_⟩
  cases terminal : written.terminal with
  | true =>
    refine .inl ⟨rfl, ?_⟩
    cases result with
    | ok u =>
      simp only [terminal, if_true] at ends
      obtain ⟨-, rfl⟩ := performs_done.mp ends
      refine ⟨rfl, fun cached kept => ?_⟩
      dsimp only at kept
      split at kept
      · cases kept
        exact ⟨rfl, ‹_›⟩
      · cases kept
    | error e =>
      simp only [terminal, if_true] at ends
      obtain ⟨-, rfl⟩ := performs_done.mp ends
      exact ⟨rfl, nofun⟩
  | false =>
    refine .inr ?_
    -- The stream failed, or ended without a terminal frame.
    have failed : ∃ last : ActionStreamFrame, last.streamId = streamId ∧
        last.seq = written.emitted.length ∧ last.isLast = true ∧
        Performs (ask (.isCancelled cancellation) >>= fun cancelled =>
          if cancelled then pure (jsonResponse 200 "application/x-ndjson"
            (requestId.map fun id => ("x-nwp-request-id", id)).toList (written.emitted.map frameValue), none)
          else pure (jsonResponse 200 "application/x-ndjson"
            (requestId.map fun id => ("x-nwp-request-id", id)).toList
            ((written.emitted ++ [last]).map frameValue), none)) ending out := by
      cases result with
      | ok u =>
        simp only [terminal, Bool.false_eq_true, if_false] at ends
        exact ⟨_, rfl, rfl, rfl, ends⟩
      | error e =>
        simp only [terminal, Bool.false_eq_true, if_false] at ends
        exact ⟨_, rfl, rfl, rfl, ends⟩
    obtain ⟨last, own, next, final, asks⟩ := failed
    obtain ⟨cancelled, rest, rfl, goes⟩ := performs_ask.mp asks
    cases cancelled with
    | true =>
      obtain ⟨rfl, rfl⟩ := performs_done.mp goes
      exact .inl ⟨rfl, List.mem_cons_self, rfl, rfl⟩
    | false =>
      obtain ⟨rfl, rfl⟩ := performs_done.mp goes
      exact .inr ⟨rfl, rfl, last, own, next, final, rfl⟩

theorem writeStream_streamed (performs : Performs (writeStream stream cancellation requestId) trace out) :
    ∃ frames, Streamed cancellation trace out frames := by
  obtain ⟨streamId, result, written, running, ending, rfl, run, ends⟩ := writeStream_cases performs
  have sound := Written.Sound.start.run run
  have open_ (unfinished : written.terminal = false) : ¬ Ended written.emitted := by
    rw [← sound.terminal, unfinished]
    exact Bool.false_ne_true
  rcases ends with ⟨terminal, body, kept⟩ | ⟨unfinished, cancelled, body, none_⟩ |
    ⟨unfinished, none_, last, own, next, final, body⟩
  · have ended := sound.terminal.mp terminal
    refine ⟨written.emitted, body, ⟨streamId, sound.framed⟩, .inl ended, fun cached same => ?_⟩
    obtain ⟨all, clean⟩ := kept cached same
    exact ⟨all, ended, sound.framed.clean clean⟩
  · refine ⟨written.emitted, body, ⟨streamId, sound.framed⟩, .inr ?_, fun cached same => ?_⟩
    · exact List.mem_cons_of_mem _ (List.mem_append_right _ cancelled)
    · rw [none_] at same
      cases same
  · refine ⟨written.emitted ++ [last], body, ⟨streamId, ?_⟩, .inl (ended_append.mpr final),
      fun cached same => ?_⟩
    · exact sound.framed.append (open_ unfinished) own next fun _ => final
    · rw [none_] at same
      cases same

end Streams

def under (streamId : String) (frame : ActionStreamFrame) : ActionStreamFrame :=
  { frame with streamId }

section Replaying
variable {origin streamId : String} {cancellation : Nat} {written after : Written}
  {answer result : Except ActionError Unit} {trace : List (Sigma Answer)}

theorem emit_goes {supplied : ActionStreamFrame}
    (performs : Performs (emit streamId cancellation supplied written) trace (answer, after))
    (uncancelled : ¬ SeenCancelled cancellation trace) (unfinished : written.terminal = false)
    (next : supplied.seq = written.emitted.length) (clean : supplied.errorCode = none) :
    answer = .ok () ∧ after = ⟨written.emitted ++ [under streamId supplied], supplied.isLast⟩ := by
  obtain ⟨cancelled, _, rfl, goes⟩ := performs_ask.mp performs
  cases cancelled with
  | true => exact absurd List.mem_cons_self uncancelled
  | false =>
    have placed : ¬ (supplied.errorCode.isSome = true ∧ (!supplied.isLast) = true) := by simp [clean]
    rw [if_neg Bool.false_ne_true, if_neg (by simp [unfinished]), if_neg (not_not.mpr next),
      if_neg placed] at goes
    obtain ⟨-, same⟩ := performs_done.mp goes
    exact Prod.mk.inj same

/-- Frames in order are all written again, one after the other. -/
theorem replay_run {front rest : List ActionStreamFrame} (framed : Framed origin (front ++ rest))
    (clean : ∀ frame ∈ front ++ rest, frame.errorCode = none) (sound : written.Sound streamId)
    (emitted : written.emitted = front.map (under streamId))
    (performs : Performs (runStream streamId cancellation (replayActionStream rest) written) trace
      (result, after)) (uncancelled : ¬ SeenCancelled cancellation trace) :
    result = .ok () ∧ after.emitted = (front ++ rest).map (under streamId) := by
  induction rest generalizing front written trace with
  | nil =>
    obtain ⟨-, same⟩ := performs_done.mp performs
    obtain ⟨rfl, rfl⟩ := Prod.mk.inj same
    rw [List.append_nil]
    exact ⟨rfl, emitted⟩
  | cons frame rest ih =>
    obtain ⟨⟨told, between⟩, first, second, rfl, once, goes⟩ := performs_bind.mp performs
    have unfinished : written.terminal = false := by
      rw [Bool.eq_false_iff, ne_eq, sound.terminal, emitted]
      rintro ⟨last, there, ends⟩
      obtain ⟨before, member, rfl⟩ := List.mem_map.mp (List.mem_of_getLast? there)
      have inside : before ∈ (front ++ frame :: rest).dropLast := by
        rw [List.dropLast_append_cons]
        exact List.mem_append_left _ member
      have open_ := framed.unended before inside
      exact Bool.false_ne_true (open_.symm.trans ends)
    have next : frame.seq = written.emitted.length := by
      have numbered := congrArg (·[front.length]?) framed.numbered
      simpa [emitted] using numbered
    have own : frame ∈ front ++ frame :: rest := List.mem_append_right _ List.mem_cons_self
    have later : ¬ SeenCancelled cancellation first ∧ ¬ SeenCancelled cancellation second := by
      simpa only [SeenCancelled, List.mem_append, not_or] using uncancelled
    obtain ⟨rfl, rfl⟩ := emit_goes once later.1 unfinished next (clean frame own)
    have sound' := sound.emit once
    have whole : front ++ frame :: rest = (front ++ [frame]) ++ rest := by simp
    rw [whole] at framed clean ⊢
    exact ih framed clean sound' (by simp [emitted]) goes later.2

end Replaying

/-- The frames that are kept of a stream are the ones that a replay writes, under its own id. -/
theorem replay_streamed {frames : List ActionStreamFrame} {cancellation : Nat} {requestId : Option String}
    {origin : String} {trace : List (Sigma Answer)}
    {out : ActionResponse × Option (List ActionStreamFrame)} (framed : Framed origin frames)
    (ended : Ended frames) (clean : ∀ frame ∈ frames, frame.errorCode = none)
    (performs : Performs (writeStream (replayActionStream frames) cancellation requestId) trace out)
    (uncancelled : ¬ SeenCancelled cancellation trace) :
    ∃ streamId, out.1.body = (frames.map (under streamId)).map frameValue := by
  obtain ⟨streamId, result, written, running, ending, rfl, run, ends⟩ := writeStream_cases performs
  have quiet : ¬ SeenCancelled cancellation running := by
    intro seen
    exact uncancelled (List.mem_cons_of_mem _ (List.mem_append_left _ seen))
  have sound := Written.Sound.start.run run
  obtain ⟨rfl, emitted⟩ := replay_run (List.nil_append frames ▸ framed) clean .start rfl run quiet
  rw [List.nil_append] at emitted
  have terminal : written.terminal = true := by
    obtain ⟨last, there, final⟩ := ended
    rw [sound.terminal, emitted]
    exact ⟨under streamId last, by rw [List.getLast?_map, there]; rfl, final⟩
  refine ⟨streamId, ?_⟩
  rcases ends with ⟨-, body, -⟩ | ⟨unfinished, -⟩ | ⟨unfinished, -⟩
  · rw [body, emitted]
  · cases terminal.symm.trans unfinished
  · cases terminal.symm.trans unfinished

/-- Every stream of an action is framed in order and ends once, unless it is cancelled; and what is kept
of it is what every replay writes, under an id of its own, unless the replay is cancelled. -/
theorem stream_framed {stream : ActionStream} {cancellation : Nat} {requestId : Option String}
    {trace : List (Sigma Answer)} {out : ActionResponse × Option (List ActionStreamFrame)}
    (performs : Performs (writeStream stream cancellation requestId) trace out) :
    ∃ frames, Streamed cancellation trace out frames ∧
      ∀ {cached}, out.2 = some cached → ∀ {replaying requestId' trace' out'},
        Performs (writeStream (replayActionStream cached) replaying requestId') trace' out' →
        ¬ SeenCancelled replaying trace' →
        ∃ streamId, out'.1.body = (frames.map (under streamId)).map frameValue := by
  obtain ⟨frames, streamed⟩ := writeStream_streamed performs
  refine ⟨frames, streamed, fun {cached} kept => ?_⟩
  intro replaying requestId' trace' out' replays uncancelled
  obtain ⟨rfl, ended, clean⟩ := streamed.kept cached kept
  obtain ⟨origin, framed⟩ := streamed.framed
  exact replay_streamed framed ended clean replays uncancelled

namespace Overrunning

def frame (streamId : String) (seq : Nat) (isLast : Bool) : ActionStreamFrame := { streamId, seq, isLast }

def stream : ActionStream :=
  .emits (frame "" 0 false) fun _ => .emits (frame "" 1 true) fun _ => .emits (frame "" 2 true) fun _ =>
    .finished (.ok ())

def frames : List ActionStreamFrame := [frame "s" 0 false, frame "s" 1 true]

def trace : List (Sigma Answer) :=
  ⟨.genHex 16, "s"⟩ :: List.replicate 3 ⟨.isCancelled 0, false⟩

def out : ActionResponse × Option (List ActionStreamFrame) :=
  (jsonResponse 200 "application/x-ndjson" [] (frames.map frameValue), some frames)

theorem performs : Performs (writeStream stream 0 none) trace out :=
  performs_call.mpr ⟨"s", _, rfl, performs_call.mpr ⟨false, _, rfl, performs_call.mpr ⟨false, _, rfl,
    performs_call.mpr ⟨false, _, rfl, performs_done.mpr ⟨rfl, rfl⟩⟩⟩⟩⟩

/-- The third frame is not written, and the stream has ended once. -/
theorem overrun_framed : out.1.body.length = 2 ∧ ∃ written, Streamed 0 trace out written := by
  obtain ⟨written, streamed, -⟩ := stream_framed performs
  exact ⟨rfl, written, streamed⟩

end Overrunning
end Nps.Nwp.ActionServer
