import NpsSdk.Lib.Outcome
import NpsSdk.Lib.Splitting
import NpsSdk.Nwp.TopologyEvents

/-! What a client of a topology stream is told, however the body comes in chunks. -/
namespace Nps.Nwp.AnchorTopology
open Machine

def parsedLines (ackSkipped : Bool) (lines : List (List Char)) : List (List Char) :=
  ((lines.map trimReturns).filter (· ≠ [])).drop (if ackSkipped then 0 else 1)

theorem parsedLines_cons (ackSkipped : Bool) (line : List Char) (rest : List (List Char)) :
    parsedLines ackSkipped (line :: rest) =
      if trimReturns line = [] then parsedLines ackSkipped rest
      else if ackSkipped = false then parsedLines true rest
      else trimReturns line :: parsedLines true rest := by
  unfold parsedLines
  split_ifs <;> simp_all

theorem chunks_cases (chunks : List (List UInt8)) :
    (∃ texts : List String, chunks = texts.map Text.utf8) ∨
      ∃ (texts : List String) (chunk : List UInt8) (back : List (List UInt8)),
        chunks = texts.map Text.utf8 ++ chunk :: back ∧ Text.ofUtf8? chunk = none := by
  induction chunks with
  | nil => exact .inl ⟨[], rfl⟩
  | cons chunk rest ih =>
    cases decoded : Text.ofUtf8? chunk with
    | none => exact .inr ⟨[], chunk, rest, rfl, decoded⟩
    | some text =>
      have spelled := Text.ofUtf8?_eq_some.mp decoded
      rcases ih with ⟨texts, rfl⟩ | ⟨texts, broken, back, rfl, undecoded⟩
      · exact .inl ⟨text :: texts, by rw [List.map_cons, spelled]⟩
      · exact .inr ⟨text :: texts, broken, back, by rw [List.map_cons, spelled, List.cons_append],
          undecoded⟩

theorem flatten_utf8 (texts : List String) : (texts.map Text.utf8).flatten =
    (texts.flatMap String.toList).flatMap String.utf8EncodeChar := by
  induction texts with
  | nil => rfl
  | cons text rest ih => simp [ih, Text.utf8]

/-- The first broken chunk is one only. -/
theorem broken_unique {texts others : List String} {chunk other : List UInt8}
    {back rest : List (List UInt8)}
    (same : texts.map Text.utf8 ++ chunk :: back = others.map Text.utf8 ++ other :: rest)
    (broken : Text.ofUtf8? chunk = none) (broken' : Text.ofUtf8? other = none) :
    texts = others := by
  induction texts generalizing others with
  | nil =>
    cases others with
    | nil => rfl
    | cons text others =>
      cases same
      rw [Text.ofUtf8?_eq_some.mpr rfl] at broken
      cases broken
  | cons text texts ih =>
    cases others with
    | nil =>
      cases same
      rw [Text.ofUtf8?_eq_some.mpr rfl] at broken'
      cases broken'
    | cons first others =>
      obtain ⟨heads, tails⟩ := List.cons.inj same
      rw [Text.utf8_injective heads, ih tails]

theorem mapError_json {α : Type} {x : Except JsonError α} {e : AnchorTopologyError}
    (failed : x.mapError AnchorTopologyError.json = .error e) : ∃ cause, e = .json cause := by
  cases x with
  | error cause =>
    cases failed
    exact ⟨cause, rfl⟩
  | ok value => cases failed

theorem parseEvent_error {root : Json.Value} {e : AnchorTopologyError}
    (failed : parseEvent root = .error e) : ∀ status body, e ≠ .http status body := by
  intro status body same
  subst same
  unfold parseEvent parseOther at failed
  split at failed
  · split at failed <;> cases failed
  · dsimp only at failed
    split at failed
    · rcases Outcome.bind_error.mp failed with wrong | ⟨member, -, given⟩
      · obtain ⟨cause, ⟨⟩⟩ := mapError_json wrong
      · cases given
    · cases failed
    · rcases Outcome.bind_error.mp failed with wrong | ⟨changes, -, given⟩
      · obtain ⟨cause, ⟨⟩⟩ := mapError_json wrong
      · cases given
    · cases failed
    · cases failed
    · cases failed
  · cases failed

section Reading
variable [Nip.Serde]

theorem takeText_append (s : LineBuffer) (front back : List Char) :
    takeText s (front ++ back) = andThen (takeText s front) fun s => takeText s back := by
  let done := Text.splitChars '\n' (s.buf ++ front)
  have split : Text.splitChars '\n' (s.buf ++ (front ++ back)) =
      done.dropLast ++ Text.splitChars '\n' (done.getLast?.getD [] ++ back) := by
    rw [← List.append_assoc]
    exact Text.splitChars_continue
  have nonempty : Text.splitChars '\n' (done.getLast?.getD [] ++ back) ≠ [] :=
    Text.splitChars_ne_nil
  simp only [takeText, split, List.dropLast_append_of_ne_nil nonempty, run_append, andThen_assoc,
    List.getLast?_append_of_ne_nil _ nonempty, andThen_some, List.nil_append]
  rfl

theorem takeChunk_utf8 (s : LineBuffer) (text : String) :
    takeChunk s (Text.utf8 text) = takeText s text.toList := by
  rw [takeChunk, Text.ofUtf8?_eq_some.mpr rfl]

theorem run_takeText (s : LineBuffer) (text : String) (texts : List String) :
    run takeChunk s ((text :: texts).map Text.utf8) =
      takeText s (text.toList ++ texts.flatMap String.toList) := by
  induction texts generalizing s text with
  | nil => simp [run_singleton, takeChunk_utf8]
  | cons next rest ih =>
    rw [List.map_cons, run, takeChunk_utf8, List.flatMap_cons, takeText_append]
    simp only [ih]

theorem run_texts (texts : List String) :
    run takeChunk {} (texts.map Text.utf8) = takeText {} (texts.flatMap String.toList) := by
  cases texts with
  | nil => rfl
  | cons text texts => exact run_takeText {} text texts

/-- The last line that is read: an error, or the event that asks for a new snapshot. -/
def endsStream (line : List Char) : Bool :=
  match parseEventLine (String.ofList line) with
  | .ok (some ev) => ev.isResync
  | .ok none => false
  | .error _ => true

theorem run_takeLine_stopped (ackSkipped : Bool) (lines : List (List Char)) :
    (run takeLine ackSkipped lines).2 = none ↔
      ∃ line ∈ parsedLines ackSkipped lines, endsStream line = true := by
  induction lines generalizing ackSkipped with
  | nil => simp [run, parsedLines]
  | cons line rest ih =>
    rw [run, parsedLines_cons, takeLine]
    split_ifs with empty unskipped
    · simp [ih]
    · simp [ih]
    · rw [List.exists_mem_cons_iff, endsStream, ← ih]
      generalize parseEventLine (String.ofList (trimReturns line)) = parsed
      cases parsed with
      | error e => simp
      | ok event =>
        cases event with
        | none => simp
        | some ev => cases resync : ev.isResync <;> simp [resync]

/-- No line that is complete ends the stream. -/
def StillReading (text : List Char) : Prop :=
  ∀ line ∈ parsedLines false (Text.splitChars '\n' text).dropLast, endsStream line = false

theorem takeText_stopped (text : List Char) :
    (takeText {} text).2 = none ↔ ¬ StillReading text := by
  have stopped := run_takeLine_stopped false (Text.splitChars '\n' text).dropLast
  unfold takeText StillReading
  simp only [List.nil_append, not_forall, Bool.not_eq_false, exists_prop]
  rw [← stopped]
  obtain ⟨out, _ | s⟩ := run takeLine false (Text.splitChars '\n' text).dropLast <;> simp

/-- What is not the complaint about characters. -/
def OfLine (item : Item) : Prop := ∀ status body, item ≠ .error (.http status body)

theorem takeLine_ofLine (ackSkipped : Bool) (chars : List Char) :
    ∀ item ∈ (takeLine ackSkipped chars).1, OfLine item := by
  intro item member status body
  unfold takeLine parseEventLine at member
  dsimp only at member
  split_ifs at member
  · cases member
  · cases member
  · split at member <;> rename_i parsed
    · cases List.mem_singleton.mp member
      nofun
    · cases member
    · cases List.mem_singleton.mp member
      intro same
      cases same
      split at parsed
      · cases parsed
      · exact parseEvent_error parsed status body rfl

theorem whole_ofLine (text : String) : ∀ item ∈ parseEventStream [Text.utf8 text], OfLine item := by
  rw [parseEventStream, run_singleton, takeChunk_utf8, takeText, andThen_assoc]
  have lines := run_out OfLine takeLine_ofLine false (Text.splitChars '\n' text.toList).dropLast
  intro item member
  rcases taken : run takeLine false (Text.splitChars '\n' text.toList).dropLast with
    ⟨out, _ | ackSkipped⟩
  · rw [taken] at lines
    simp only [List.nil_append, taken, andThen_stopped] at member
    exact lines item member
  · rw [taken] at lines
    simp only [List.nil_append, taken, andThen_some, List.mem_append] at member
    rcases member with before | last
    · exact lines item before
    · exact takeLine_ofLine _ _ item last

/-- Up to where the stream is over no chunk breaks a character. -/
def WholeCharacters (chunks : List (List UInt8)) : Prop :=
  ∀ (texts : List String) (chunk : List UInt8) (back : List (List UInt8)),
    chunks = texts.map Text.utf8 ++ chunk :: back → StillReading (texts.flatMap String.toList) →
    (Text.ofUtf8? chunk).isSome

/-- Chunks of whole characters are read like the text that they make up. -/
theorem texts_alike {texts : List String} {text : String}
    (joined : texts.flatMap String.toList = text.toList) :
    parseEventStream (texts.map Text.utf8) = parseEventStream [Text.utf8 text] := by
  rw [parseEventStream, parseEventStream, run_texts, run_singleton, takeChunk_utf8, joined]

theorem stream_broken {texts : List String} {chunk : List UInt8} (back : List (List UInt8))
    (broken : Text.ofUtf8? chunk = none) :
    parseEventStream (texts.map Text.utf8 ++ chunk :: back) =
      (andThen (takeText {} (texts.flatMap String.toList)) fun _ =>
        (([.error (.http 0 "stream contained invalid UTF-8")], none) : Reading Item Bool)).1 := by
  have stops (s : LineBuffer) : run takeChunk s (chunk :: back) =
      ([.error (.http 0 "stream contained invalid UTF-8")], none) := by
    rw [run, takeChunk, broken, andThen_stopped]
  rw [parseEventStream, run_append, run_texts, andThen_assoc]
  simp only [stops, andThen_stopped]

theorem stream_whole {text : String} {front rest : List Char} (parts : text.toList = front ++ rest) :
    parseEventStream [Text.utf8 text] =
      (andThen (takeText {} front) fun s =>
        andThen (takeText s rest) fun s => takeLine s.ackSkipped s.buf).1 := by
  rw [parseEventStream, run_singleton, takeChunk_utf8, parts, takeText_append, andThen_assoc]

omit [Nip.Serde] in
theorem text_of_broken {texts : List String} {chunk : List UInt8} {back : List (List UInt8)} {text : String}
    (split : (texts.map Text.utf8 ++ chunk :: back).flatten = Text.utf8 text) :
    ∃ rest, text.toList = texts.flatMap String.toList ++ rest := by
  obtain ⟨rest, parts, -⟩ : ∃ rest, text.toList = texts.flatMap String.toList ++ rest ∧
      (chunk :: back).flatten = rest.flatMap String.utf8EncodeChar := by
    apply Text.utf8_prefix
    rw [← flatten_utf8, ← List.flatten_append]
    exact split
  exact ⟨rest, parts⟩

/-- A broken chunk is told as an error while the client is reading, and the text has none. -/
theorem broken_unlike {texts : List String} {chunk : List UInt8} {back : List (List UInt8)} {text : String}
    (split : (texts.map Text.utf8 ++ chunk :: back).flatten = Text.utf8 text)
    (broken : Text.ofUtf8? chunk = none) (reading : StillReading (texts.flatMap String.toList)) :
    parseEventStream (texts.map Text.utf8 ++ chunk :: back) ≠ parseEventStream [Text.utf8 text] := by
  obtain ⟨rest, parts⟩ := text_of_broken split
  intro same
  have clean := whole_ofLine text
  rw [← same, stream_broken back broken] at clean
  rcases taken : takeText {} (texts.flatMap String.toList) with ⟨out, _ | s⟩
  · exact (takeText_stopped _).mp (by rw [taken]) reading
  · rw [taken] at clean
    exact clean _ (List.mem_append_right _ (List.mem_singleton_self _)) 0 _ rfl

/-- The client is told the same of a body in chunks as of the whole exactly if no chunk breaks a
character while it is still reading. -/
theorem chunks_alike_iff {text : String} {chunks : List (List UInt8)}
    (split : chunks.flatten = Text.utf8 text) :
    parseEventStream chunks = parseEventStream [Text.utf8 text] ↔ WholeCharacters chunks := by
  rcases chunks_cases chunks with ⟨texts, rfl⟩ | ⟨texts, chunk, back, rfl, broken⟩
  · have joined : text.toList = texts.flatMap String.toList := by
      have spelled : Text.utf8 (String.ofList (texts.flatMap String.toList)) = Text.utf8 text := by
        rw [Text.utf8, String.toList_ofList, ← flatten_utf8, split]
      rw [← Text.utf8_injective spelled, String.toList_ofList]
    refine iff_of_true (texts_alike joined.symm) fun others chunk back whole _ => ?_
    have member : chunk ∈ texts.map Text.utf8 := by
      rw [whole]
      simp
    obtain ⟨part, -, rfl⟩ := List.mem_map.mp member
    rw [Text.ofUtf8?_eq_some.mpr rfl]
    rfl
  · obtain ⟨rest, parts⟩ := text_of_broken split
    by_cases reading : StillReading (texts.flatMap String.toList)
    · refine iff_of_false (broken_unlike split broken reading) fun whole => ?_
      have decoded := whole texts chunk back rfl reading
      rw [broken] at decoded
      cases decoded
    · have stopped := (takeText_stopped _).mpr reading
      rw [stream_broken back broken, stream_whole parts]
      refine iff_of_true ?_ fun others other more same still => ?_
      · rcases taken : takeText {} (texts.flatMap String.toList) with ⟨out, _ | s⟩
        · rfl
        · rw [taken] at stopped
          cases stopped
      · cases decoded : Text.ofUtf8? other with
        | some text => rfl
        | none =>
          cases broken_unique same broken decoded
          exact absurd still reading

end Reading

namespace Accent

def left : String :=
  "\x7b\"event_type\":\"member_left\",\"payload\":\x7b\"nid\":\"urn:nps:node:café\"\x7d,\"seq\":1\x7d"

def leftValue : Json.Value :=
  .object [("event_type", .string "member_left"),
    ("payload", .object [("nid", .string "urn:nps:node:café")]), ("seq", Json.integer 1)]

def body : String := "\x7b\"kind\":\"ack\"\x7d\n" ++ left ++ "\n"

/-- The body in two chunks, with one byte of the accented letter in each. -/
def chunks : List (List UInt8) := [(Text.utf8 body).take 78, (Text.utf8 body).drop 78]

abbrev reader : Nip.Serde := .table [(left, leftValue)]

theorem chunks_flatten : chunks.flatten = Text.utf8 body := by simp [chunks]

theorem chunks_alike : letI := reader
    (parseEventStream chunks = parseEventStream [Text.utf8 body] ↔ WholeCharacters chunks) :=
  letI := reader
  chunks_alike_iff chunks_flatten

/-- The event of the body is lost when its chunks share a character. -/
theorem chunks_differ : ¬ ∀ (_ : Nip.Serde) (text : String) (chunks : List (List UInt8)),
    chunks.flatten = Text.utf8 text →
    parseEventStream chunks = parseEventStream [Text.utf8 text] := by
  intro claimed
  let serde := reader
  have split : (([] : List String).map Text.utf8 ++ (Text.utf8 body).take 78 ::
      [(Text.utf8 body).drop 78]).flatten = Text.utf8 body := chunks_flatten
  have broken : Text.ofUtf8? ((Text.utf8 body).take 78) = none := by decide +kernel
  have reading : StillReading (([] : List String).flatMap String.toList) := by
    intro line member
    cases member
  exact @broken_unlike reader _ _ _ _ split broken reading (claimed reader body chunks chunks_flatten)

end Accent
end Nps.Nwp.AnchorTopology
