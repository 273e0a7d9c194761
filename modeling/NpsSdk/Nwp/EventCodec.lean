import NpsSdk.Lib.JsonText
import NpsSdk.Nwp.EventChunks

/-! What a client reads of the events that an anchor writes. -/
namespace Nps.Nwp.AnchorTopology
open Json (Value integer stringArray)
open Machine
open Outcome

/-- What is left of an optional value: null is read as nothing. -/
def keepValue : Option Value → Option Value
  | some .null => none
  | field => field

theorem keepValue_eq_iff {field : Option Value} : keepValue field = field ↔ field ≠ some .null := by
  unfold keepValue
  split
  · simp
  · rename_i other
    simp only [true_iff]
    exact other

theorem readOption_value (field : Option Value) :
    readOption .ok (some (nullable id field)) = .ok (keepValue field) := by
  cases field with
  | none => rfl
  | some value => cases value <;> rfl

section Option
variable {α : Type} {read : Value → Except JsonError α} {write : α → Value}

theorem readOption_nullable (back : ∀ a, read (write a) = .ok a) (some_ : ∀ a, write a ≠ .null)
    (field : Option α) : readOption read (some (nullable write field)) = .ok field := by
  cases field with
  | none => rfl
  | some a =>
    have value : nullable write (some a) = write a := rfl
    rw [value]
    unfold readOption
    split
    · contradiction
    · rename_i null
      exact absurd (Option.some.inj null) (some_ a)
    · rename_i given _ same
      cases Option.some.inj same
      rw [back a]
      rfl

end Option

theorem readStrings_stringArray (texts : List String) : readStrings (stringArray texts) = .ok texts := by
  change (texts.map Value.string).mapM readString = .ok texts
  induction texts with
  | nil => rfl
  | cons text rest ih => simp [List.mapM_cons, readString, ih]

theorem asU64_integer {n : Nat} (small : n < 2 ^ 64) : (integer n).asU64 = some n := if_pos small

theorem readU32_integer (count : UInt32) : readU32 (integer count.toNat) = .ok count := by
  have small := count.toNat_lt
  have wide : count.toNat < 2 ^ 64 := by omega
  rw [readU32, asU64_integer wide]
  simp only [small, if_true, UInt32.ofNat_toNat]

@[simp] theorem readOption_bool (field : Option Bool) :
    readOption readBool (some (nullable .bool field)) = .ok field := by
  have back (truth : Bool) : readBool (.bool truth) = .ok truth := rfl
  exact readOption_nullable back (by simp) field

@[simp] theorem readOption_string (field : Option String) :
    readOption readString (some (nullable .string field)) = .ok field := by
  have back (text : String) : readString (.string text) = .ok text := rfl
  exact readOption_nullable back (by simp) field

@[simp] theorem readOption_strings (field : Option (List String)) :
    readOption readStrings (some (nullable stringArray field)) = .ok field :=
  readOption_nullable readStrings_stringArray (by simp [stringArray]) field

@[simp] theorem readOption_u32 (field : Option UInt32) :
    readOption readU32 (some (nullable (fun count => integer count.toNat) field)) = .ok field :=
  readOption_nullable readU32_integer (by simp [integer]) field

def MemberInfo.received (member : MemberInfo) : MemberInfo :=
  { member with
    capabilities := keepValue member.capabilities
    metrics := keepValue member.metrics }

def MemberChanges.received (changes : MemberChanges) : MemberChanges :=
  { changes with
    capabilities := keepValue changes.capabilities
    metrics := keepValue changes.metrics }

theorem MemberInfo.fromValue_toValue (member : MemberInfo) :
    fromValue member.toValue = .ok member.received := by
  simp [fromValue, toValue, Json.document, structureFields, Json.get, readField, readString,
    readStrings_stringArray, readOption_value, received]

theorem MemberChanges.fromValue_toValue (changes : MemberChanges) :
    fromValue changes.toValue = .ok changes.received := by
  simp [fromValue, toValue, Json.document, structureFields, Json.get, readOption_value, received]

/-- The event that a client reads. -/
def TopologyEvent.received : TopologyEvent → TopologyEvent
  | memberJoined version member => memberJoined version member.received
  | memberLeft version nid => memberLeft version nid
  | memberUpdated version nid changes => memberUpdated version nid changes.received
  | anchorState version field details => anchorState version field (some (details.getD .null))
  | resyncRequired reason => resyncRequired reason

theorem valueGet_envelope (streamId timestamp : String) (ev : TopologyEvent) :
    valueGet "event_type" (eventToEnvelope streamId timestamp ev) = some (.string ev.parts.1) ∧
      valueGet "seq" (eventToEnvelope streamId timestamp ev) =
        ev.parts.2.1.map (fun version => integer version.toNat) ∧
      valueGet "payload" (eventToEnvelope streamId timestamp ev) = some ev.parts.2.2 := by
  refine ⟨?_, ?_, ?_⟩
  · simp (disch := decide) [valueGet, eventToEnvelope, Value.asObject, Json.get_insertSome_ne, Json.get]
  · simp [valueGet, eventToEnvelope, Value.asObject, Json.get]
  · simp (disch := decide) [valueGet, eventToEnvelope, Value.asObject, Json.get_insertSome_ne, Json.get]

/-- The client reads every event that is written, if not always the same. -/
theorem parseEvent_envelope (streamId timestamp : String) (ev : TopologyEvent) :
    parseEvent (eventToEnvelope streamId timestamp ev) = .ok (some ev.received) := by
  obtain ⟨eventType, seq, payload⟩ := valueGet_envelope streamId timestamp ev
  have numbered (version : UInt64) :
      UInt64.ofNat ((integer version.toNat).asU64.getD 0) = version := by
    rw [asU64_integer version.toNat_lt, Option.getD_some, UInt64.ofNat_toNat]
  simp only [parseEvent, eventType, seq, payload, Option.getD_some]
  cases ev with
  | memberJoined version member =>
    simp only [TopologyEvent.parts, Option.map_some, Option.bind_some, numbered,
      MemberInfo.fromValue_toValue]
    rfl
  | memberLeft version nid =>
    simp [TopologyEvent.parts, numbered, textOr, valueGet, Json.document, Value.asObject, Json.get,
      Value.asStr, TopologyEvent.received]
  | memberUpdated version nid changes =>
    simp [TopologyEvent.parts, numbered, textOr, valueGet, Json.document, Value.asObject, Json.get,
      Value.asStr, TopologyEvent.received, MemberChanges.fromValue_toValue, Except.mapError]
  | anchorState version field details =>
    cases details <;>
      simp [TopologyEvent.parts, numbered, textOr, valueGet, Json.document, Value.asObject, Json.get,
        Value.asStr, TopologyEvent.received, nullable]
  | resyncRequired reason =>
    simp [TopologyEvent.parts, textOr, valueGet, Json.document, Value.asObject, Json.get, Value.asStr,
      TopologyEvent.received]

/-- Nothing of the event is null where something could be absent, and the other way round. -/
def TopologyEvent.Survives : TopologyEvent → Prop
  | memberJoined _ member => member.capabilities ≠ some .null ∧ member.metrics ≠ some .null
  | memberUpdated _ _ changes => changes.capabilities ≠ some .null ∧ changes.metrics ≠ some .null
  | anchorState _ _ details => details ≠ none
  | memberLeft _ _ => True
  | resyncRequired _ => True

theorem received_eq_iff (ev : TopologyEvent) : ev.received = ev ↔ ev.Survives := by
  cases ev with
  | memberJoined version member =>
    obtain ⟨⟩ := member
    simp [TopologyEvent.received, MemberInfo.received, TopologyEvent.Survives, keepValue_eq_iff]
  | memberLeft version nid => simp [TopologyEvent.received, TopologyEvent.Survives]
  | memberUpdated version nid changes =>
    obtain ⟨⟩ := changes
    simp [TopologyEvent.received, MemberChanges.received, TopologyEvent.Survives, keepValue_eq_iff]
  | anchorState version field details =>
    cases details <;> simp [TopologyEvent.received, TopologyEvent.Survives]
  | resyncRequired reason => simp [TopologyEvent.received, TopologyEvent.Survives]

theorem received_isResync (ev : TopologyEvent) : ev.received.isResync = ev.isResync := by
  cases ev <;> rfl

/-- The events that are written: up to the first resync and with it. -/
def emitted : List (TopologyEvent × String) → List (TopologyEvent × String)
  | [] => []
  | (ev, timestamp) :: rest =>
    (ev, timestamp) :: if ev.isResync then [] else emitted rest

def envelopeText (streamId : String) (event : TopologyEvent × String) : String :=
  (eventToEnvelope streamId event.2 event.1).text

theorem eventLines_emitted (streamId : String) (events : List (TopologyEvent × String)) :
    (eventLines streamId events).toList =
      (emitted events).flatMap fun event => (envelopeText streamId event).toList ++ ['\n'] := by
  induction events with
  | nil => rfl
  | cons event rest ih =>
    obtain ⟨ev, timestamp⟩ := event
    simp only [eventLines, emitted, line, String.toList_append, List.flatMap_cons, envelopeText]
    split
    · rfl
    · rw [ih]
      rfl

theorem splitChars_lines {lines : List (List Char)} (plain : ∀ line ∈ lines, '\n' ∉ line) :
    Text.splitChars '\n' (lines.flatMap (· ++ ['\n'])) = lines ++ [[]] := by
  induction lines with
  | nil => rfl
  | cons line rest ih =>
    have first := plain line List.mem_cons_self
    have others := ih fun other member => plain other (List.mem_cons_of_mem _ member)
    rw [List.flatMap_cons, List.append_assoc]
    change Text.splitChars '\n' (line ++ '\n' :: rest.flatMap (· ++ ['\n'])) = _
    rw [Text.splitChars_append, Text.splitChars_plain first, others]
    rfl

theorem text_plain (value : Value) : '\n' ∉ value.text.toList := by
  intro member
  exact absurd (Value.text_printable member) (by decide)

theorem trimReturns_text (value : Value) : trimReturns value.text.toList = value.text.toList := by
  rw [trimReturns, List.rdropWhile_eq_self_iff]
  intro nonempty last
  have member := List.getLast_mem nonempty
  rw [decide_eq_true_eq.mp last] at member
  exact absurd (Value.text_printable member) (by decide)

theorem subscribeBody_lines (streamId : String) (resumed : Bool) (events : List (TopologyEvent × String)) :
    (subscribeBody streamId resumed events).toList =
      ((ack streamId resumed).text.toList ::
        (emitted events).map fun event => (envelopeText streamId event).toList).flatMap
          (· ++ ['\n']) := by
  rw [subscribeBody, String.toList_append, eventLines_emitted, List.flatMap_cons, List.flatMap_map]
  simp [line]

section Stream
variable [Nip.Serde] (streamId : String)

/-- The reader of JSON reads the envelope back that was written. -/
def ReadsBack (event : TopologyEvent × String) : Prop :=
  Nip.Serde.fromStr (envelopeText streamId event) = .ok (eventToEnvelope streamId event.2 event.1)

variable {streamId}

theorem takeLine_envelope {event : TopologyEvent × String} (reads : ReadsBack streamId event) :
    takeLine true (envelopeText streamId event).toList =
      ([.ok event.1.received], if event.1.isResync then none else some true) := by
  have parsed : parseEventLine (envelopeText streamId event) = .ok (some event.1.received) := by
    rw [parseEventLine, reads]
    exact parseEvent_envelope streamId event.2 event.1
  unfold envelopeText at parsed ⊢
  simp only [takeLine, trimReturns_text, Value.text_ne_empty, if_false, String.ofList_toList, parsed,
    received_isResync, Bool.true_eq_false]

theorem run_envelopes {events : List (TopologyEvent × String)}
    (reads : ∀ event ∈ emitted events, ReadsBack streamId event) :
    (run takeLine true ((emitted events).map fun event => (envelopeText streamId event).toList)).1 =
      (emitted events).map fun event => .ok event.1.received := by
  induction events with
  | nil => rfl
  | cons event rest ih =>
    obtain ⟨ev, timestamp⟩ := event
    have first := takeLine_envelope (reads _ List.mem_cons_self)
    simp only [emitted, List.map_cons, run, first]
    cases resync : ev.isResync with
    | true => simp
    | false =>
      have others := ih fun event member => reads event (by simp [emitted, resync, member])
      simp [others]

theorem takeLine_ack (value : Value) : takeLine false value.text.toList = ([], some true) := by
  simp only [takeLine, trimReturns_text, Value.text_ne_empty, if_false, if_true]

theorem takeLine_nil (ackSkipped : Bool) : takeLine ackSkipped [] = ([], some ackSkipped) := by
  simp [takeLine, trimReturns]

theorem stream_lines {first : List Char} {lines : List (List Char)} {text : String}
    (spelled : text.toList = (first :: lines).flatMap (· ++ ['\n']))
    (plain : ∀ line ∈ first :: lines, '\n' ∉ line)
    (skipped : takeLine false first = ([], some true)) :
    parseEventStream [Text.utf8 text] = (run takeLine true lines).1 := by
  have started : run takeLine false (first :: lines) = run takeLine true lines := by
    rw [run, skipped, andThen_some]
    rfl
  rw [parseEventStream, run_singleton, takeChunk_utf8, takeText, andThen_assoc, List.nil_append,
    spelled, splitChars_lines plain, List.dropLast_concat, List.getLast?_concat, started]
  rcases run takeLine true lines with ⟨out, _ | ackSkipped⟩
  · rfl
  · simp [takeLine_nil]

theorem stream_received (resumed : Bool) {events : List (TopologyEvent × String)}
    (reads : ∀ event ∈ emitted events, ReadsBack streamId event) :
    parseEventStream [Text.utf8 (subscribeBody streamId resumed events)] =
      (emitted events).map fun event => .ok event.1.received := by
  have plain : ∀ line ∈ (ack streamId resumed).text.toList ::
      (emitted events).map (fun event => (envelopeText streamId event).toList), '\n' ∉ line := by
    intro line member
    rcases List.mem_cons.mp member with first | later
    · rw [first]
      exact text_plain _
    · obtain ⟨event, -, same⟩ := List.mem_map.mp later
      rw [← same]
      exact text_plain _
  rw [stream_lines (subscribeBody_lines streamId resumed events) plain (takeLine_ack _),
    run_envelopes reads]

end Stream

/-- An event is read as it was written, and a stream as its events were up to the first resync, exactly
if nothing in them is null where it could be absent and no state change is without details. -/
theorem codec_faithful_iff [Nip.Serde] (streamId : String) :
    (∀ (timestamp : String) (ev : TopologyEvent),
      parseEvent (eventToEnvelope streamId timestamp ev) = .ok (some ev) ↔ ev.Survives) ∧
    ∀ (resumed : Bool) (events : List (TopologyEvent × String)) (texts : List String),
      (∀ event ∈ emitted events, ReadsBack streamId event) →
      texts.flatMap String.toList = (subscribeBody streamId resumed events).toList →
      (parseEventStream (texts.map Text.utf8) = (emitted events).map (fun event => .ok event.1) ↔
        ∀ event ∈ emitted events, event.1.Survives) := by
  refine ⟨fun timestamp ev => ?_, fun resumed events texts reads joined => ?_⟩
  · rw [parseEvent_envelope, Except.ok.injEq, Option.some.injEq]
    exact received_eq_iff ev
  · rw [texts_alike joined, stream_received resumed reads, List.map_inj_left]
    refine forall₂_congr fun event _ => ?_
    rw [Except.ok.injEq]
    exact received_eq_iff event.1

namespace NoDetails

def time : String := "2026-01-01T00:00:00Z"

def member : MemberInfo where
  nid := "urn:nps:node:w1"
  nodeRoles := ["memory"]
  activationMode := "always"
  memberCount := some 3
  tags := some ["eu"]
  metrics := some (Json.document [("load", integer 2)])

/-- The client has fallen behind, and the event after the resync is not written. -/
def events : List (TopologyEvent × String) :=
  [(.memberJoined 1 member, time), (.anchorState 2 "version_rebased" (some (integer 7)), time),
    (.memberUpdated 3 member.nid { lastSeen := some time, capabilities := some (stringArray []) }, time),
    (.resyncRequired "too_far_behind", time), (.memberLeft 4 member.nid, time)]

abbrev reader (streamId : String) (events : List (TopologyEvent × String)) : Nip.Serde :=
  .table (((emitted events).map fun event => eventToEnvelope streamId event.2 event.1).map fun value =>
    (value.text, value))

theorem lookup_text {values : List Value} {value : Value} (member : value ∈ values) :
    (values.map fun value => (value.text, value)).lookup value.text = some value := by
  induction values with
  | nil => cases member
  | cons first rest ih =>
    rw [List.map_cons, List.lookup_cons]
    by_cases same : value.text = first.text
    · rw [Json.Value.text_injective same, beq_self_eq_true]
    · rw [beq_false_of_ne same]
      refine ih ((List.mem_cons.mp member).resolve_left ?_)
      rintro rfl
      exact same rfl

theorem reader_reads (streamId : String) (events : List (TopologyEvent × String)) :
    letI := reader streamId events
    ∀ event ∈ emitted events, ReadsBack streamId event := by
  intro event member
  have written : eventToEnvelope streamId event.2 event.1 ∈
      (emitted events).map fun event => eventToEnvelope streamId event.2 event.1 :=
    List.mem_map_of_mem member
  simp only [ReadsBack, Nip.Serde.fromStr, envelopeText, lookup_text written]

theorem emitted_events : emitted events = events.take 4 := rfl

/-- In two chunks, the events up to the resync arrive as they were. -/
theorem events_arrive : letI := reader "s" events
    ∀ front rest, front ++ rest = (subscribeBody "s" true events).toList →
      parseEventStream ([String.ofList front, String.ofList rest].map Text.utf8) =
        (events.take 4).map fun event => .ok event.1 := by
  let _ := reader "s" events
  intro front rest parts
  rw [← emitted_events]
  refine ((codec_faithful_iff "s").2 true events [String.ofList front, String.ofList rest]
    (reader_reads "s" events) (by simp [parts])).mpr ?_
  rw [emitted_events]
  simp [events, TopologyEvent.Survives, NoDetails.member, integer, stringArray, Json.document]

/-- It is read as one whose details are null. -/
theorem details_null : ¬ ∀ (streamId timestamp : String) (ev : TopologyEvent),
    parseEvent (eventToEnvelope streamId timestamp ev) = .ok (some ev) := by
  intro claimed
  have same := claimed "s" time (.anchorState 7 "version_rebased" none)
  rw [parseEvent_envelope] at same
  cases same

end NoDetails
end Nps.Nwp.AnchorTopology
