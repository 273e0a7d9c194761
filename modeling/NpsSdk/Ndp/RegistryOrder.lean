import Mathlib.Logic.Function.Basic
import NpsSdk.Ndp.RegistryAdmission

/-! What the order of announcements does not change. Of an announcement and of an entry only what
counts is kept; a registry is then a map of slots, one for each node, in which the announcements of
one batch commute. -/
namespace Nps.Ndp
open Json Transition

theorem fieldSame_refl (a : Option Value) : fieldSame a a = true := by
  cases a with
  | none => rfl
  | some a => exact a.same_refl

theorem fieldSame_comm (a b : Option Value) : fieldSame a b = fieldSame b a := by
  cases a <;> cases b <;> first | rfl | exact Value.same_comm _ _

theorem fieldSame_congr {a b : Option Value} (same : fieldSame a b = true) (c : Option Value) :
    fieldSame a c = fieldSame b c := by
  cases a <;> cases b <;> first | rfl | cases same | skip
  cases c <;> first | rfl | exact Value.same_congr same _

/-- Frames with one liveness. -/
def livenessSetoid : Setoid Value where
  r left right := sameLiveness left right = true
  iseqv :=
    { refl := fun frame => by rw [sameLiveness, fieldSame_refl, fieldSame_refl, Bool.and_self]
      symm := fun {left right} same => by
        rw [sameLiveness, fieldSame_comm, fieldSame_comm (valueGet "last_seen" right)]
        exact same
      trans := fun {left middle right} first second => by
        obtain ⟨health, seen⟩ := Bool.and_eq_true_iff.mp first
        rw [sameLiveness, fieldSame_congr health, fieldSame_congr seen]
        exact second }

/-- What counts of an entry. -/
structure Held where
  digest : String
  expiresAt : Int
  liveness : Quotient livenessSetoid

structure Beat where
  nid : String
  sequence : Nat
  digest : String
  removes : Bool
  deadline : Option Int
  liveness : Quotient livenessSetoid

abbrev Slot := Option Nat × Option Held

namespace Beat
open Classical in
noncomputable def settle (beat : Beat) (slot : Slot) : Slot :=
  let made := beat.deadline.map fun expiresAt => (⟨beat.digest, expiresAt, beat.liveness⟩ : Held)
  if slot.1 = some beat.sequence then
    (slot.1, slot.2.map fun held =>
      if held.digest = beat.digest ∧ held.liveness ≠ beat.liveness then made.getD held else held)
  else if ∀ highest ∈ slot.1, highest < beat.sequence then
    if beat.removes then (some beat.sequence, none)
    else match made with
      | some held => (some beat.sequence, some held)
      | none => slot
  else slot

theorem settle_below {beat : Beat} {slot : Slot} {highest : Nat} (known : slot.1 = some highest)
    (below : beat.sequence < highest) : beat.settle slot = slot := by
  have different : slot.1 ≠ some beat.sequence := by
    rw [known]
    intro same
    have := Option.some.inj same
    omega
  have passed : ¬ ∀ highest ∈ slot.1, highest < beat.sequence := by
    intro above
    have := above highest known
    omega
  simp only [settle, if_neg different, if_neg passed]

theorem settle_fst (beat : Beat) (slot : Slot) :
    (beat.settle slot).1 = slot.1 ∨ (beat.settle slot).1 = some beat.sequence := by
  unfold settle
  dsimp only
  split_ifs
  · exact .inl rfl
  · exact .inr rfl
  · split
    · exact .inr rfl
    · exact .inl rfl
  · exact .inl rfl

section
variable {beat : Beat} {slot : Slot}

theorem settle_removes (above : ∀ highest ∈ slot.1, highest < beat.sequence)
    (removes : beat.removes = true) : beat.settle slot = (some beat.sequence, none) := by
  have different : slot.1 ≠ some beat.sequence := fun same => lt_irrefl _ (above _ same)
  simp only [settle, if_neg different, if_pos above, removes, if_true]

theorem settle_stale (above : ∀ highest ∈ slot.1, highest < beat.sequence)
    (lasting : beat.removes = false) (passed : beat.deadline = none) : beat.settle slot = slot := by
  have different : slot.1 ≠ some beat.sequence := fun same => lt_irrefl _ (above _ same)
  simp only [settle, if_neg different, if_pos above, lasting, passed]
  rfl

theorem settle_new {expiresAt : Int} (above : ∀ highest ∈ slot.1, highest < beat.sequence)
    (lasting : beat.removes = false) (deadline : beat.deadline = some expiresAt) :
    beat.settle slot = (some beat.sequence, some ⟨beat.digest, expiresAt, beat.liveness⟩) := by
  have different : slot.1 ≠ some beat.sequence := fun same => lt_irrefl _ (above _ same)
  simp only [settle, if_neg different, if_pos above, lasting, deadline]
  rfl

theorem settle_again (same : slot.1 = some beat.sequence)
    (idle : ∀ held, slot.2 = some held →
      held.digest ≠ beat.digest ∨ held.liveness = beat.liveness ∨ beat.deadline = none) :
    beat.settle slot = slot := by
  obtain ⟨highest, _ | held⟩ := slot
  · simp only [settle, if_pos same, Option.map_none]
  · simp only [settle, if_pos same, Option.map_some, Prod.mk.injEq, Option.some.injEq, true_and]
    rcases idle held rfl with other | alike | passed
    · rw [if_neg fun both => other both.1]
    · rw [if_neg fun both => both.2 alike]
    · rw [passed]
      exact ite_self held

theorem settle_refresh {held : Held} {expiresAt : Int} (same : slot.1 = some beat.sequence)
    (found : slot.2 = some held) (body : held.digest = beat.digest)
    (changed : held.liveness ≠ beat.liveness) (deadline : beat.deadline = some expiresAt) :
    beat.settle slot = (slot.1, some ⟨beat.digest, expiresAt, beat.liveness⟩) := by
  simp only [settle, if_pos same, found, Option.map_some, if_pos (And.intro body changed), deadline]
  rfl

end

theorem settle_above (beat : Beat) : (∀ slot : Slot, (∀ highest ∈ slot.1, highest < beat.sequence) →
      beat.settle slot = slot) ∨
    ∃ held, ∀ slot : Slot, (∀ highest ∈ slot.1, highest < beat.sequence) →
      beat.settle slot = (some beat.sequence, held) := by
  cases removes : beat.removes with
  | true => exact .inr ⟨none, fun slot above => settle_removes above removes⟩
  | false =>
    cases deadline : beat.deadline with
    | none => exact .inl fun slot above => settle_stale above removes deadline
    | some expiresAt => exact .inr ⟨_, fun slot above => settle_new above removes deadline⟩

/-- Of two announcements, the one with the lower sequence may as well come first or last. -/
theorem settle_comm_lt {low high : Beat} (lower : low.sequence < high.sequence) (slot : Slot) :
    low.settle (high.settle slot) = high.settle (low.settle slot) := by
  by_cases above : ∀ highest ∈ slot.1, highest < high.sequence
  · have lowAbove : ∀ highest ∈ (low.settle slot).1, highest < high.sequence := by
      rcases low.settle_fst slot with same | made
      · rwa [same]
      · rw [made]
        intro highest member
        cases Option.mem_some_iff.mp member
        exact lower
    rcases high.settle_above with idle | ⟨held, makes⟩
    · rw [idle slot above, idle _ lowAbove]
    · rw [makes slot above, makes _ lowAbove]
      exact settle_below rfl lower
  · obtain ⟨highest, known, reached⟩ : ∃ highest, slot.1 = some highest ∧ high.sequence ≤ highest := by
      simpa only [Option.mem_def, not_forall, not_lt, exists_prop] using above
    have still : (high.settle slot).1 = some highest := by
      rcases lt_or_eq_of_le reached with less | equal
      · rw [settle_below known less, known]
      · rcases high.settle_fst slot with same | made
        · rw [same, known]
        · rw [made, equal]
    have idle : low.settle slot = slot := settle_below known (by omega)
    rw [settle_below still (by omega), idle]

theorem settle_comm {first second : Beat} (agree : first.sequence = second.sequence → first = second)
    (slot : Slot) : first.settle (second.settle slot) = second.settle (first.settle slot) := by
  rcases lt_trichotomy first.sequence second.sequence with less | equal | greater
  · exact settle_comm_lt less slot
  · rw [agree equal]
  · exact (settle_comm_lt greater slot).symm

noncomputable def absorb (slots : String → Slot) (beat : Beat) : String → Slot :=
  Function.update slots beat.nid (beat.settle (slots beat.nid))

theorem absorb_comm {first second : Beat}
    (agree : first.nid = second.nid → first.sequence = second.sequence → first = second)
    (slots : String → Slot) : absorb (absorb slots first) second = absorb (absorb slots second) first := by
  by_cases same : first.nid = second.nid
  · simp only [absorb, same, Function.update_self, Function.update_idem]
    rw [settle_comm (agree same)]
  · have other := Ne.symm same
    simp only [absorb, Function.update_of_ne same, Function.update_of_ne other]
    exact Function.update_comm same _ _ _

end Beat

def Entry.held (entry : Entry) : Held :=
  ⟨entry.signedDigest, entry.expiresAt, Quotient.mk livenessSetoid entry.frame⟩

namespace NdpRegistryProfile

def slots (registry : NdpRegistryProfile) (nid : String) : Slot :=
  (registry.sequences.lookup nid, (registry.entries.lookup nid).map Entry.held)

section
variable {registry : NdpRegistryProfile} {nid : String} {sequence : Nat} {entry : Entry}

theorem slots_eq_update {after : NdpRegistryProfile} {slot : Slot} (here : after.slots nid = slot)
    (elsewhere : ∀ other ≠ nid, after.slots other = registry.slots other) :
    after.slots = Function.update registry.slots nid slot := by
  funext other
  by_cases same : other = nid
  · rw [same, Function.update_self, here]
  · rw [Function.update_of_ne same, elsewhere other same]

theorem slots_refreshed :
    ({ registry with entries := registry.entries.insert nid entry } : NdpRegistryProfile).slots =
      Function.update registry.slots nid (registry.sequences.lookup nid, some entry.held) := by
  refine slots_eq_update ?_ fun other different => ?_
  · simp [slots]
  · simp [slots, AList.lookup_insert_ne different]

theorem slots_advanced :
    ({ registry with
      sequences := registry.sequences.insert nid sequence
      entries := registry.entries.insert nid entry } : NdpRegistryProfile).slots =
      Function.update registry.slots nid (some sequence, some entry.held) := by
  refine slots_eq_update ?_ fun other different => ?_
  · simp [slots]
  · simp [slots, AList.lookup_insert_ne different]

theorem slots_removed :
    ({ registry with
      sequences := registry.sequences.insert nid sequence
      entries := registry.entries.erase nid } : NdpRegistryProfile).slots =
      Function.update registry.slots nid (some sequence, none) := by
  refine slots_eq_update ?_ fun other different => ?_
  · simp [slots]
  · simp [slots, AList.lookup_insert_ne different, AList.lookup_erase_ne different]

theorem absorb_idle {beat : Beat} (idle : beat.settle (registry.slots beat.nid) = registry.slots beat.nid) :
    registry.slots = beat.absorb registry.slots :=
  (Function.update_eq_self_iff.mpr idle).symm

end

def beatOf [Nip.TimeText] (call : Call) (announced : Announced) (digest : String) : Beat :=
  { nid := announced.nid, sequence := announced.sequence, digest
    removes := decide (announced.ttl = 0)
    deadline := (freshnessDeadline announced.object).filter (call.receivedAt < ·)
    liveness := Quotient.mk livenessSetoid call.frame }

section
variable [Nip.TimeText] {registry : NdpRegistryProfile} {call : Call} {announced : Announced}
  {digest : String}

theorem beatOf_deadline_none (passed : ∀ expiresAt, freshnessDeadline announced.object = some expiresAt →
      expiresAt ≤ call.receivedAt) : (beatOf call announced digest).deadline = none := by
  rw [beatOf, Option.filter_eq_none_iff]
  intro expiresAt deadline
  exact fun fresh => absurd (of_decide_eq_true fresh) (not_lt.mpr (passed expiresAt deadline))

theorem beatOf_deadline_some {expiresAt : Int} (deadline : freshnessDeadline announced.object = some expiresAt)
    (fresh : ¬ expiresAt ≤ call.receivedAt) :
    (beatOf call announced digest).deadline = some expiresAt := by
  rw [beatOf, deadline, Option.filter_some, if_pos (decide_eq_true (not_le.mp fresh))]

theorem advanced_slots
    (above : ∀ highest ∈ registry.sequences.lookup announced.nid, highest < announced.sequence) :
    (registry.advanced call.frame announced digest call.receivedAt).2.slots =
      (beatOf call announced digest).absorb registry.slots := by
  unfold NdpRegistryProfile.advanced
  split
  · rename_i ended
    have removes : (beatOf call announced digest).removes = true := decide_eq_true ended
    rw [Beat.absorb, Beat.settle_removes above removes]
    exact slots_removed
  · rename_i lasting
    have removes : (beatOf call announced digest).removes = false := decide_eq_false lasting
    split
    · rename_i none_
      have passed : (beatOf call announced digest).deadline = none := by
        refine beatOf_deadline_none fun expiresAt deadline => ?_
        rw [none_] at deadline
        cases deadline
      exact absorb_idle (Beat.settle_stale above removes passed)
    · rename_i expiresAt deadline
      split
      · rename_i late
        have passed : (beatOf call announced digest).deadline = none := by
          refine beatOf_deadline_none fun other same => ?_
          rw [deadline] at same
          cases same
          exact late
        exact absorb_idle (Beat.settle_stale above removes passed)
      · rename_i fresh
        rw [Beat.absorb, Beat.settle_new above removes (beatOf_deadline_some deadline fresh)]
        exact slots_advanced

theorem repeated_slots (highest : registry.sequences.lookup announced.nid = some announced.sequence) :
    (registry.repeated call.frame announced digest call.receivedAt).2.slots =
      (beatOf call announced digest).absorb registry.slots := by
  have idle (quiet : ∀ current, registry.entries.lookup announced.nid = some current →
      current.signedDigest ≠ digest ∨ sameLiveness current.frame call.frame = true ∨
        (beatOf call announced digest).deadline = none) :
      registry.slots = (beatOf call announced digest).absorb registry.slots := by
    refine absorb_idle (Beat.settle_again highest fun held found => ?_)
    obtain ⟨current, entry, rfl⟩ := Option.map_eq_some_iff.mp found
    exact (quiet current entry).imp_right (.imp_left fun same => Quotient.sound same)
  unfold NdpRegistryProfile.repeated
  split
  · rename_i missing
    refine idle fun current found => ?_
    rw [missing] at found
    cases found
  · rename_i current held
    have one {property : Entry → Prop} (here : property current) :
        ∀ other, registry.entries.lookup announced.nid = some other → property other := by
      intro other found
      cases Option.some.inj (held.symm.trans found)
      exact here
    split
    · rename_i body
      exact idle (one (.inl body))
    · rename_i body
      split
      · rename_i alike
        exact idle (one (.inr (.inl alike)))
      · rename_i changed
        split
        · rename_i none_
          refine idle (one (.inr (.inr (beatOf_deadline_none fun expiresAt deadline => ?_))))
          rw [none_] at deadline
          cases deadline
        · rename_i expiresAt deadline
          split
          · rename_i late
            refine idle (one (.inr (.inr (beatOf_deadline_none fun other same => ?_))))
            rw [deadline] at same
            cases same
            exact late
          · rename_i fresh
            have found : (registry.slots announced.nid).2 = some current.held := by
              rw [slots, held, Option.map_some]
            have digests : current.held.digest = (beatOf call announced digest).digest := not_not.mp body
            have beats : current.held.liveness ≠ (beatOf call announced digest).liveness :=
              fun same => changed (Quotient.exact same)
            have settled : (beatOf call announced digest).settle (registry.slots announced.nid) = _ :=
              Beat.settle_refresh highest found digests beats (beatOf_deadline_some deadline fresh)
            exact slots_refreshed.trans
              (congrArg (Function.update registry.slots announced.nid) settled.symm)

theorem sequenced_slots : (registry.sequenced call.frame announced digest call.receivedAt).2.slots =
    (beatOf call announced digest).absorb registry.slots := by
  unfold NdpRegistryProfile.sequenced
  split
  · rename_i unknown
    refine advanced_slots fun highest found => ?_
    rw [unknown] at found
    cases found
  · rename_i highest known
    split
    · rename_i below
      exact absorb_idle (Beat.settle_below known below)
    · split
      · rename_i equal
        exact repeated_slots (equal ▸ known)
      · rename_i low different
        refine advanced_slots fun other found => ?_
        cases Option.some.inj (known.symm.trans found)
        omega

end

section
variable [Nip.TimeText] [Nip.Sha256]

def beat (securityProfile : String) (call : Call) : Option Beat :=
  if call.signatureValid = false then none
  else match readAnnounce securityProfile call.frame with
    | none => none
    | some announced =>
      match skewed securityProfile call.receivedAt announced.timestamp with
      | .error _ => none
      | .ok true => none
      | .ok false =>
        match canonicalAnnounceJson call.frame with
        | .error _ => none
        | .ok canonical =>
          some (beatOf call announced (Hex.encode (Nip.Sha256.digest (Text.utf8 canonical))))

theorem beat_eq_some {securityProfile : String} {call : Call} {heard : Beat} :
    beat securityProfile call = some heard ↔
      ∃ announced digest, Sound securityProfile call announced digest ∧
        heard = beatOf call announced digest := by
  constructor
  · intro found
    unfold beat at found
    split at found
    · cases found
    rename_i signed
    split at found
    · cases found
    rename_i announced read
    split at found
    · cases found
    · cases found
    rename_i timely
    split at found
    · cases found
    rename_i canonical text
    exact ⟨announced, _, ⟨Bool.eq_true_of_not_eq_false signed, read, timely, canonical, text, rfl⟩,
      (Option.some.inj found).symm⟩
  · rintro ⟨announced, digest, ⟨signed, read, timely, canonical, text, rfl⟩, rfl⟩
    have passed : ¬ call.signatureValid = false := by simp [signed]
    simp only [beat, if_neg passed, read, timely, text]

/-- What a call does to the slots. -/
theorem next_slots (registry : NdpRegistryProfile) (call : Call) :
    (registry.next call).2.slots =
      match beat registry.securityProfile call with
      | some heard => heard.absorb registry.slots
      | none => registry.slots := by
  cases heard : beat registry.securityProfile call with
  | some heard =>
    obtain ⟨announced, digest, ⟨signed, read, timely, canonical, text, rfl⟩, rfl⟩ :=
      beat_eq_some.mp heard
    have passed : ¬ call.signatureValid = false := by simp [signed]
    simp only [next, applyAnnounce, if_neg passed, read, timely, text]
    exact sequenced_slots
  | none =>
    unfold next applyAnnounce
    by_cases unsigned : call.signatureValid = false
    · rw [if_pos unsigned]
    rw [beat, if_neg unsigned] at heard
    rw [if_neg unsigned]
    cases read : readAnnounce registry.securityProfile call.frame with
    | none => rfl
    | some announced =>
      cases timely : skewed registry.securityProfile call.receivedAt announced.timestamp with
      | error panic => simp only [timely]
      | ok skew =>
        cases skew with
        | true => simp only [timely]
        | false =>
          cases text : canonicalAnnounceJson call.frame with
          | error message => simp only [timely]
          | ok canonical =>
            simp only [read, timely, text] at heard
            cases heard

theorem next_securityProfile (registry : NdpRegistryProfile) (call : Call) :
    (registry.next call).2.securityProfile = registry.securityProfile := by
  have applied := next_spec registry call
  generalize (registry.next call).1 = outcome at applied
  generalize (registry.next call).2 = after at applied
  cases applied <;> rfl

def receiveAll (registry : NdpRegistryProfile) (receivedAt : Int) (frames : List (Value × Bool)) :
    NdpRegistryProfile :=
  frames.foldl (fun registry frame => (registry.next ⟨frame.1, frame.2, receivedAt⟩).2) registry

theorem receiveAll_slots (registry : NdpRegistryProfile) (receivedAt : Int)
    (frames : List (Value × Bool)) :
    (registry.receiveAll receivedAt frames).slots =
      (frames.filterMap fun frame => beat registry.securityProfile ⟨frame.1, frame.2, receivedAt⟩).foldl
        Beat.absorb registry.slots := by
  induction frames generalizing registry with
  | nil => rfl
  | cons frame rest ih =>
    have first := next_slots registry ⟨frame.1, frame.2, receivedAt⟩
    have later := ih (registry.next ⟨frame.1, frame.2, receivedAt⟩).2
    rw [next_securityProfile, first] at later
    rw [receiveAll, List.foldl_cons]
    refine later.trans ?_
    rw [List.filterMap_cons]
    cases beat registry.securityProfile ⟨frame.1, frame.2, receivedAt⟩ <;> rfl

def Consistent (securityProfile : String) (frames : List (Value × Bool)) : Prop :=
  ∀ f ∈ frames, ∀ g ∈ frames, ∀ a b, readAnnounce securityProfile f.1 = some a →
    readAnnounce securityProfile g.1 = some b → a.nid = b.nid → a.sequence = b.sequence →
    canonicalAnnounceJson f.1 = canonicalAnnounceJson g.1 ∧ sameLiveness f.1 g.1 = true

end

section
variable [Nip.TimeText]

omit [Nip.TimeText] in
theorem same_ttl {f g : Value} {a b : Fields} {m n : Nat}
    (same : canonicalAnnounceJson f = canonicalAnnounceJson g) (fa : f.asObject = some a)
    (gb : g.asObject = some b) (left : numberValue a "ttl" = some m)
    (right : numberValue b "ttl" = some n) : m = n := by
  obtain ⟨v, found, isNumber⟩ := Option.bind_eq_some_iff.mp left
  obtain ⟨w, found', isNumber'⟩ := Option.bind_eq_some_iff.mp right
  cases v with
  | number v =>
    cases w with
    | number w =>
      have values := canonical_field same fa gb found found' rfl rfl (by decide)
      cases Value.number.inj values
      exact Option.some.inj (isNumber.symm.trans isNumber')
    | _ => cases isNumber'
  | _ => cases isNumber

theorem same_timestamp {f g : Value} {a b : Fields} {m n : Int}
    (same : canonicalAnnounceJson f = canonicalAnnounceJson g) (fa : f.asObject = some a)
    (gb : g.asObject = some b) (left : timeValue a "timestamp" = some m)
    (right : timeValue b "timestamp" = some n) : m = n := by
  obtain ⟨text, isText, time⟩ := Option.bind_eq_some_iff.mp left
  obtain ⟨text', isText', time'⟩ := Option.bind_eq_some_iff.mp right
  obtain ⟨v, found, isString⟩ := Option.bind_eq_some_iff.mp isText
  obtain ⟨w, found', isString'⟩ := Option.bind_eq_some_iff.mp isText'
  cases v with
  | string v =>
    cases w with
    | string w =>
      have values := canonical_field same fa gb found found' rfl rfl (by decide)
      cases Value.string.inj values
      cases isString
      cases isString'
      exact Option.some.inj (time.symm.trans time')
    | _ => cases isString'
  | _ => cases isString

omit [Nip.TimeText] in
theorem same_text {a b : Option Value} (same : fieldSame a b = true) :
    a.bind Value.asStr = b.bind Value.asStr := by
  cases a with
  | none => cases b with
    | none => rfl
    | some w => cases same
  | some v => cases b with
    | none => cases same
    | some w =>
      cases v <;> cases w <;> first | rfl | cases same | skip
      exact congrArg some (of_decide_eq_true same)

/-- Two announcements with one body and one liveness expire together. -/
theorem same_deadline {securityProfile : String} {f g : Value} {a b : Announced}
    (read : readAnnounce securityProfile f = some a) (read' : readAnnounce securityProfile g = some b)
    (body : canonicalAnnounceJson f = canonicalAnnounceJson g) (beat : sameLiveness f g = true) :
    a.ttl = b.ttl ∧ freshnessDeadline a.object = freshnessDeadline b.object := by
  obtain ⟨fa, -, time, ttl⟩ := readAnnounce_spec read
  obtain ⟨gb, -, time', ttl'⟩ := readAnnounce_spec read'
  have lifetimes := same_ttl body fa gb ttl ttl'
  have stamps := same_timestamp body fa gb time time'
  have seen := same_text (Bool.and_eq_true_iff.mp beat).2
  rw [valueGet, valueGet, fa, gb] at seen
  have beats : timeValue a.object "last_seen" = timeValue b.object "last_seen" := by
    have texts : stringValue a.object "last_seen" = stringValue b.object "last_seen" := seen
    rw [timeValue, timeValue, texts]
  refine ⟨lifetimes, ?_⟩
  rw [freshnessDeadline, freshnessDeadline, beats, time, time', stamps, ttl, ttl', lifetimes]

end

section
variable [Nip.TimeText] [Nip.Sha256]

theorem Consistent.beats_agree {securityProfile : String} {receivedAt : Int}
    {frames : List (Value × Bool)} (consistent : Consistent securityProfile frames)
    {first second : Beat}
    (one : first ∈ frames.filterMap fun frame => beat securityProfile ⟨frame.1, frame.2, receivedAt⟩)
    (two : second ∈ frames.filterMap fun frame => beat securityProfile ⟨frame.1, frame.2, receivedAt⟩)
    (nids : first.nid = second.nid) (sequences : first.sequence = second.sequence) : first = second := by
  obtain ⟨f, fMember, heard⟩ := List.mem_filterMap.mp one
  obtain ⟨g, gMember, heard'⟩ := List.mem_filterMap.mp two
  obtain ⟨a, digest, sound, rfl⟩ := beat_eq_some.mp heard
  obtain ⟨b, digest', sound', rfl⟩ := beat_eq_some.mp heard'
  obtain ⟨body, alike⟩ := consistent f fMember g gMember a b sound.read sound'.read nids sequences
  obtain ⟨lifetimes, deadlines⟩ := same_deadline sound.read sound'.read body alike
  obtain ⟨text, written, rfl⟩ := sound.digested
  obtain ⟨text', written', rfl⟩ := sound'.digested
  cases Except.ok.inj (written.symm.trans (body.trans written'))
  have beats : Quotient.mk livenessSetoid f.1 = Quotient.mk livenessSetoid g.1 := Quotient.sound alike
  have nids : a.nid = b.nid := nids
  have sequences : a.sequence = b.sequence := sequences
  simp only [beatOf, nids, sequences, lifetimes, deadlines, beats]

theorem receiveAll_perm (registry : NdpRegistryProfile) (receivedAt : Int)
    {frames arrived : List (Value × Bool)} (consistent : Consistent registry.securityProfile frames)
    (order : frames.Perm arrived) :
    (registry.receiveAll receivedAt frames).slots = (registry.receiveAll receivedAt arrived).slots := by
  rw [receiveAll_slots, receiveAll_slots]
  refine (order.filterMap _).foldl_eq' (fun first one second two slots => ?_) _
  exact Beat.absorb_comm (fun nids sequences => consistent.beats_agree one two nids sequences) slots

omit [Nip.TimeText] [Nip.Sha256] in
theorem mem_liveNids {registry : NdpRegistryProfile} {now : Int} {nid : String} :
    nid ∈ registry.liveNids now ↔
      ∃ held, (registry.slots nid).2 = some held ∧ now < held.expiresAt := by
  have looked (entry : Entry) : registry.entries.lookup nid = some entry ↔
      Sigma.mk nid entry ∈ registry.entries.entries := AList.mem_lookup_iff
  rw [liveNids, List.mem_mergeSort, List.mem_map]
  constructor
  · rintro ⟨⟨_, entry⟩, member, rfl⟩
    obtain ⟨member, live⟩ := List.mem_filter.mp member
    refine ⟨entry.held, ?_, of_decide_eq_true live⟩
    rw [slots, (looked entry).mpr member, Option.map_some]
  · rintro ⟨held, found, live⟩
    obtain ⟨entry, known, rfl⟩ := Option.map_eq_some_iff.mp found
    exact ⟨⟨nid, entry⟩, List.mem_filter.mpr ⟨(looked entry).mp known, decide_eq_true live⟩, rfl⟩

end
end NdpRegistryProfile

section
variable [Nip.TimeText] [Nip.Sha256]

/-- In every run: no highest sequence is lowered; an entry is an accepted frame under the highest
sequence of its node; a removed node stays absent until a higher sequence is accepted; what is
rejected or a duplicate changes nothing; and frames that are received at one time leave the same
nodes live and the same sequences in every order. -/
theorem registry_admission (securityProfile : String) {events : List Event} {t : NdpRegistryProfile}
    (run : Run NdpRegistryProfile.Step (.new securityProfile) events t) :
    (∀ later u, Run NdpRegistryProfile.Step t later u → ∀ nid highest,
      t.highestSequences.lookup nid = some highest →
      ∃ raised, u.highestSequences.lookup nid = some raised ∧ highest ≤ raised) ∧
    (∀ nid entry, t.entries.lookup nid = some entry → ∃ event ∈ events, Carried t nid entry event) ∧
    (∀ event u, t.Step event u → event.outcome = some (accepted .removed) →
      ∃ removed digest, Sound securityProfile event.call removed digest ∧
        ∀ later v, Run NdpRegistryProfile.Step u later v →
          v.entries.lookup removed.nid = none ∨
          ∃ event ∈ later, event.outcome = some (accepted .accepted) ∧
            ∃ announced digest, Sound securityProfile event.call announced digest ∧
              announced.nid = removed.nid ∧ removed.sequence < announced.sequence) ∧
    (∀ event u admission, t.Step event u → event.outcome = some admission →
      admission.decision = .rejected ∨ admission.decision = .duplicate → u = t) ∧
    ∀ (receivedAt : Int) (frames arrived : List (Value × Bool)),
      NdpRegistryProfile.Consistent securityProfile frames → frames.Perm arrived →
      (∀ now nid, nid ∈ (t.receiveAll receivedAt frames).liveNids now ↔
        nid ∈ (t.receiveAll receivedAt arrived).liveNids now) ∧
      ∀ nid, (t.receiveAll receivedAt frames).highestSequences.lookup nid =
        (t.receiveAll receivedAt arrived).highestSequences.lookup nid := by
  refine ⟨fun later u run nid highest known => sequences_run run known, stored_run run,
    fun event u step removed => ?_,
    fun event u admission step said quiet => (applied_of_step step).quiet said quiet,
    fun receivedAt frames arrived consistent order => ?_⟩
  · obtain ⟨announced, digest, sound, -, missing, highest⟩ := (applied_of_step step).removal removed
    have profile : t.securityProfile = securityProfile := profile_run run
    rw [profile] at sound
    refine ⟨announced, digest, sound, fun later v run' => ?_⟩
    rcases absent_run run' missing highest with
      ⟨missing, -⟩ | ⟨event, member, outcome, announced', digest', sound', named, higher⟩
    · exact .inl missing
    · rw [profile_run run', profile_run (.single step), profile] at sound'
      exact .inr ⟨event, member, outcome, announced', digest', sound', named, higher⟩
  · have consistent' : NdpRegistryProfile.Consistent t.securityProfile frames := by
      rw [profile_run run]
      exact consistent
    have same := NdpRegistryProfile.receiveAll_perm t receivedAt consistent' order
    constructor
    · intro now nid
      rw [NdpRegistryProfile.mem_liveNids, NdpRegistryProfile.mem_liveNids, same]
    · intro nid
      exact congrArg (fun slots => (slots nid).1) same

end

namespace TwoNodes

abbrev clock : Nip.TimeText :=
  .table [(0, "1970-01-01T00:00:00Z"), (Nip.Duration.seconds 100, "1970-01-01T00:01:40Z")]

abbrev hash : Nip.Sha256 := ⟨fun _ => []⟩

def a : String := "urn:nps:node:example.com:a"

def announce (nid : String) (sequence ttl : Nat) : Fields :=
  [("graph_seq", integer sequence), ("nid", .string nid), ("timestamp", .string "1970-01-01T00:00:00Z"),
    ("ttl", integer ttl)]

def first : Call := ⟨.object (announce a 2 300), true, 10⟩

def again : Call :=
  ⟨.object (insert "last_seen" (.string "1970-01-01T00:01:40Z") (announce a 2 300)), true, 110⟩

def stale : Call := ⟨.object (announce a 1 300), true, 120⟩

def goodbye : Call := ⟨.object (announce a 3 0), true, 130⟩

/-- The node a, with a sequence that is stale by then, and another node. -/
def batch : List (Value × Bool) :=
  [(.object (announce a 2 300), true), (.object (announce "urn:nps:node:example.com:b" 1 300), true)]

def after [Nip.TimeText] [Nip.Sha256] (calls : List Call) : NdpRegistryProfile :=
  calls.foldl (fun registry call => (registry.next call).2) (.new "production")

theorem batch_consistent : letI := clock
    NdpRegistryProfile.Consistent "production" batch := by
  let _ := clock
  intro f fMember g gMember x y readF readG nids sequences
  have named {frame : Value × Bool} {announced : Announced} {nid : String} {sequence : Nat}
      (read : readAnnounce "production" frame.1 = some announced)
      (object : frame.1 = .object (announce nid sequence 300)) : announced.nid = nid := by
    obtain ⟨isObject, has, -⟩ := readAnnounce_spec read
    rw [object] at isObject
    rw [← Option.some.inj isObject] at has
    exact (Option.some.inj has).symm
  simp only [batch, List.mem_cons, List.not_mem_nil, or_false] at fMember gMember
  rcases fMember with rfl | rfl <;> rcases gMember with rfl | rfl
  · exact ⟨rfl, by decide +kernel⟩
  · exact absurd ((named readF rfl).symm.trans (nids.trans (named readG rfl))) (by decide)
  · exact absurd ((named readF rfl).symm.trans (nids.trans (named readG rfl))) (by decide)
  · exact ⟨rfl, by decide +kernel⟩

/-- The node is announced, refreshed, not taken back by a stale announcement, and removed. -/
theorem removed_stays : letI := clock
    letI := hash
    ∃ t u v : NdpRegistryProfile,
      Run NdpRegistryProfile.Step (.new "production") [⟨first, some (accepted .accepted)⟩,
        ⟨again, some (accepted .refreshed)⟩, ⟨stale, some (reject graphSeqRollback)⟩] t ∧
      t.Step ⟨goodbye, some (accepted .removed)⟩ u ∧ u.Step ⟨stale, some (reject graphSeqRollback)⟩ v ∧
      (∃ entry event, t.entries.lookup a = some entry ∧ Carried t a entry event) ∧
      v.entries.lookup a = none ∧ v = u ∧
      (∀ now nid, nid ∈ (v.receiveAll 140 batch).liveNids now ↔
        nid ∈ (v.receiveAll 140 batch.reverse).liveNids now) := by
  let _ := clock
  let _ := hash
  have stored : ((after [first, again, stale]).entries.lookup a).isSome = true := by decide +kernel
  obtain ⟨entry, found⟩ := Option.isSome_iff_exists.mp stored
  have step (calls : List Call) (call : Call) (outcome : Option NdpRegistryAdmission)
      (answer : ((after calls).next call).1 = outcome) :
      (after calls).Step ⟨call, outcome⟩ (after (calls ++ [call])) := by
    have later : after (calls ++ [call]) = ((after calls).next call).2 := by
      rw [after, List.foldl_append]
      rfl
    exact Prod.ext answer later.symm
  have one := step [] first (some (accepted .accepted)) (by decide +kernel)
  have two := step [first] again (some (accepted .refreshed)) (by decide +kernel)
  have three := step [first, again] stale (some (reject graphSeqRollback)) (by decide +kernel)
  have removed := step [first, again, stale] goodbye (some (accepted .removed)) (by decide +kernel)
  have late := step [first, again, stale, goodbye] stale (some (reject graphSeqRollback)) (by decide +kernel)
  have run := Run.next one (.next two (.single three))
  obtain ⟨-, carried, absent, quiet, -⟩ := registry_admission "production" run
  obtain ⟨announced, digest, sound, gone⟩ := absent _ _ removed rfl
  obtain ⟨isObject, named, -⟩ := readAnnounce_spec sound.read
  rw [← Option.some.inj isObject] at named
  have named : announced.nid = a := (Option.some.inj named).symm
  obtain ⟨event, -, here⟩ := carried a entry found
  have whole := run.trans (.next removed (.single late))
  refine ⟨_, _, _, run, removed, late, ⟨entry, event, found, here⟩, ?_, ?_, ?_⟩
  · rcases gone _ _ (.single late) with missing | ⟨event, member, outcome, -⟩
    · exact named ▸ missing
    · cases List.mem_singleton.mp member
      cases outcome
  · obtain ⟨-, -, -, quiet, -⟩ := registry_admission "production" (run.trans (.single removed))
    exact quiet _ _ _ late rfl (.inl rfl)
  · exact ((registry_admission "production" whole).2.2.2.2 140 batch batch.reverse batch_consistent
      (List.reverse_perm batch).symm).1

end TwoNodes
end Nps.Ndp
