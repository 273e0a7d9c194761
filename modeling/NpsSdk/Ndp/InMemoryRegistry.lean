import NpsSdk.Lib.Expiring
import NpsSdk.Ndp.Frames

/-! The registry that keeps announcements in memory, each until its lifetime is over. -/
namespace Nps.Ndp
open Expiring (Instant Overflow Op Store plusSeconds live)

structure InMemoryNdpRegistry where
  store : Store String AnnounceFrame Instant := ∅

structure Announcement where
  reading : Instant
  frame : AnnounceFrame

namespace InMemoryNdpRegistry

def announce (registry : InMemoryNdpRegistry) (now : Instant) (frame : AnnounceFrame) :
    Except Overflow InMemoryNdpRegistry := do
  if frame.ttl = 0 then return { store := registry.store.erase frame.nid }
  let expires ← plusSeconds now frame.ttl
  return { store := registry.store.insert frame.nid { value := frame, expires } }

def getByNid (registry : InMemoryNdpRegistry) (nid : String) (now : Instant) : Option AnnounceFrame :=
  registry.store.get nid now

def getAll (registry : InMemoryNdpRegistry) (now : Instant) : List AnnounceFrame :=
  ((registry.store.entries.map Sigma.snd).filter (live now)).map (·.value)

def announceAll (registry : InMemoryNdpRegistry) (history : List Announcement) :
    Except Overflow InMemoryNdpRegistry :=
  history.foldlM (fun registry call => registry.announce call.reading call.frame) registry

end InMemoryNdpRegistry

open InMemoryNdpRegistry

namespace Announcement

def deadline (call : Announcement) : Instant := call.reading + call.frame.ttl.toNat * 1000000000

def Representable (call : Announcement) : Prop := call.frame.ttl = 0 ∨ call.deadline < Expiring.limit

def op (call : Announcement) : Op String AnnounceFrame Instant :=
  if call.frame.ttl = 0 then .drop call.frame.nid
  else .put call.frame.nid { value := call.frame, expires := call.deadline }

def Live (call : Announcement) (now : Instant) : Prop :=
  0 < call.frame.ttl.toNat ∧ now - call.reading < call.frame.ttl.toNat * 1000000000

instance (call : Announcement) : Decidable call.Representable := inferInstanceAs (Decidable (_ ∨ _))

instance (call : Announcement) (now : Instant) : Decidable (call.Live now) :=
  inferInstanceAs (Decidable (_ ∧ _))

end Announcement

theorem announce_eq (registry : InMemoryNdpRegistry) (call : Announcement) :
    registry.announce call.reading call.frame =
      if call.Representable then .ok { store := call.op.apply registry.store } else .error .instant := by
  unfold announce plusSeconds Announcement.op Announcement.Representable
  by_cases none : call.frame.ttl = 0
  · simp only [none, true_or, if_true]
    rfl
  · simp only [none, false_or, if_false]
    change (if call.deadline < Expiring.limit then _ else _) >>= _ = _
    split_ifs <;> rfl

theorem announceAll_ok {history : List Announcement} (fits : ∀ call ∈ history, call.Representable)
    (registry : InMemoryNdpRegistry) : registry.announceAll history =
      .ok { store := (history.map Announcement.op).foldl Op.apply registry.store } := by
  induction history generalizing registry with
  | nil => rfl
  | cons call rest ih =>
    have first := announce_eq registry call
    rw [if_pos (fits call List.mem_cons_self)] at first
    rw [announceAll, List.foldlM_cons, first]
    exact ih (fun other member => fits other (List.mem_cons_of_mem _ member)) _

theorem representable_of_ok {history : List Announcement} {registry registry' : InMemoryNdpRegistry}
    (done : registry.announceAll history = .ok registry') : ∀ call ∈ history, call.Representable := by
  induction history generalizing registry with
  | nil => exact fun _ => nofun
  | cons call rest ih =>
    rw [announceAll, List.foldlM_cons, announce_eq] at done
    split_ifs at done with fits
    · intro other member
      rcases List.mem_cons.mp member with rfl | later
      · exact fits
      · exact ih done other later
    · cases done

def latest (history : List Announcement) (nid : String) : Option Announcement :=
  (history.filter fun call => call.frame.nid = nid).getLast?

def announced (history : List Announcement) (nid : String) (now : Instant) : Option AnnounceFrame :=
  ((latest history nid).filter fun call => call.Live now).map Announcement.frame

/-- The registry shows every node's latest announcement, for as long as it lives, and nothing else. -/
structure Shows (history : List Announcement) (registry : InMemoryNdpRegistry) (now : Instant) : Prop where
  byNid : ∀ nid, registry.getByNid nid now = announced history nid now
  all : ∀ frame, frame ∈ registry.getAll now ↔ announced history frame.nid now = some frame
  single : ((registry.getAll now).map AnnounceFrame.nid).Nodup

theorem latest_append (history : List Announcement) (call : Announcement) (nid : String) :
    latest (history ++ [call]) nid = if call.frame.nid = nid then some call else latest history nid := by
  rw [latest, List.filter_append]
  by_cases same : call.frame.nid = nid
  · simp [same]
  · simp [same, latest]

theorem latest_nid {history : List Announcement} {nid : String} {call : Announcement}
    (last : latest history nid = some call) : call.frame.nid = nid := by
  have member := List.mem_of_getLast? last
  exact of_decide_eq_true (List.mem_filter.mp member).2

theorem track_latest (history : List Announcement) (nid : String) :
    (history.map Announcement.op).foldl (Op.track nid) none =
      (latest history nid).bind fun call =>
        if call.frame.ttl = 0 then none else some { value := call.frame, expires := call.deadline } := by
  induction history using List.reverseRecOn with
  | nil => rfl
  | append_singleton history call ih =>
    rw [List.map_append, List.foldl_append, ih, latest_append]
    by_cases same : call.frame.nid = nid
    · by_cases none : call.frame.ttl = 0 <;> simp [Announcement.op, Op.track, same, none]
    · by_cases none : call.frame.ttl = 0 <;>
        simp [Announcement.op, Op.track, same, none, Ne.symm same]

theorem ttl_eq_zero (frame : AnnounceFrame) : frame.ttl = 0 ↔ frame.ttl.toNat = 0 :=
  UInt64.toNat_inj.symm

/-- The store of a run without faults shows what was announced, at any reading of the clock. -/
theorem getByNid_eq {history : List Announcement} {registry : InMemoryNdpRegistry}
    (done : announceAll {} history = .ok registry) (nid : String) (now : Instant) :
    registry.getByNid nid now = announced history nid now := by
  have whole := announceAll_ok (representable_of_ok done) {}
  rw [done, Except.ok.injEq] at whole
  have past (at_ : Instant) : .sweep at_ ∈ history.map Announcement.op → at_ ≤ now := by
    intro swept
    obtain ⟨call, -, same⟩ := List.mem_map.mp swept
    unfold Announcement.op at same
    split_ifs at same
  rw [whole, getByNid]
  refine (Expiring.get_foldl past nid).trans ?_
  rw [track_latest, announced]
  cases last : latest history nid with
  | none => rfl
  | some call =>
    have zero := ttl_eq_zero call.frame
    by_cases none : call.frame.ttl = 0
    · have dead : ¬ call.Live now := fun lives => absurd (zero.mp none) lives.1.ne'
      simp [none, dead]
    · have positive : 0 < call.frame.ttl.toNat := Nat.pos_of_ne_zero fun same => none (zero.mpr same)
      have same : live now { value := call.frame, expires := call.deadline } = decide (call.Live now) := by
        refine decide_eq_decide.mpr ?_
        change now < call.deadline ↔ call.Live now
        rw [Announcement.Live, Announcement.deadline, and_iff_right positive]
        exact sub_lt_iff_lt_add'.symm
      simp only [Option.bind_some, none, if_false, Option.filter_some, same]
      split_ifs <;> rfl

theorem keys_own {history : List Announcement} {registry : InMemoryNdpRegistry}
    (done : announceAll {} history = .ok registry) {nid : String} {entry : Expiring.Entry AnnounceFrame Instant}
    (held : registry.store.lookup nid = some entry) : entry.value.nid = nid := by
  have shown := getByNid_eq done nid (entry.expires - 1)
  rw [getByNid, Store.get, held, Option.filter_some, if_pos (by simp [live])] at shown
  obtain ⟨call, last, same⟩ := Option.map_eq_some_iff.mp shown.symm
  rw [← same]
  exact latest_nid (Option.filter_eq_some_iff.mp last).1

theorem getAll_shows {history : List Announcement} {registry : InMemoryNdpRegistry}
    (done : announceAll {} history = .ok registry) (now : Instant) : Shows history registry now := by
  have lookup {nid : String} {entry : Expiring.Entry AnnounceFrame Instant} :
      ⟨nid, entry⟩ ∈ registry.store.entries ↔ registry.store.lookup nid = some entry :=
    AList.mem_lookup_iff.symm
  refine ⟨fun nid => getByNid_eq done nid now, fun frame => ?_, ?_⟩
  · rw [← getByNid_eq done, getByNid, Store.get, Option.map_eq_some_iff]
    simp only [getAll, List.mem_map, List.mem_filter, Option.filter_eq_some_iff]
    constructor
    · rintro ⟨entry, ⟨⟨⟨nid, held⟩, member, rfl⟩, lives⟩, rfl⟩
      have found := lookup.mp member
      obtain rfl := keys_own done found
      exact ⟨held, ⟨found, lives⟩, rfl⟩
    · rintro ⟨entry, ⟨held, lives⟩, rfl⟩
      exact ⟨entry, ⟨⟨_, lookup.mpr held, rfl⟩, lives⟩, rfl⟩
  · have keys : registry.store.entries.map (fun entry => entry.2.value.nid) = registry.store.keys := by
      refine List.map_congr_left fun entry member => ?_
      exact keys_own done (lookup.mp member)
    have distinct : (registry.store.entries.map fun entry => entry.2.value.nid).Nodup :=
      keys ▸ registry.store.nodupKeys
    have part : ((registry.getAll now).map AnnounceFrame.nid).Sublist
        ((registry.store.entries.map Sigma.snd).map fun entry => entry.value.nid) := by
      rw [getAll, List.map_map]
      exact List.filter_sublist.map _
    rw [List.map_map] at part
    exact distinct.sublist part

/-- No announcement faults and the registry shows exactly what lives, at every reading, just when every
lifetime ends at an instant that the clock can tell. -/
theorem registry_live_iff (history : List Announcement) :
    (∃ registry, announceAll {} history = .ok registry ∧ ∀ now, Shows history registry now) ↔
      ∀ call ∈ history, call.Representable := by
  constructor
  · rintro ⟨registry, done, -⟩
    exact representable_of_ok done
  · intro fits
    exact ⟨_, announceAll_ok fits {}, getAll_shows (announceAll_ok fits {})⟩

theorem endless_faults : ¬ ∀ history : List Announcement,
    ∃ registry, announceAll {} history = .ok registry ∧ ∀ now, Shows history registry now := by
  intro always
  let frame : AnnounceFrame :=
    { nid := "urn:nps:node:example.com:a", ttl := 0xFFFFFFFFFFFFFFFF, timestamp := "2026-01-01T00:00:00Z" }
  obtain ⟨registry, done, -⟩ := always [⟨0, frame⟩]
  exact absurd (representable_of_ok done _ List.mem_cons_self) (by decide)

end Nps.Ndp
