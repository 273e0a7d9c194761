import NpsSdk.Ndp.InMemoryRegistry

/-! The resolution of a target by the announcements in memory. The first entry that matches decides, in the
order in which the map happens to be iterated. -/
namespace Nps.Ndp
open Json
open Expiring (Instant Entry live)

structure ResolveResult where
  host : String
  port : Nat
  protocol : String
deriving DecidableEq

namespace InMemoryNdpRegistry

/-- A target `nwp://authority/path` against a node `urn:nps:node:host:path`: the same path or one below it. -/
def nwpTargetMatchesNid (nid target : String) : Bool :=
  match Text.split ':' nid with
  | "urn" :: "nps" :: "node" :: host :: segment :: segments =>
    let nidPath := "/".intercalate (segment :: segments)
    match (Text.stripPrefix? "nwp://" target).bind (Text.splitOnce? "/") with
    | none => false
    | some (authority, path) =>
      authority == host && (path == nidPath || Text.startsWith (nidPath ++ "/") path)
  | _ => false

def address (frame : AnnounceFrame) : Option ResolveResult :=
  frame.addresses.head?.map fun addr => {
    host := ((get "host" addr).bind Value.asStr).getD ""
    port := ((get "port" addr).bind Value.asU64).getD 17433
    protocol := ((get "protocol" addr).bind Value.asStr).getD "nwp" }

def answers (target : String) (now : Instant) (entry : Entry AnnounceFrame Instant) : Bool :=
  live now entry && nwpTargetMatchesNid entry.value.nid target

/-- The first live entry that matches, of the entries in some order. -/
def resolve (entries : List (Entry AnnounceFrame Instant)) (target : String) (now : Instant) :
    Option ResolveResult :=
  ((entries.filter (live now)).find? fun entry => nwpTargetMatchesNid entry.value.nid target).bind fun entry =>
    address entry.value

def values (registry : InMemoryNdpRegistry) : List (Entry AnnounceFrame Instant) :=
  registry.store.entries.map Sigma.snd

end InMemoryNdpRegistry

open InMemoryNdpRegistry

section
variable {entries : List (Entry AnnounceFrame Instant)} {entry : Entry AnnounceFrame Instant}
  {target : String} {now : Instant}

theorem resolve_cons (answering : answers target now entry = true) :
    resolve (entry :: entries) target now = address entry.value := by
  obtain ⟨lives, same⟩ := Bool.and_eq_true_iff.mp answering
  simp only [resolve, List.filter_cons_of_pos lives, List.find?_cons, same, Option.bind_some]

theorem resolve_cases (entries : List (Entry AnnounceFrame Instant)) (target : String) (now : Instant) :
    (∀ entry ∈ entries, answers target now entry = false) ∧ resolve entries target now = none ∨
      ∃ entry ∈ entries, answers target now entry = true ∧ resolve entries target now = address entry.value := by
  unfold resolve
  cases found : (entries.filter (live now)).find? fun entry => nwpTargetMatchesNid entry.value.nid target with
  | none =>
    refine .inl ⟨fun entry member => ?_, rfl⟩
    cases lives : live now entry with
    | false => rw [answers, lives, Bool.false_and]
    | true =>
      have other := List.find?_eq_none.mp found entry (List.mem_filter.mpr ⟨member, lives⟩)
      rw [answers, lives, Bool.true_and]
      exact Bool.not_eq_true _ ▸ other
  | some entry =>
    obtain ⟨member, lives⟩ := List.mem_filter.mp (List.mem_of_find?_eq_some found)
    have same : nwpTargetMatchesNid entry.value.nid target = true := by simpa using List.find?_some found
    exact .inr ⟨entry, member, Bool.and_eq_true_iff.mpr ⟨lives, same⟩, rfl⟩

end

/-- One result in every order of the entries, with an address if an entry that answers has one. -/
def Determined (registry : InMemoryNdpRegistry) (target : String) (now : Instant) : Prop :=
  (∃ result, ∀ order, order.Perm registry.values → resolve order target now = result) ∧
    ((∃ entry ∈ registry.values, answers target now entry = true ∧ entry.value.addresses ≠ []) →
      ∀ order, order.Perm registry.values → (resolve order target now).isSome)

theorem address_isSome {frame : AnnounceFrame} : (address frame).isSome ↔ frame.addresses ≠ [] := by
  rw [address, Option.isSome_map, List.isSome_head?]

theorem Determined.one_address {registry : InMemoryNdpRegistry} {target : String} {now : Instant}
    (determined : Determined registry target now) {entry other : Entry AnnounceFrame Instant}
    (member : entry ∈ registry.values) (answering : answers target now entry = true)
    (member' : other ∈ registry.values) (answering' : answers target now other = true) :
    address entry.value = address other.value := by
  obtain ⟨⟨result, one⟩, -⟩ := determined
  have first {entry : Entry AnnounceFrame Instant} (member : entry ∈ registry.values)
      (answering : answers target now entry = true) : address entry.value = result := by
    obtain ⟨front, back, split⟩ := List.append_of_mem member
    have order := one (entry :: (front ++ back)) (split ▸ List.perm_middle.symm)
    rwa [resolve_cons answering] at order
  rw [first member answering, first member' answering']

/-- A target is resolved in one way just when all live announcements that match it have one address. -/
theorem determined_iff (registry : InMemoryNdpRegistry) (target : String) (now : Instant) :
    Determined registry target now ↔
      ∀ entry ∈ registry.values, answers target now entry = true →
        ∀ other ∈ registry.values, answers target now other = true →
          address entry.value = address other.value := by
  constructor
  · intro determined entry member answering other member' answering'
    exact determined.one_address member answering member' answering'
  · intro same
    have one {order : List (Entry AnnounceFrame Instant)} (perm : order.Perm registry.values)
        {entry : Entry AnnounceFrame Instant} (member : entry ∈ registry.values)
        (answering : answers target now entry = true) : resolve order target now = address entry.value := by
      rcases resolve_cases order target now with ⟨none, -⟩ | ⟨first, member', answering', result⟩
      · rw [none entry (perm.mem_iff.mpr member)] at answering
        cases answering
      · rw [result]
        exact same first (perm.mem_iff.mp member') answering' entry member answering
    constructor
    · refine ⟨resolve registry.values target now, fun order perm => ?_⟩
      rcases resolve_cases registry.values target now with ⟨none, nothing⟩ | ⟨entry, member, answering, result⟩
      · rcases resolve_cases order target now with ⟨-, nothing'⟩ | ⟨first, member', answering', -⟩
        · rw [nothing, nothing']
        · rw [none first (perm.mem_iff.mp member')] at answering'
          cases answering'
      · rw [result, one perm member answering]
    · rintro ⟨entry, member, answering, some_⟩ order perm
      rw [one perm member answering, address_isSome]
      exact some_

theorem mem_values {registry : InMemoryNdpRegistry} {nid : String} {entry : Entry AnnounceFrame Instant}
    (held : registry.store.lookup nid = some entry) : entry ∈ registry.values :=
  List.mem_map.mpr ⟨⟨nid, entry⟩, AList.mem_lookup_iff.mp held, rfl⟩

/-- A node and one below it can both match, with different addresses. -/
theorem nested_undetermined : ¬ ∀ (history : List Announcement) (registry : InMemoryNdpRegistry),
    announceAll {} history = .ok registry → ∀ target now, Determined registry target now := by
  intro determined
  let outer : AnnounceFrame :=
    { nid := "urn:nps:node:h:a", addresses := [[("host", .string "x")]], ttl := 300, timestamp := "t" }
  let inner : AnnounceFrame :=
    { nid := "urn:nps:node:h:a:b", addresses := [[("host", .string "y")]], ttl := 300, timestamp := "t" }
  have fits : ∀ call ∈ [Announcement.mk 0 outer, ⟨0, inner⟩], call.Representable := by decide
  have puts (call : Announcement) (some_ : call.frame.ttl ≠ 0) :
      call.op = .put call.frame.nid ⟨call.frame, call.deadline⟩ := if_neg some_
  obtain ⟨registry, store, done⟩ : ∃ registry : InMemoryNdpRegistry,
      registry.store = (Announcement.op ⟨0, inner⟩).apply ((Announcement.op ⟨0, outer⟩).apply ∅) ∧
      announceAll {} [⟨0, outer⟩, ⟨0, inner⟩] = .ok registry := ⟨_, rfl, announceAll_ok fits {}⟩
  rw [puts ⟨0, inner⟩ (by decide), puts ⟨0, outer⟩ (by decide)] at store
  have first : registry.store.lookup outer.nid = some ⟨outer, Announcement.deadline ⟨0, outer⟩⟩ := by
    have different : outer.nid ≠ inner.nid := by decide
    rw [store]
    exact (AList.lookup_insert_ne different).trans (AList.lookup_insert _)
  have second : registry.store.lookup inner.nid = some ⟨inner, Announcement.deadline ⟨0, inner⟩⟩ := by
    rw [store]
    exact AList.lookup_insert _
  have same := (determined _ _ done "nwp://h/a/b" 1).one_address (mem_values first) (by decide +kernel)
    (mem_values second) (by decide +kernel)
  have hosts : "x" = "y" := congrArg ResolveResult.host (Option.some.inj same)
  exact absurd hosts (by decide)

end Nps.Ndp
