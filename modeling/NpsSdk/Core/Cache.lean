import NpsSdk.Core.Frames
import NpsSdk.Lib.Base64
import NpsSdk.Lib.Expiring
import NpsSdk.Lib.JsonOrder
import NpsSdk.Lib.JsonSame
import NpsSdk.Nip.Platform

/-! The cache of anchor schemas, each under the hash of its canonical text and until its lifetime
is over. -/
namespace Nps.Core
open Json
open Expiring (Instant Overflow Op Store plusSeconds live)
open Nip (Sha256)

/-- A map of the JSON library: its keys are in order, and so are those of every object in it. -/
structure Schema where
  fields : Fields
  ordered : (Value.object fields).Ordered

namespace Schema

def same (schema other : Schema) : Bool := (Value.object schema.fields).same (.object other.fields)

def canonical (schema : Schema) : String := (document schema.fields).text

end Schema

structure AnchorFrameCache where
  store : Store String Schema Instant := ∅

namespace AnchorFrameCache

/-- A call on the cache, with the reading of the clock where the call takes one. -/
inductive Call where
  | set (reading : Instant) (schema : Schema) (ttlSecs : UInt64)
  | invalidate (anchorId : String)
  | evictExpired (reading : Instant)

def get (cache : AnchorFrameCache) (anchorId : String) (now : Instant) : Option Schema :=
  cache.store.get anchorId now

def invalidate (cache : AnchorFrameCache) (anchorId : String) : AnchorFrameCache :=
  { store := cache.store.erase anchorId }

def evictExpired (cache : AnchorFrameCache) (now : Instant) : AnchorFrameCache :=
  { store := cache.store.retain (live now) }

section
variable [Sha256]

def computeAnchorId (schema : Schema) : String :=
  "sha256:" ++ Hex.encode (Sha256.digest (Text.utf8 schema.canonical))

/-- The addition faults before the cache is looked at. -/
def set (cache : AnchorFrameCache) (now : Instant) (schema : Schema) (ttlSecs : UInt64) :
    Except Overflow (NpsResult String × AnchorFrameCache) := do
  let anchorId := computeAnchorId schema
  let expires ← plusSeconds now ttlSecs
  let poisoned := (cache.store.lookup anchorId).any fun existing =>
    !existing.value.same schema && live now existing
  if poisoned then
    return (.error (.anchorPoison s!"anchor {anchorId} already cached with different schema"), cache)
  return (.ok anchorId, { store := cache.store.insert anchorId { value := schema, expires } })

/-- What the calls of `set` answer, and the cache that is left. -/
def run (cache : AnchorFrameCache) :
    List Call → Except Overflow (List (NpsResult String) × AnchorFrameCache)
  | [] => .ok ([], cache)
  | .set reading schema ttlSecs :: rest => do
    let (answer, cache) ← cache.set reading schema ttlSecs
    let (answers, cache) ← run cache rest
    return (answer :: answers, cache)
  | .invalidate anchorId :: rest => run (cache.invalidate anchorId) rest
  | .evictExpired reading :: rest => run (cache.evictExpired reading) rest

end

namespace Call

def reading? : Call → Option Instant
  | set reading _ _ => some reading
  | invalidate _ => none
  | evictExpired reading => some reading

def schema? : Call → Option Schema
  | set _ schema _ => some schema
  | invalidate _ | evictExpired _ => none

def Representable : Call → Prop
  | set reading _ ttlSecs => reading + ttlSecs.toNat * 1000000000 < Expiring.limit
  | invalidate _ | evictExpired _ => True

variable [Sha256]

def Concerns (anchorId : String) : Call → Prop
  | set _ schema _ => computeAnchorId schema = anchorId
  | invalidate other => other = anchorId
  | evictExpired _ => False

def op : Call → Op String Schema Instant
  | set reading schema ttlSecs => .put (computeAnchorId schema)
      { value := schema, expires := reading + ttlSecs.toNat * 1000000000 }
  | invalidate anchorId => .drop anchorId
  | evictExpired reading => .sweep reading

theorem touches_op {call : Call} {anchorId : String} : call.op.Touches anchorId ↔ call.Concerns anchorId := by
  cases call <;> exact Iff.rfl

end Call

def schemas (history : List Call) : List Schema := history.filterMap Call.schema?

def readings (history : List Call) : List Instant := history.filterMap Call.reading?

section
variable [Sha256]

/-- The hash tells the texts of these schemas apart. -/
def CollisionFree (known : List Schema) : Prop :=
  ∀ schema ∈ known, ∀ other ∈ known,
    Sha256.digest (Text.utf8 schema.canonical) = Sha256.digest (Text.utf8 other.canonical) →
      schema.canonical = other.canonical

/-- The latest `set` that returned the id stored the schema less than its ttl ago, and no
`invalidate` of the id came after it. -/
def Current (history : List Call) (anchorId : String) (now : Instant) (schema : Schema) : Prop :=
  ∃ before reading ttlSecs after, history = before ++ .set reading schema ttlSecs :: after ∧
    computeAnchorId schema = anchorId ∧ now - reading < ttlSecs.toNat * 1000000000 ∧
    ∀ call ∈ after, ¬ call.Concerns anchorId

/-- No `set` is refused, the cache shows what is current at any reading from now on, and what it
holds is under its own id. -/
structure Serves (history : List Call) (answers : List (NpsResult String)) (cache : AnchorFrameCache) :
    Prop where
  answered : answers = (schemas history).map fun schema => .ok (computeAnchorId schema)
  current : ∀ now, (∀ reading ∈ readings history, reading ≤ now) → ∀ anchorId schema,
    cache.get anchorId now = some schema ↔ Current history anchorId now schema
  own : cache.store.All fun anchorId schema => computeAnchorId schema = anchorId

/-- The calls run without a fault and are served, and ids are those of equal values. -/
structure Lawful (history : List Call) : Prop where
  served : ∃ answers cache, run {} history = .ok (answers, cache) ∧ Serves history answers cache
  addressed : ∀ schema ∈ schemas history, ∀ other ∈ schemas history,
    computeAnchorId schema = computeAnchorId other ↔ schema.same other = true

end

theorem canonical_injective {schema other : Schema} (same : schema.canonical = other.canonical) :
    schema = other := by
  obtain ⟨fields, ordered⟩ := schema
  obtain ⟨others, ordered'⟩ := other
  have sorted := Value.object.inj (Value.text_injective same)
  rw [sortEntries_self ordered.1, sortEntries_self ordered'.1] at sorted
  subst sorted
  rfl

section
variable [Sha256] {known : List Schema}

theorem computeAnchorId_injective (free : CollisionFree known) {schema other : Schema}
    (member : schema ∈ known) (member' : other ∈ known)
    (same : computeAnchorId schema = computeAnchorId other) : schema = other := by
  have digests := Hex.encode_injective (String.append_right_inj _ |>.mp same)
  exact canonical_injective (free schema member other member' digests)

/-- A call of `set` on a cache of known schemas. -/
theorem set_eq (free : CollisionFree known) {cache : AnchorFrameCache}
    (own : cache.store.All fun anchorId schema => computeAnchorId schema = anchorId ∧ schema ∈ known)
    {reading : Instant} {schema : Schema} {ttlSecs : UInt64} (member : schema ∈ known)
    (fits : (Call.set reading schema ttlSecs).Representable) :
    cache.set reading schema ttlSecs = .ok (.ok (computeAnchorId schema),
      { store := (Call.set reading schema ttlSecs).op.apply cache.store }) := by
  have unpoisoned : (cache.store.lookup (computeAnchorId schema)).any
      (fun existing => !existing.value.same schema && live reading existing) = false := by
    cases held : cache.store.lookup (computeAnchorId schema) with
    | none => rfl
    | some existing =>
      obtain ⟨same, known'⟩ := own _ existing held
      obtain rfl := computeAnchorId_injective free known' member same
      simp [Schema.same, Value.same_refl]
  have added : plusSeconds reading ttlSecs = .ok (reading + ttlSecs.toNat * 1000000000) := if_pos fits
  simp only [set, added, unpoisoned, Outcome.ok_bind, Bool.false_eq_true, if_false]
  rfl

/-- A run of representable calls is the run of its operations, and no `set` is refused. -/
theorem run_eq (free : CollisionFree known) {history : List Call}
    (fits : ∀ call ∈ history, call.Representable) (inside : ∀ schema ∈ schemas history, schema ∈ known)
    {cache : AnchorFrameCache}
    (own : cache.store.All fun anchorId schema => computeAnchorId schema = anchorId ∧ schema ∈ known) :
    run cache history = .ok ((schemas history).map fun schema => .ok (computeAnchorId schema),
      { store := (history.map Call.op).foldl Op.apply cache.store }) := by
  induction history generalizing cache with
  | nil => rfl
  | cons call rest ih =>
    have later := fun other member => fits other (List.mem_cons_of_mem call member)
    cases call with
    | set reading schema ttlSecs =>
      have first : schema ∈ known := inside schema List.mem_cons_self
      have own' := (Call.set reading schema ttlSecs).op.apply_all own (by
        rintro key entry ⟨⟩
        exact ⟨rfl, first⟩)
      have inside' := fun other member => inside other (List.mem_cons_of_mem schema member)
      have next : run { store := (Call.set reading schema ttlSecs).op.apply cache.store } rest = _ :=
        ih later inside' own'
      rw [run, set_eq free own first (fits _ List.mem_cons_self), Outcome.ok_bind]
      dsimp only
      rw [next]
      rfl
    | invalidate anchorId =>
      have own' := (Call.invalidate anchorId).op.apply_all own (fun _ _ => nofun)
      exact ih later inside own'
    | evictExpired reading =>
      have own' := (Call.evictExpired reading).op.apply_all own (fun _ _ => nofun)
      exact ih later inside own'

theorem representable_of_run {history : List Call} {cache : AnchorFrameCache}
    {result : List (NpsResult String) × AnchorFrameCache} (done : run cache history = .ok result) :
    ∀ call ∈ history, call.Representable := by
  induction history generalizing cache result with
  | nil => exact fun _ => nofun
  | cons call rest ih =>
    refine List.forall_mem_cons.mpr ?_
    cases call with
    | set reading schema ttlSecs =>
      rw [run, Outcome.bind_ok] at done
      obtain ⟨⟨answer, cache'⟩, answered, more⟩ := done
      obtain ⟨expires, added, -⟩ := Outcome.bind_ok.mp answered
      obtain ⟨last, after, -⟩ := Outcome.bind_ok.mp more
      refine ⟨?_, ih after⟩
      change (if reading + ttlSecs.toNat * 1000000000 < Expiring.limit then _ else _) = _ at added
      split_ifs at added with fits
      exact fits
    | invalidate anchorId => exact ⟨trivial, ih done⟩
    | evictExpired reading => exact ⟨trivial, ih done⟩

theorem latest_op {history : List Call} {anchorId : String} {entry : Expiring.Entry Schema Instant} :
    Expiring.Latest (history.map Call.op) anchorId entry ↔
      ∃ before reading ttlSecs after, history = before ++ .set reading entry.value ttlSecs :: after ∧
        computeAnchorId entry.value = anchorId ∧
        entry.expires = reading + ttlSecs.toNat * 1000000000 ∧ ∀ call ∈ after, ¬ call.Concerns anchorId := by
  constructor
  · rintro ⟨before, after, same, untouched⟩
    obtain ⟨calls, tail, rfl, rfl, split⟩ := List.map_eq_append_iff.mp same
    obtain ⟨call, rest, rfl, put, rfl⟩ := List.map_eq_cons_iff.mp split
    cases call with
    | set reading schema ttlSecs =>
      cases put
      refine ⟨calls, reading, ttlSecs, rest, rfl, rfl, rfl, fun other member concerns => ?_⟩
      exact untouched other.op (List.mem_map_of_mem member) (Call.touches_op.mpr concerns)
    | invalidate other => cases put
    | evictExpired reading => cases put
  · rintro ⟨before, reading, ttlSecs, after, rfl, rfl, expires, untouched⟩
    refine ⟨before.map Call.op, after.map Call.op, ?_, ?_⟩
    · rw [List.map_append, List.map_cons, Call.op, ← expires]
    · intro op member
      obtain ⟨call, inside, rfl⟩ := List.mem_map.mp member
      exact fun touches => untouched call inside (Call.touches_op.mp touches)

theorem get_current {history : List Call} {now : Instant}
    (past : ∀ reading ∈ readings history, reading ≤ now) {anchorId : String} {schema : Schema} :
    ((history.map Call.op).foldl Op.apply (∅ : Store String Schema Instant)).get anchorId now = some schema ↔
      Current history anchorId now schema := by
  have swept (at_ : Instant) (member : .sweep at_ ∈ history.map Call.op) : at_ ≤ now := by
    obtain ⟨call, inside, same⟩ := List.mem_map.mp member
    cases call with
    | evictExpired reading =>
      cases same
      exact past at_ (List.mem_filterMap.mpr ⟨_, inside, rfl⟩)
    | _ => cases same
  rw [Expiring.get_foldl swept, Option.map_eq_some_iff]
  simp only [Option.filter_eq_some_iff, Expiring.track_eq_some, latest_op]
  constructor
  · rintro ⟨entry, ⟨⟨before, reading, ttlSecs, after, split, own, expires, untouched⟩, lives⟩, rfl⟩
    refine ⟨before, reading, ttlSecs, after, split, own, ?_, untouched⟩
    exact sub_lt_iff_lt_add'.mpr (expires ▸ of_decide_eq_true lives)
  · rintro ⟨before, reading, ttlSecs, after, split, own, fresh, untouched⟩
    exact ⟨{ value := schema, expires := reading + ttlSecs.toNat * 1000000000 },
      ⟨⟨before, reading, ttlSecs, after, split, own, rfl, untouched⟩,
        decide_eq_true (sub_lt_iff_lt_add'.mp fresh)⟩, rfl⟩

/-- Schemas that are equal as values have one text; they have not when they differ in the sign of
a zero. -/
def SpelledAlike (known : List Schema) : Prop :=
  ∀ schema ∈ known, ∀ other ∈ known, schema.same other = true → schema.canonical = other.canonical

theorem addressed_iff (free : CollisionFree known) :
    (∀ schema ∈ known, ∀ other ∈ known,
      computeAnchorId schema = computeAnchorId other ↔ schema.same other = true) ↔ SpelledAlike known := by
  constructor
  · intro addressed schema member other member' same
    rw [computeAnchorId_injective free member member' ((addressed schema member other member').mpr same)]
  · intro alike schema member other member'
    constructor
    · intro shared
      rw [computeAnchorId_injective free member member' shared]
      exact Value.same_refl _
    · intro same
      rw [canonical_injective (alike schema member other member' same)]

/-- While no two schemas collide, the cache is lawful just when every lifetime ends at an instant
that the clock can tell and equal schemas have one text. -/
theorem cache_lawful_iff {history : List Call} (free : CollisionFree (schemas history)) :
    Lawful history ↔ (∀ call ∈ history, call.Representable) ∧ SpelledAlike (schemas history) := by
  constructor
  · rintro ⟨⟨answers, cache, done, -⟩, addressed⟩
    exact ⟨representable_of_run done, (addressed_iff free).mp addressed⟩
  · rintro ⟨fits, alike⟩
    refine ⟨⟨_, _, run_eq free fits (fun _ member => member) (fun _ _ => nofun), ?_⟩,
      (addressed_iff free).mpr alike⟩
    refine ⟨rfl, fun now past anchorId schema => get_current past, ?_⟩
    refine Expiring.foldl_all (fun _ _ => nofun) fun key entry member => ?_
    obtain ⟨call, -, put⟩ := List.mem_map.mp member
    cases call with
    | set reading schema ttlSecs =>
      cases put
      rfl
    | invalidate other => cases put
    | evictExpired reading => cases put

end

def noFields : Schema := ⟨[], .nil, trivial⟩

def named : Schema := ⟨[("name", .string "text")], List.pairwise_singleton _ _, trivial, trivial⟩

abbrev digests : Sha256 where
  digest bytes := if bytes = [0x7B, 0x7D] then
    [0x44, 0x13, 0x6F, 0xA3, 0x55, 0xB3, 0x67, 0x8A, 0x11, 0x46, 0xAD, 0x16, 0xF7, 0xE8, 0x64, 0x9E,
      0x94, 0xFB, 0x4F, 0xC2, 0x1F, 0xE7, 0x7E, 0x83, 0x10, 0xC0, 0x60, 0xF6, 0x1C, 0xAA, 0xFF, 0x8A]
    else if bytes = Text.utf8 "\x7b\"name\":\"text\"\x7d" then
    [0x91, 0x22, 0x9D, 0x01, 0x33, 0xAD, 0xA8, 0x73, 0x64, 0xD1, 0xD8, 0x4B, 0x3E, 0xAB, 0xE2, 0x6A,
      0x63, 0x20, 0xE6, 0x7D, 0x21, 0x18, 0xC6, 0x51, 0x0A, 0x2A, 0xCC, 0x3F, 0xBB, 0x81, 0x13, 0x7D]
    else []

/-- One schema is set again before it expires, and the other has expired by then. -/
def twice : List Call :=
  [.set 0 noFields 3600, .set 1000000000 named 60, .evictExpired 100000000000,
    .set 200000000000 noFields 7200, .set 300000000000 named 60, .invalidate "sha256:00"]

theorem twice_served : @Lawful digests twice := by
  let hash := digests
  have known : ∀ schema ∈ schemas twice, schema = noFields ∨ schema = named := by
    intro schema member
    simp only [schemas, twice, Call.schema?, List.filterMap_cons, List.filterMap_nil, List.mem_cons,
      List.not_mem_nil, or_false] at member
    rcases member with rfl | rfl | rfl | rfl
    exacts [.inl rfl, .inr rfl, .inl rfl, .inr rfl]
  have free : CollisionFree (schemas twice) := by
    intro schema member other member' shared
    rcases known schema member with rfl | rfl <;> rcases known other member' with rfl | rfl
    · rfl
    · exact absurd shared (by decide +kernel)
    · exact absurd shared (by decide +kernel)
    · rfl
  refine (cache_lawful_iff free).mpr ⟨by simp [twice, Call.Representable, Expiring.limit], ?_⟩
  intro schema member other member' same
  rcases known schema member with rfl | rfl <;> rcases known other member' with rfl | rfl
  · rfl
  · exact absurd same (by decide +kernel)
  · exact absurd same (by decide +kernel)
  · rfl

theorem longest_ttl_faults : ¬ ∀ [Sha256] (history : List Call),
    CollisionFree (schemas history) → Lawful history := by
  intro always
  let hash := digests
  have free : CollisionFree (schemas [.set 0 noFields 0xFFFFFFFFFFFFFFFF]) := by
    intro schema member other member' _
    rw [List.mem_singleton.mp member, List.mem_singleton.mp member']
  obtain ⟨answers, cache, done, -⟩ := (always _ free).served
  have fits := representable_of_run done _ List.mem_cons_self
  revert fits
  simp [Call.Representable, Expiring.limit]

end AnchorFrameCache
end Nps.Core
