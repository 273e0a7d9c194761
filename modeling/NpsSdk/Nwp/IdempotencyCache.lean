import NpsSdk.Lib.Assoc
import NpsSdk.Lib.Text
import NpsSdk.Nwp.ActionTaskStore

/-! Outcomes of actions that are kept under the idempotency keys of their requests. -/
namespace Nps.Nwp
open Json (Value)

structure ActionStreamFrame where
  streamId : String := ""
  seq : Nat
  isLast : Bool
  anchorRef : Option String := none
  data : List Value := []
  windowSize : Option Nat := none
  errorCode : Option String := none

structure IdempotentEntry where
  actionId : String
  paramsHash : String
  result : Option Value
  streamFrames : Option (List ActionStreamFrame)
  anchorRef : Option String
  taskId : Option String
  expiresAt : OffsetDateTime

abbrev InMemoryIdempotencyCache := Assoc String IdempotentEntry

namespace InMemoryIdempotencyCache

def key (actionId idempotencyKey : String) : String :=
  actionId ++ "\x1f" ++ idempotencyKey

variable (cache : InMemoryIdempotencyCache) (now : OffsetDateTime) (actionId idempotencyKey : String)

/-- An entry that has expired is dropped when it is looked up. -/
def get : Option IdempotentEntry × InMemoryIdempotencyCache :=
  match cache.lookup (key actionId idempotencyKey) with
  | some entry =>
    if entry.expiresAt ≤ now then (none, cache.erase (key actionId idempotencyKey))
    else (some entry, cache)
  | none => (none, cache)

/-- An entry that has not expired stays; the answer is whether it is for the same parameters. -/
def tryStore (entry : IdempotentEntry) : Bool × InMemoryIdempotencyCache :=
  match cache.lookup (key actionId idempotencyKey) with
  | some existing =>
    if existing.expiresAt > now then (existing.paramsHash = entry.paramsHash, cache)
    else (true, cache.insert (key actionId idempotencyKey) entry)
  | none => (true, cache.insert (key actionId idempotencyKey) entry)

def Live (slot : String) : Prop :=
  ∃ entry, cache.lookup slot = some entry ∧ now < entry.expiresAt

def Keyed (slot hash : String) : Prop :=
  ∀ entry, cache.lookup slot = some entry → entry.paramsHash = hash

section Laws
variable {cache : InMemoryIdempotencyCache} {now : OffsetDateTime}
  {actionId idempotencyKey slot hash : String}

theorem get_spec :
    (∃ entry, cache.get now actionId idempotencyKey = (some entry, cache) ∧
      cache.lookup (key actionId idempotencyKey) = some entry) ∨
    (cache.get now actionId idempotencyKey).1 = none ∧
      ¬ cache.Live now (key actionId idempotencyKey) := by
  unfold get
  split
  · rename_i entry found
    split_ifs with expired
    · refine .inr ⟨rfl, ?_⟩
      rintro ⟨other, there, live⟩
      cases found.symm.trans there
      exact absurd expired (Int.not_le.mpr live)
    · exact .inl ⟨entry, rfl, found⟩
  · rename_i missing
    refine .inr ⟨rfl, ?_⟩
    rintro ⟨other, there, -⟩
    cases missing.symm.trans there

theorem get_missed (missed : (cache.get now actionId idempotencyKey).1 = none) :
    (cache.get now actionId idempotencyKey).2.lookup (key actionId idempotencyKey) = none := by
  unfold get at missed ⊢
  split at missed
  · rename_i entry found
    split_ifs at missed with expired
    rw [if_pos expired]
    exact AList.lookup_erase _ _
  · assumption

theorem get_lookup {entry : IdempotentEntry}
    (found : (cache.get now actionId idempotencyKey).2.lookup slot = some entry) :
    cache.lookup slot = some entry := by
  unfold get at found
  split at found
  · split_ifs at found with expired
    · rw [AList.lookup_erase_if] at found
      split_ifs at found
      exact found
    · exact found
  · exact found

theorem Keyed.get (keyed : cache.Keyed slot hash) :
    (cache.get now actionId idempotencyKey).2.Keyed slot hash :=
  fun entry found => keyed entry (get_lookup found)

theorem Keyed.tryStore (keyed : cache.Keyed slot hash) {entry : IdempotentEntry}
    (same : key actionId idempotencyKey = slot → entry.paramsHash = hash) :
    (cache.tryStore now actionId idempotencyKey entry).2.Keyed slot hash := by
  have inserted : InMemoryIdempotencyCache.Keyed
      (AList.insert (key actionId idempotencyKey) entry cache) slot hash := by
    intro other found
    rw [AList.lookup_insert_if] at found
    split_ifs at found with here
    · cases found
      exact same here.symm
    · exact keyed other found
  unfold InMemoryIdempotencyCache.tryStore
  split
  · split_ifs
    · exact keyed
    · exact inserted
  · exact inserted

end Laws
end InMemoryIdempotencyCache

/-- The 64-bit FNV-1a hash in hexadecimal. -/
def fnv1aHex (bytes : List UInt8) : String :=
  let hash := bytes.foldl (fun hash byte => (hash ^^^ byte.toUInt64) * 0x00000100000001b3)
    (0xcbf29ce484222325 : UInt64)
  Text.upperHex 16 hash.toNat

def hashParams (params : Option Value) : String :=
  let json := (params.map Value.text).getD "null"
  fnv1aHex (Text.utf8 json)

def idempotencyCacheScope (actionId : String) (agentNid : Option String) : String :=
  actionId ++ "\x1f" ++ agentNid.getD ""

end Nps.Nwp
