import Mathlib.Algebra.Group.Int.Defs
import Mathlib.Data.List.Induction
import Mathlib.Order.Lattice
import NpsSdk.Lib.Assoc

/-! Maps whose entries expire at an instant of a clock, and the instants of a monotonic clock. An entry that
has expired is as good as none, so that the map can be swept at any time. -/
namespace Expiring

abbrev Instant := Int

/-- Whole seconds of an instant are kept in 64 bits with a sign. -/
def limit : Instant := 2 ^ 63 * 1000000000

inductive Overflow where
  | instant
deriving DecidableEq

def plusSeconds (now : Instant) (seconds : UInt64) : Except Overflow Instant :=
  let later := now + seconds.toNat * 1000000000
  if later < limit then .ok later else .error .instant

structure Entry (β τ : Type) where
  value : β
  expires : τ

abbrev Store (κ β τ : Type) := Assoc κ (Entry β τ)

inductive Op (κ β τ : Type) where
  | put (key : κ) (entry : Entry β τ)
  | drop (key : κ)
  | sweep (now : τ)

section
variable {κ β τ : Type} [DecidableEq κ] [LinearOrder τ]

def live (now : τ) (entry : Entry β τ) : Bool := decide (now < entry.expires)

def Store.get (store : Store κ β τ) (key : κ) (now : τ) : Option β :=
  ((store.lookup key).filter (live now)).map Entry.value

def Op.apply (store : Store κ β τ) : Op κ β τ → Store κ β τ
  | put key entry => store.insert key entry
  | drop key => store.erase key
  | sweep now => store.retain (live now)

def Op.track (key : κ) (entry : Option (Entry β τ)) : Op κ β τ → Option (Entry β τ)
  | put other new => if key = other then some new else entry
  | drop other => if key = other then none else entry
  | sweep _ => entry

/-- Each operation leaves the live entry that it says, unless a sweep is from the future. -/
theorem Op.apply_live {store : Store κ β τ} {key : κ} {now : τ} {entry : Option (Entry β τ)} (op : Op κ β τ)
    (same : (store.lookup key).filter (live now) = entry.filter (live now))
    (past : ∀ at_, op = .sweep at_ → at_ ≤ now) :
    ((op.apply store).lookup key).filter (live now) = (op.track key entry).filter (live now) := by
  cases op with
  | put other new =>
    rw [apply, track, AList.lookup_insert_if]
    split_ifs
    · rfl
    · exact same
  | drop other =>
    rw [apply, track, AList.lookup_erase_if]
    split_ifs
    · rfl
    · exact same
  | sweep at_ =>
    have before := past at_ rfl
    rw [apply, track, AList.lookup_retain, Option.filter_filter, ← same]
    congr 1
    funext held
    refine Bool.eq_iff_iff.mpr ⟨fun both => (Bool.and_eq_true_iff.mp both).2, fun later => ?_⟩
    have after := of_decide_eq_true later
    exact Bool.and_eq_true_iff.mpr ⟨decide_eq_true (lt_of_le_of_lt before after), later⟩

/-- A store holds what the last operation on each key left, for as long as that lives. -/
theorem get_foldl {ops : List (Op κ β τ)} {now : τ} (past : ∀ at_, .sweep at_ ∈ ops → at_ ≤ now) (key : κ) :
    (ops.foldl Op.apply (∅ : Store κ β τ)).get key now =
      ((ops.foldl (Op.track key) none).filter (live now)).map Entry.value := by
  have lives {store : Store κ β τ} {entry : Option (Entry β τ)}
      (same : (store.lookup key).filter (live now) = entry.filter (live now)) :
      ((ops.foldl Op.apply store).lookup key).filter (live now) =
        (ops.foldl (Op.track key) entry).filter (live now) := by
    induction ops generalizing store entry with
    | nil => exact same
    | cons op ops ih =>
      refine ih (fun at_ member => past at_ (List.mem_cons_of_mem _ member)) (op.apply_live same ?_)
      rintro at_ rfl
      exact past at_ List.mem_cons_self
  rw [Store.get, @lives ∅ none rfl]

def Op.Touches (key : κ) : Op κ β τ → Prop
  | put other _ => other = key
  | drop other => other = key
  | sweep _ => False

/-- The entry was the last to be put under the key, and the key was not dropped after it. -/
def Latest (ops : List (Op κ β τ)) (key : κ) (entry : Entry β τ) : Prop :=
  ∃ before after, ops = before ++ .put key entry :: after ∧ ∀ op ∈ after, ¬ op.Touches key

omit [DecidableEq κ] [LinearOrder τ] in
theorem latest_append {ops : List (Op κ β τ)} {op : Op κ β τ} {key : κ} {entry : Entry β τ} :
    Latest (ops ++ [op]) key entry ↔ op = .put key entry ∨ (¬ op.Touches key ∧ Latest ops key entry) := by
  constructor
  · rintro ⟨before, after, same, untouched⟩
    rcases List.eq_nil_or_concat after with rfl | ⟨rest, last, rfl⟩
    · exact .inl (List.singleton_inj.mp (List.append_inj' same rfl).2)
    · rw [List.concat_eq_append, ← List.cons_append, ← List.append_assoc] at same
      obtain ⟨earlier, now⟩ := List.append_inj' same rfl
      cases List.singleton_inj.mp now
      refine .inr ⟨untouched op (by simp), before, rest, earlier, fun other member => ?_⟩
      exact untouched other (by simp [member])
  · rintro (rfl | ⟨untouched, before, after, rfl, rest⟩)
    · exact ⟨ops, [], rfl, fun _ => nofun⟩
    · refine ⟨before, after ++ [op], by simp, fun other member => ?_⟩
      rcases List.mem_append.mp member with early | late
      · exact rest other early
      · exact List.mem_singleton.mp late ▸ untouched

omit [LinearOrder τ] in
theorem Op.track_eq_some {op : Op κ β τ} {key : κ} {held : Option (Entry β τ)} {entry : Entry β τ} :
    op.track key held = some entry ↔ op = .put key entry ∨ (¬ op.Touches key ∧ held = some entry) := by
  cases op with
  | put other new =>
    by_cases same : key = other
    · subst same
      simp [track, Touches]
    · simp [track, Touches, same, Ne.symm same]
  | drop other =>
    by_cases same : key = other
    · simp [track, Touches, same]
    · simp [track, Touches, same, Ne.symm same]
  | sweep at_ => simp [track, Touches]

omit [LinearOrder τ] in
theorem track_eq_some {ops : List (Op κ β τ)} {key : κ} {entry : Entry β τ} :
    ops.foldl (Op.track key) none = some entry ↔ Latest ops key entry := by
  induction ops using List.reverseRecOn with
  | nil =>
    refine iff_of_false nofun ?_
    rintro ⟨before, after, same, -⟩
    exact absurd same (by simp)
  | append_singleton ops op ih =>
    rw [List.foldl_append, List.foldl_cons, List.foldl_nil, Op.track_eq_some, latest_append, ih]

def Store.All (store : Store κ β τ) (holds : κ → β → Prop) : Prop :=
  ∀ key entry, store.lookup key = some entry → holds key entry.value

theorem Op.apply_all {store : Store κ β τ} {holds : κ → β → Prop} (all : store.All holds) (op : Op κ β τ)
    (new : ∀ key entry, op = .put key entry → holds key entry.value) : (op.apply store).All holds := by
  intro key entry found
  cases op with
  | put other entry' =>
    rw [apply, AList.lookup_insert_if] at found
    split_ifs at found with same
    · cases found
      exact same ▸ new other entry rfl
    · exact all key entry found
  | drop other =>
    rw [apply, AList.lookup_erase_if] at found
    split_ifs at found
    exact all key entry found
  | sweep at_ =>
    rw [apply, AList.lookup_retain] at found
    exact all key entry (Option.filter_eq_some_iff.mp found).1

theorem foldl_all {store : Store κ β τ} {holds : κ → β → Prop} (all : store.All holds)
    {ops : List (Op κ β τ)} (new : ∀ key entry, .put key entry ∈ ops → holds key entry.value) :
    (ops.foldl Op.apply store).All holds := by
  induction ops generalizing store with
  | nil => exact all
  | cons op ops ih =>
    refine ih (op.apply_all all ?_) fun key entry member => new key entry (List.mem_cons_of_mem _ member)
    rintro key entry rfl
    exact new key entry List.mem_cons_self

end
end Expiring
