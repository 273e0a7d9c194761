import Mathlib.Data.List.InsertIdx
import NpsSdk.Lib.Interaction

/-! Futures that one executor drives: it polls whichever it likes, one operation at a time,
until one of them is done. What it is going to poll is given as a list of choices. -/
namespace Interaction
open Prog
variable {Op : Type} {Answer : Op → Type} {κ α : Type}

abbrev Futures (Answer : Op → Type) (κ α : Type) := List (κ × Prog Answer α)

/-- The first future of the collection that is done, and those that are left; nothing when there
are none. Choices that run out leave the first future to be run to its end. -/
def awaitNext : (choices : List Nat) → Futures Answer κ α →
    Prog Answer (Option ((κ × α) × Futures Answer κ α))
  | _, [] => done none
  | [], (key, future) :: rest => future.map fun result => some ((key, result), rest)
  | i :: choices, futures =>
    match futures[i]? with
    | none => awaitNext choices futures
    | some (key, done result) => done (some ((key, result), futures.eraseIdx i))
    | some (key, call op next) => call op fun answer => awaitNext choices (futures.set i (key, next answer))

def Kept (P : κ → Prog Answer α → Prop) : Prop :=
  ∀ key op next, P key (call op next) → ∀ answer, P key (next answer)

theorem returns_map {β : Type} {f : α → β} {p : Prog Answer α} {b : β} :
    Returns (p.map f) b ↔ ∃ a, Returns p a ∧ b = f a := by
  induction p with
  | done result => simp [Prog.map]
  | call op next ih =>
    simp only [Prog.map, returns_call, ih]
    constructor
    · rintro ⟨answer, a, returns, same⟩
      exact ⟨a, ⟨answer, returns⟩, same⟩
    · rintro ⟨a, ⟨answer, returns⟩, same⟩
      exact ⟨answer, a, returns, same⟩

theorem kept_returns {P : κ → Prog Answer α → Prop} (kept : Kept P) {key : κ} {p : Prog Answer α}
    {a : α} (holds : P key p) (returns : Returns p a) : P key (done a) := by
  induction p with
  | done result =>
    cases returns_done.mp returns
    exact holds
  | call op next ih =>
    obtain ⟨answer, later⟩ := returns_call.mp returns
    exact ih answer (kept key op next holds answer) later

section Next
variable {P : κ → Prog Answer α → Prop} {futures rest : Futures Answer κ α} {choices : List Nat}
  {key : κ} {a : α}

theorem awaitNext_nil {out : Option ((κ × α) × Futures Answer κ α)} :
    Returns (awaitNext choices ([] : Futures Answer κ α)) out ↔ out = none := by
  unfold awaitNext
  exact returns_done

theorem awaitNext_cons (i : Nat) : awaitNext (i :: choices) futures =
    match futures[i]? with
    | none => awaitNext choices futures
    | some (key, done result) => done (some ((key, result), futures.eraseIdx i))
    | some (key, call op next) =>
      call op fun answer => awaitNext choices (futures.set i (key, next answer)) := by
  cases futures with
  | nil => cases choices <;> rfl
  | cons first others => rfl

/-- What polling keeps of all futures holds of the one that is done, and the others still
have it. -/
theorem awaitNext_some (kept : Kept P) (all : ∀ future ∈ futures, P future.1 future.2)
    (returns : Returns (awaitNext choices futures) (some ((key, a), rest))) :
    ∃ i, (futures.map Prod.fst)[i]? = some key ∧
      rest.map Prod.fst = (futures.map Prod.fst).eraseIdx i ∧ P key (done a) ∧
      ∀ future ∈ rest, P future.1 future.2 := by
  induction choices generalizing futures with
  | nil =>
    cases futures with
    | nil => cases awaitNext_nil.mp returns
    | cons first others =>
      obtain ⟨key', future⟩ := first
      obtain ⟨result, finished, same⟩ := returns_map.mp returns
      cases same
      rw [List.forall_mem_cons] at all
      exact ⟨0, rfl, rfl, kept_returns kept all.1 finished, all.2⟩
  | cons i choices ih =>
    rw [awaitNext_cons] at returns
    rcases found : futures[i]? with _ | ⟨key', result | ⟨op, next⟩⟩ <;> rw [found] at returns
    · exact ih all returns
    · cases returns_done.mp returns
      have here := all _ (List.mem_of_getElem? found)
      refine ⟨i, by rw [List.getElem?_map, found]; rfl, (List.eraseIdx_map ..).symm, here, ?_⟩
      exact fun future member => all future (List.mem_of_mem_eraseIdx member)
    · obtain ⟨answer, later⟩ := returns_call.mp returns
      have here := all _ (List.mem_of_getElem? found)
      have stays : (futures.set i (key', next answer)).map Prod.fst = futures.map Prod.fst := by
        obtain ⟨bound, same⟩ := List.getElem?_eq_some_iff.mp found
        have own : key' = (futures.map Prod.fst).get ⟨i, by rwa [List.length_map]⟩ := by simp [same]
        rw [List.map_set, own, List.get_eq_getElem, List.set_getElem_self]
      have all' : ∀ future ∈ futures.set i (key', next answer), P future.1 future.2 := by
        intro future member
        rcases List.mem_or_eq_of_mem_set member with old | rfl
        · exact all future old
        · exact kept _ _ _ here answer
      obtain ⟨j, position, left, finished, others⟩ := ih all' later
      rw [stays] at position left
      exact ⟨j, position, left, finished, others⟩

theorem awaitNext_ne_none (some_ : futures ≠ []) : ¬ Returns (awaitNext choices futures) none := by
  induction choices generalizing futures with
  | nil =>
    cases futures with
    | nil => exact absurd rfl some_
    | cons first others =>
      intro returns
      obtain ⟨result, -, same⟩ := returns_map.mp returns
      cases same
  | cons i choices ih =>
    intro returns
    rw [awaitNext_cons] at returns
    rcases found : futures[i]? with _ | ⟨key', result | ⟨op, next⟩⟩ <;> rw [found] at returns
    · exact ih some_ returns
    · cases returns_done.mp returns
    · obtain ⟨answer, later⟩ := returns_call.mp returns
      refine ih ?_ later
      intro empty
      exact some_ (List.length_eq_zero_iff.mp (by rw [← List.length_set, empty]; rfl))

theorem awaitNext_only {allowed : Op → Prop} (all : ∀ future ∈ futures, Only allowed future.2) :
    Only allowed (awaitNext choices futures) := by
  induction choices generalizing futures with
  | nil =>
    cases futures with
    | nil => trivial
    | cons first others => exact (all first List.mem_cons_self).map
  | cons i choices ih =>
    rw [awaitNext_cons]
    rcases found : futures[i]? with _ | ⟨key, result | ⟨op, next⟩⟩
    · exact ih all
    · trivial
    · have here := all _ (List.mem_of_getElem? found)
      refine ⟨here.1, fun answer => ih fun future member => ?_⟩
      rcases List.mem_or_eq_of_mem_set member with old | rfl
      · exact all future old
      · exact here.2 answer

theorem kept_only (allowed : Op → Prop) :
    Kept fun (_ : κ) (p : Prog Answer α) => Only allowed p :=
  fun _ _ _ only answer => only.2 answer

end Next

/-- The program is given up when its time is over at one of the operations that it waits for. -/
def withTimeout (waits : Op → Bool) (timer : Op) (isOver : Answer timer → Bool) :
    Prog Answer α → Prog Answer (Option α)
  | done result => done (some result)
  | call op next =>
    if waits op then
      call timer fun answer =>
        if isOver answer then done none
        else call op fun answer => withTimeout waits timer isOver (next answer)
    else call op fun answer => withTimeout waits timer isOver (next answer)

end Interaction
