import Mathlib.Tactic.Common

/-! Computations that answer something or nothing, and may fault on the way, against the answers that
they should give. -/
namespace Checked
variable {ε α β γ δ : Type}

/-- No fault, and the expected answer as it is viewed. -/
def Yields (x : OptionT (Except ε) α) (view : α → β) (expected : Option β) : Prop :=
  ∃ answer, x.run = .ok answer ∧ answer.map view = expected

def attempt (x : OptionT (Except ε) α) : OptionT (Except ε) (Option α) := OptionT.mk (x.run.map some)

section Rules
variable {x : OptionT (Except ε) α} {next : α → OptionT (Except ε) γ} {view : α → β} {view' : γ → δ}
  {y : Option β} {expected : Option δ}

theorem Yields.pure (a : α) : Yields (pure a : OptionT (Except ε) α) view (some (view a)) :=
  ⟨some a, rfl, rfl⟩

theorem Yields.failure : Yields (failure : OptionT (Except ε) α) view none := ⟨none, rfl, rfl⟩

theorem Yields.bind {next' : β → Option δ} (first : Yields x view y)
    (later : ∀ a, y = some (view a) → Yields (next a) view' (next' (view a))) :
    Yields (x >>= next) view' (y >>= next') := by
  obtain ⟨answer, ran, rfl⟩ := first
  cases answer with
  | none => exact ⟨none, by rw [OptionT.run_bind, ran]; rfl, rfl⟩
  | some a =>
    obtain ⟨answer', ran', same⟩ := later a rfl
    exact ⟨answer', by rw [OptionT.run_bind, ran]; exact ran', same⟩

theorem Yields.step {e : Except ε α} {a : α} (done : e = .ok a) (later : Yields (next a) view' expected) :
    Yields (liftM e >>= next) view' expected := by
  subst done
  exact later

theorem Yields.check {p : Prop} [Decidable p] {next : Unit → OptionT (Except ε) γ}
    (holds : p → Yields (next ()) view' expected) (fails : ¬ p → expected = none) :
    Yields (guard p >>= next) view' expected := by
  unfold guard
  split
  · exact holds ‹_›
  · rw [fails ‹_›]
    exact ⟨none, rfl, rfl⟩

theorem Yields.cond {p : Prop} [Decidable p] {x' : OptionT (Except ε) α} {y' : Option β}
    (holds : Yields x view y) (fails : Yields x' view y') :
    Yields (if p then x else x') view (if p then y else y') := by
  split
  · exact holds
  · exact fails

theorem Yields.join {p : Prop} [Decidable p] {x' : OptionT (Except ε) α} {y' : Option β}
    {next' : β → Option δ} (first : Yields x view y) (other : Yields x' view y')
    (later : ∀ a, Yields (next a) view' (next' (view a))) :
    Yields (if p then x >>= next else x' >>= next) view'
      (if p then y >>= next' else y' >>= next') :=
  .cond (first.bind fun a _ => later a) (other.bind fun a _ => later a)

theorem Yields.attempt (yields : Yields x view y) :
    Yields (attempt x) (Option.map view) (some y) := by
  obtain ⟨answer, ran, same⟩ := yields
  exact ⟨some answer, by rw [Checked.attempt, OptionT.run_mk, ran]; rfl, congrArg some same⟩

theorem Yields.map {rename : α → γ} {rename' : β → δ} (yields : Yields x view y)
    (same : ∀ a, view' (rename a) = rename' (view a)) : Yields (rename <$> x) view' (y.map rename') := by
  obtain ⟨answer, ran, rfl⟩ := yields
  refine ⟨answer.map rename, by rw [OptionT.run_map, ran]; rfl, ?_⟩
  cases answer with
  | none => rfl
  | some a => exact congrArg some (same a)

end Rules
end Checked
