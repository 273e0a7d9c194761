import Mathlib.Tactic.Common

/-! Sequencing of computations that may fail. -/
namespace Outcome
variable {ε α β : Type}

theorem bind_ok {x : Except ε α} {next : α → Except ε β} {result : β} :
    (x >>= next) = .ok result ↔ ∃ value, x = .ok value ∧ next value = .ok result := by
  cases x with
  | error e => simp [bind, Except.bind]
  | ok value => simp [bind, Except.bind]

theorem cons_ok {x : Except ε α} {rest : Except ε (List α)} {result : List α} :
    (do let value ← x; return value :: (← rest)) = .ok result ↔
      ∃ value values, x = .ok value ∧ rest = .ok values ∧ result = value :: values := by
  cases x with
  | error e => simp [bind, Except.bind]
  | ok value =>
    cases rest with
    | error e => simp [bind, Except.bind]
    | ok values => simp [bind, Except.bind, pure, Except.pure, eq_comm]

theorem bind_error {x : Except ε α} {next : α → Except ε β} {e : ε} :
    (x >>= next) = .error e ↔ x = .error e ∨ ∃ value, x = .ok value ∧ next value = .error e := by
  cases x with
  | error e => simp [bind, Except.bind]
  | ok value => simp [bind, Except.bind]

theorem map_ok {x : Except ε α} {f : α → β} {result : β} :
    x.map f = .ok result ↔ ∃ value, x = .ok value ∧ f value = result := by
  cases x <;> simp [Except.map]

theorem mapError_ok {δ : Type} {f : ε → δ} {x : Except ε α} {value : α} :
    x.mapError f = .ok value ↔ x = .ok value := by
  cases x <;> simp [Except.mapError]

@[simp] theorem ok_bind (value : α) (next : α → Except ε β) :
    ((.ok value : Except ε α) >>= next) = next value := rfl

@[simp] theorem error_bind (e : ε) (next : α → Except ε β) :
    ((.error e : Except ε α) >>= next) = .error e := rfl

@[simp] theorem pure_eq (value : α) : (pure value : Except ε α) = .ok value := rfl

def ensure (condition : Prop) [Decidable condition] (error : ε) : Except ε Unit :=
  if condition then .ok () else .error error

@[simp] theorem ensure_ok {condition : Prop} [Decidable condition] {error : ε} {u : Unit} :
    ensure condition error = .ok u ↔ condition := by
  unfold ensure
  split <;> simp [*]

theorem ensure_true {condition : Prop} [Decidable condition] {error : ε} (holds : condition) :
    ensure condition error = .ok () := if_pos holds

@[simp] theorem elim_ok {x : Option α} {e : ε} {value : α} :
    x.elim (.error e) Except.ok = .ok value ↔ x = some value := by
  cases x <;> simp

end Outcome
