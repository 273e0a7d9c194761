import Mathlib.Tactic.Common

/-! Labelled transition systems: runs with their labels, invariants along a run and
runs all of whose steps meet a condition; and machines that read one input after the other, give
outputs on the way and may stop. -/
namespace Transition
variable {σ ε γ : Type}

inductive Run (step : σ → ε → σ → Prop) : σ → List ε → σ → Prop where
  | refl (s) : Run step s [] s
  | next {s t u : σ} {e : ε} {es : List ε} : step s e t → Run step t es u → Run step s (e :: es) u

/-- The steps taken from states, and with labels, that meet a condition. -/
def Guarded (condition : σ → ε → Prop) (step : σ → ε → σ → Prop) (s : σ) (e : ε) (t : σ) : Prop :=
  condition s e ∧ step s e t

/-- Steps beside which what has happened so far is recorded. -/
def Recorded (step : σ → ε → σ → Prop) (s : σ × List ε) (e : ε) (t : σ × List ε) : Prop :=
  step s.1 e t.1 ∧ t.2 = s.2 ++ [e]

/-- Steps beside which a log is kept of what each of them did. -/
def Logged (log : σ → ε → σ → List γ) (step : σ → ε → σ → Prop) (s : σ × List γ) (e : ε)
    (t : σ × List γ) : Prop :=
  step s.1 e t.1 ∧ t.2 = s.2 ++ log s.1 e t.1

namespace Run
variable {step : σ → ε → σ → Prop} {s t u : σ} {es fs : List ε}

theorem trans (first : Run step s es t) (second : Run step t fs u) : Run step s (es ++ fs) u := by
  induction first with
  | refl => exact second
  | next head tail ih => exact .next head (ih second)

theorem single {e : ε} (head : step s e t) : Run step s [e] t := .next head (.refl t)

theorem of_single {e : ε} (run : Run step s [e] t) : step s e t := by
  obtain _ | ⟨head, _ | _⟩ := run
  exact head

/-- What every step preserves, a whole run preserves. -/
theorem invariant {P : σ → Prop} (preserved : ∀ {s e t}, P s → step s e t → P t)
    (run : Run step s es t) (initial : P s) : P t := by
  induction run with
  | refl => exact initial
  | next head tail ih => exact ih (preserved initial head)

theorem mono {other : σ → ε → σ → Prop} (weaker : ∀ {s e t}, step s e t → other s e t)
    (run : Run step s es t) : Run other s es t := by
  induction run with
  | refl => exact .refl _
  | next head tail ih => exact .next (weaker head) ih

theorem mono_of {P : σ → Prop} {other : σ → ε → σ → Prop}
    (preserved : ∀ {s e t}, P s → step s e t → P t)
    (stronger : ∀ {s e t}, P s → step s e t → other s e t) (run : Run step s es t) (initial : P s) :
    Run other s es t := by
  induction run with
  | refl => exact .refl _
  | next head tail ih => exact .next (stronger initial head) (ih (preserved initial head))

/-- A run whose labels meet a condition in every state. -/
theorem guarded {condition : σ → ε → Prop} (run : Run step s es t)
    (met : ∀ e ∈ es, ∀ s, condition s e) : Run (Guarded condition step) s es t := by
  induction run with
  | refl => exact .refl _
  | next head tail ih =>
    exact .next ⟨met _ List.mem_cons_self _, head⟩ (ih fun e later => met e (List.mem_cons_of_mem _ later))

/-- What has happened in a run is what is recorded of it. -/
theorem recorded (run : Run step s es t) (history : List ε) :
    Run (Recorded step) (s, history) es (t, history ++ es) := by
  induction run generalizing history with
  | refl =>
    rw [List.append_nil]
    exact .refl _
  | @next s t u e es head tail ih =>
    have rest := ih (history ++ [e])
    rw [List.append_assoc] at rest
    exact .next ⟨head, rfl⟩ rest

theorem logged (log : σ → ε → σ → List γ) (run : Run step s es t) (before : List γ) :
    ∃ after, Run (Logged log step) (s, before) es (t, after) := by
  induction run generalizing before with
  | refl => exact ⟨before, .refl _⟩
  | @next s t u e es head tail ih =>
    obtain ⟨after, rest⟩ := ih (before ++ log s e t)
    exact ⟨after, .next ⟨head, rfl⟩ rest⟩

theorem chain {state : Nat → σ} {label : Nat → ε} (count : Nat)
    (steps : ∀ n < count, step (state n) (label n) (state (n + 1))) :
    Run step (state 0) ((List.range count).map label) (state count) := by
  induction count with
  | zero => exact .refl _
  | succ n ih =>
    have before := ih fun k below => steps k (Nat.lt_succ_of_lt below)
    rw [List.range_succ, List.map_append]
    exact before.trans (.single (steps n n.lt_succ_self))

end Run
end Transition

namespace Machine
variable {σ τ α β ω : Type}

abbrev Reading (ω σ : Type) := List ω × Option σ

/-- Go on from the state that a reading has come to. -/
def andThen (first : Reading ω σ) (next : σ → Reading ω τ) : Reading ω τ :=
  match first with
  | (out, none) => (out, none)
  | (out, some s) => (out ++ (next s).1, (next s).2)

def run (step : σ → α → Reading ω σ) : σ → List α → Reading ω σ
  | s, [] => ([], some s)
  | s, a :: rest => andThen (step s a) fun s => run step s rest

@[simp] theorem andThen_stopped (out : List ω) (next : σ → Reading ω τ) :
    andThen (out, none) next = (out, none) := rfl

@[simp] theorem andThen_some (out : List ω) (s : σ) (next : σ → Reading ω τ) :
    andThen (out, some s) next = (out ++ (next s).1, (next s).2) := rfl

theorem andThen_pure (first : Reading ω σ) : andThen first (fun s => ([], some s)) = first := by
  obtain ⟨out, _ | s⟩ := first
  · rfl
  · simp

theorem andThen_assoc {ρ : Type} (first : Reading ω σ) (next : σ → Reading ω τ)
    (last : τ → Reading ω ρ) :
    andThen (andThen first next) last = andThen first fun s => andThen (next s) last := by
  obtain ⟨out, _ | s⟩ := first
  · rfl
  · rcases reached : next s with ⟨more, _ | t⟩
    · simp [reached]
    · simp [reached]

section Run
variable {step : σ → α → Reading ω σ} {s : σ}

theorem run_singleton (s : σ) (a : α) : run step s [a] = step s a := andThen_pure _

theorem run_append (s : σ) (first later : List α) :
    run step s (first ++ later) = andThen (run step s first) fun s => run step s later := by
  induction first generalizing s with
  | nil => simp [run]
  | cons a rest ih => simp only [List.cons_append, run, ih, andThen_assoc]

theorem run_out (property : ω → Prop) (each : ∀ s a, ∀ out ∈ (step s a).1, property out) (s : σ)
    (inputs : List α) : ∀ out ∈ (run step s inputs).1, property out := by
  induction inputs generalizing s with
  | nil => simp [run]
  | cons a rest ih =>
    have first := each s a
    rw [run]
    rcases reached : step s a with ⟨out, _ | t⟩
    · simpa [reached] using first
    · rw [reached] at first
      simp only [andThen_some, List.mem_append]
      rintro o (now | later)
      · exact first o now
      · exact ih t o later

end Run
end Machine
