import Mathlib.Logic.Function.Basic
import NpsSdk.Lib.Interaction

/-! Protocols: what a program may do next depends on the phase that it is in, and an operation with
its answer leads to the next phase. Threads that keep to a protocol have a phase each. -/
namespace Interaction
open Prog
variable {Op : Type} {Answer : Op → Type} {Phase α β : Type}

/-- The operations that are allowed in a phase, and what each leads to with its answer. -/
abbrev Protocol (Answer : Op → Type) (Phase : Type) :=
  Phase → (op : Op) → Answer op → Phase → Prop

/-- The program keeps to the protocol, and ends in a phase that its result may have. -/
def Follows (advances : Protocol Answer Phase) (final : Phase → α → Prop) :
    Phase → Prog Answer α → Prop
  | phase, .done result => final phase result
  | phase, .call op next =>
    ∀ answer, ∃ after, advances phase op answer after ∧ Follows advances final after (next answer)

section Follows
variable {advances : Protocol Answer Phase} {final : Phase → α → Prop} {phase : Phase}

theorem Follows.mono {wider : Phase → α → Prop} (weaker : ∀ phase a, final phase a → wider phase a)
    {p : Prog Answer α} (follows : Follows advances final phase p) : Follows advances wider phase p := by
  induction p generalizing phase with
  | done result => exact weaker _ _ follows
  | call op next ih =>
    intro answer
    obtain ⟨after, advanced, rest⟩ := follows answer
    exact ⟨after, advanced, ih answer rest⟩

theorem Follows.bind {final : Phase → β → Prop} {p : Prog Answer α} {f : α → Prog Answer β}
    (follows : Follows advances (fun after a => Follows advances final after (f a)) phase p) :
    Follows advances final phase (p >>= f) := by
  induction p generalizing phase with
  | done result => exact follows
  | call op next ih =>
    intro answer
    obtain ⟨after, advanced, rest⟩ := follows answer
    exact ⟨after, advanced, ih answer rest⟩

theorem Follows.ask {op : Op} {next : Answer op → Prog Answer α}
    (stays : ∀ answer, advances phase op answer phase)
    (rest : ∀ answer, Follows advances final phase (next answer)) :
    Follows advances final phase (perform op >>= next) :=
  fun answer => ⟨phase, stays answer, rest answer⟩

end Follows

section Threads
variable {σ Call : Type} {system : System Answer σ Call α}

/-- Every thread keeps to the protocol, in a phase that belongs to its caller. -/
structure Phased (advances : Protocol Answer Phase) (belongs : Call → Phase → Prop)
    (final : Call → Phase → α → Prop) (pool : Pool Answer σ Call α) (phases : Nat → Phase) : Prop where
  belongs : ∀ (i : Nat) caller p, pool.threads[i]? = some (caller, p) → belongs caller (phases i)
  follows : ∀ (i : Nat) caller p, pool.threads[i]? = some (caller, p) →
    Follows advances (final caller) (phases i) p

variable {advances : Protocol Answer Phase} {belongs : Call → Phase → Prop}
  {final : Call → Phase → α → Prop} {pool after : Pool Answer σ Call α} {phases : Nat → Phase}

/-- A new thread is in the phase in which its call begins. -/
theorem Phased.start (phased : Phased advances belongs final pool phases) {call : Call} {phase : Phase}
    (own : belongs call phase) (follows : Follows advances (final call) phase (system.program call)) :
    Phased advances belongs final
      { pool with threads := pool.threads ++ [(call, system.program call)] }
      (Function.update phases pool.threads.length phase) := by
  have before : ∀ (i : Nat) caller p, pool.threads[i]? = some (caller, p) →
      Function.update phases pool.threads.length phase i = phases i := by
    intro i caller p found
    have bound : i < pool.threads.length := (List.getElem?_eq_some_iff.mp found).1
    exact Function.update_of_ne (Nat.ne_of_lt bound) _ _
  constructor
  · intro i caller p found
    rcases getElem?_concat found with old | ⟨rfl, same⟩
    · rw [before i caller p old]
      exact phased.belongs i caller p old
    · cases same
      rw [Function.update_self]
      exact own
  · intro i caller p found
    rcases getElem?_concat found with old | ⟨rfl, same⟩
    · rw [before i caller p old]
      exact phased.follows i caller p old
    · cases same
      rw [Function.update_self]
      exact follows

/-- A thread that acts goes on to its next phase. -/
theorem Phased.act (plain : ∀ op, system.spawns op = [])
    (kept : ∀ {caller phase op answer next}, belongs caller phase →
      advances phase op answer next → belongs caller next)
    (phased : Phased advances belongs final pool phases) {i : Nat} {op : Op} {answer : Answer op}
    (step : system.Step pool (.act i op answer) after) :
    ∃ phase, advances (phases i) op answer phase ∧
      Phased advances belongs final after (Function.update phases i phase) := by
  cases step with
  | @act _ caller _ next _ shared found exec =>
    obtain ⟨phase, advanced, rest⟩ := phased.follows i caller _ found answer
    refine ⟨phase, advanced, ?_⟩
    rw [plain, List.map_nil, List.append_nil]
    have cases_ : ∀ (j : Nat) other p, (pool.threads.set i (caller, next answer))[j]? = some (other, p) →
        (j ≠ i ∧ pool.threads[j]? = some (other, p)) ∨
          (j = i ∧ other = caller ∧ p = next answer) := by
      intro j other p there
      rw [← List.append_nil (pool.threads.set i _)] at there
      rcases getElem?_set_append there with old | ⟨same, value⟩ | ⟨-, -, new⟩
      · exact .inl old
      · cases value
        exact .inr ⟨same, rfl, rfl⟩
      · cases new
    constructor
    · intro j other p there
      rcases cases_ j other p there with ⟨different, old⟩ | ⟨rfl, rfl, rfl⟩
      · rw [Function.update_of_ne different]
        exact phased.belongs j other p old
      · rw [Function.update_self]
        exact kept (phased.belongs j other _ found) advanced
    · intro j other p there
      rcases cases_ j other p there with ⟨different, old⟩ | ⟨rfl, rfl, rfl⟩
      · rw [Function.update_of_ne different]
        exact phased.follows j other p old
      · rw [Function.update_self]
        exact rest

end Threads
end Interaction
