import Mathlib.Data.List.TakeWhile
import Mathlib.Tactic.Common

/-! Texts cut into pieces, each as long as it can be, of which some are tokens. A piece may
have been left open by the end of the text. -/
namespace Lexing
variable {χ τ : Type}

section Munch
variable {p : χ → Bool} {word rest : List χ}

theorem takeWhile_word (inside : ∀ c ∈ word, p c = true)
    (after : ∀ next ∈ rest.head?, p next = false) : (word ++ rest).takeWhile p = word := by
  rw [List.takeWhile_append_of_pos inside]
  cases rest with
  | nil => simp
  | cons next rest => simp [after next rfl]

theorem takeWhile_split (p : χ → Bool) (text : List χ) :
    ∃ rest, text = text.takeWhile p ++ rest ∧ (∀ c ∈ text.takeWhile p, p c = true) ∧
      ∀ next ∈ rest.head?, p next = false := by
  refine ⟨text.dropWhile p, List.takeWhile_append_dropWhile.symm, ?_, ?_⟩
  · exact fun c member => List.mem_takeWhile_imp member
  · intro next member
    have fails := List.head?_dropWhile_not p text
    rw [Option.mem_def.mp member] at fails
    exact fails

end Munch

abbrev Pieces (χ τ : Type) := (word rest : List χ) → Option τ → (closed : Bool) → Prop

/-- The text is cut into pieces that make these tokens, and all of them are complete. -/
inductive Lexes (piece : Pieces χ τ) : List χ → List τ → (closed : Bool) → Prop
  | done : Lexes piece [] [] true
  | next {word rest : List χ} {token : Option τ} {tokens : List τ} {closed closed' : Bool} :
      piece word rest token closed → Lexes piece rest tokens closed' →
      Lexes piece (word ++ rest) (token.toList ++ tokens) (closed && closed')

structure Deterministic (piece : Pieces χ τ) : Prop where
  nonempty : ∀ {word rest token closed}, piece word rest token closed → word ≠ []
  unique : ∀ {word rest token closed word' rest' token' closed'},
    piece word rest token closed → piece word' rest' token' closed' →
    word ++ rest = word' ++ rest' → word = word' ∧ token = token' ∧ closed = closed'

section
variable {piece : Pieces χ τ} {text rest : List χ} {tokens : List τ} {closed : Bool}

theorem Lexes.head (whole : Lexes piece text tokens closed) (some_ : text ≠ []) :
    ∃ word rest token closed, piece word rest token closed ∧ text = word ++ rest := by
  cases whole with
  | done => exact absurd rfl some_
  | next one _ => exact ⟨_, _, _, _, one, rfl⟩

theorem Lexes.tail (deterministic : Deterministic piece) {word : List χ} {token : Option τ}
    {closed' : Bool} (one : piece word rest token closed')
    (whole : Lexes piece (word ++ rest) tokens closed) :
    ∃ tokens closed, Lexes piece rest tokens closed := by
  generalize same : word ++ rest = text at whole
  cases whole with
  | done => exact absurd (List.append_eq_nil_iff.mp same).1 (deterministic.nonempty one)
  | next one' others =>
    obtain ⟨rfl, -⟩ := deterministic.unique one one' same
    obtain rfl := List.append_cancel_left same
    exact ⟨_, _, others⟩

def Skips (piece : Pieces χ τ) (blank : χ → Prop) : Prop :=
  ∀ {word rest closed}, piece word rest none closed → closed = true ∧ ∀ c ∈ word, blank c

theorem Lexes.skipped {blank : χ → Prop} (skips : Skips piece blank)
    (whole : Lexes piece text [] closed) : ∀ c ∈ text, blank c := by
  generalize nothing : ([] : List τ) = tokens at whole
  induction whole with
  | done => exact nofun
  | @next word rest token tokens _ _ one _ ih =>
    obtain ⟨none_, empty⟩ := List.append_eq_nil_iff.mp nothing.symm
    cases token with
    | some token => cases none_
    | none =>
      intro c member
      rcases List.mem_append.mp member with inside | later
      · exact (skips one).2 c inside
      · exact ih empty.symm c later

/-- The first token, after what is skipped, and the others. -/
theorem Lexes.first {blank : χ → Prop} (skips : Skips piece blank) {token : τ}
    (whole : Lexes piece text (token :: tokens) closed) :
    ∃ front word rest closed' closed'', text = front ++ (word ++ rest) ∧ (∀ c ∈ front, blank c) ∧
      piece word rest (some token) closed' ∧ Lexes piece rest tokens closed'' ∧
      closed = (closed' && closed'') := by
  generalize all : token :: tokens = every at whole
  induction whole with
  | done => cases all
  | @next word rest token' tokens' closed' closed'' one others ih =>
    cases token' with
    | some token' =>
      obtain ⟨rfl, rfl⟩ := List.cons.inj all
      exact ⟨[], word, rest, closed', closed'', rfl, nofun, one, others, rfl⟩
    | none =>
      obtain ⟨complete, blanks⟩ := skips one
      obtain ⟨front, word', rest', closed₁, closed₂, split, before, one', others', both⟩ := ih all
      refine ⟨word ++ front, word', rest', closed₁, closed₂, ?_, ?_, one', others', ?_⟩
      · rw [split, List.append_assoc]
      · intro c member
        rcases List.mem_append.mp member with inside | later
        · exact blanks c inside
        · exact before c later
      · rw [complete, Bool.true_and, both]

end

theorem Lexes.unique {piece : Pieces χ τ} (deterministic : Deterministic piece) {text : List χ}
    {tokens : List τ} {closed : Bool} (first : Lexes piece text tokens closed) :
    ∀ {tokens' : List τ} {closed' : Bool}, Lexes piece text tokens' closed' →
      tokens = tokens' ∧ closed = closed' := by
  induction first with
  | done =>
    intro tokens' closed' second
    generalize same : ([] : List χ) = text at second
    cases second with
    | done => exact ⟨rfl, rfl⟩
    | next one _ => exact absurd (List.append_eq_nil_iff.mp same.symm).1 (deterministic.nonempty one)
  | @next word rest token tokens closed _ one _ ih =>
    intro tokens' closed' second
    generalize same : word ++ rest = text at second
    cases second with
    | done => exact absurd (List.append_eq_nil_iff.mp same).1 (deterministic.nonempty one)
    | next one' others =>
      obtain ⟨rfl, rfl, rfl⟩ := deterministic.unique one one' same
      obtain rfl := List.append_cancel_left same
      obtain ⟨rfl, rfl⟩ := ih others
      exact ⟨rfl, rfl⟩

end Lexing
