import NpsSdk.Nop.ConditionGrammar
import NpsSdk.Nop.ConditionTokens

/-! What a condition means by its grammar, and the conditions that are answered so. -/
namespace Nps.Nop.Condition
open Json (Fields)
open BooleanGrammar Lexing

section
variable [CharClasses]

def Cut (condition : String) (ts : List Token) (closed : Bool) : Prop :=
  Lexes Piece (Text.trim condition).toList ts closed

/-- All tokens together, each string literal closed, are an expression of this truth. -/
def Means (condition : String) (context : Fields) (truth : Bool) : Prop :=
  ∃ ts partway, Cut condition ts true ∧ Derives (documented context) .or ts truth partway

/-- The condition is answered with what it means, and refused where it means nothing. -/
def AnsweredAsMeant (condition : String) (context : Fields) : Prop :=
  (∀ truth, evaluate condition context = .ok truth ↔ Means condition context truth) ∧
  ((¬ ∃ truth, Means condition context truth) →
    ∃ e, evaluate condition context = .error (.refused e))

/-- All tokens are an expression in which no comparison begins with `true` or `false`. -/
def Whole (ts : List Token) (context : Fields) : Prop :=
  ∃ truth partway, Derives (parsed context) .or ts truth partway

/-- The tokens begin with no expression that the parser reads, nor are they one that it cannot
read. -/
def Hopeless (ts : List Token) (closed : Bool) (context : Fields) : Prop :=
  (¬ ∃ truth, Begins (parsed context) .or ts truth) ∧
  ¬ (closed = true ∧ ∃ truth partway, Derives (documented context) .or ts truth partway)

/-- What the parser reads of an expression happens to have its truth. -/
def Coincides (ts : List Token) (context : Fields) : Prop :=
  ∃ truth partway, Begins (parsed context) .or ts truth ∧
    Derives (documented context) .or ts truth partway

/-- White space alone means nothing, although it is let through. Anything else that can be cut
into tokens must be read to its end or not at all. -/
def ReadThrough (condition : String) (context : Fields) : Prop :=
  Text.trim condition ≠ "" ∧ ∀ ts closed, Cut condition ts closed →
    closed = true ∧ Whole ts context ∨ Hopeless ts closed context ∨
      closed = true ∧ Coincides ts context

variable {condition : String} {context : Fields} {ts : List Token} {closed truth partway : Bool}

theorem cut_unique {us : List Token} {closed' : Bool} (cut : Cut condition ts closed)
    (cut' : Cut condition us closed') : ts = us ∧ closed = closed' :=
  cut.unique piece_deterministic cut'

omit [CharClasses] in
theorem documented_of_parsed (derived : Derives (parsed context) .or ts truth partway) :
    ∃ partway', Derives (documented context) .or ts truth partway' := by
  exact derived.leading fun _ _ => rfl

omit [CharClasses] in
/-- Whatever the tokens mean, they mean only this. -/
theorem documented_unique {truth' partway' : Bool}
    (derived : Derives (documented context) .or ts truth partway)
    (derived' : Derives (documented context) .or ts truth' partway') : truth = truth' :=
  derived.begins.unique derived'.begins

theorem evaluate_cut (context : Fields) (some_ : Text.trim condition ≠ "")
    (cut : Cut condition ts closed) :
    (∃ truth, evaluate condition context = .ok truth ∧ Begins (parsed context) .or ts truth) ∨
    (¬ ∃ truth, Begins (parsed context) .or ts truth) ∧
      ∃ e, evaluate condition context = .error (.refused e) := by
  unfold evaluate
  rw [if_neg some_]
  rcases tokenize_spec (Text.trim condition) with ⟨us, closed', cut', read⟩ | ⟨uncut, -⟩
  · obtain ⟨rfl, -⟩ := cut_unique cut cut'
    simp only [read, bind, Except.bind]
    rcases parseOrExpr_spec ts context with
      ⟨truth, stop, answer, begins⟩ | ⟨none_, e, answer⟩
    · exact .inl ⟨truth, by rw [answer]; rfl, begins⟩
    · exact .inr ⟨none_, e, by rw [answer]⟩
  · exact absurd ⟨ts, closed, cut⟩ uncut

theorem evaluate_uncut (context : Fields) (some_ : Text.trim condition ≠ "")
    (uncut : ¬ ∃ ts closed, Cut condition ts closed) :
    ∃ e, evaluate condition context = .error (.refused e) := by
  unfold evaluate
  rw [if_neg some_]
  rcases tokenize_spec (Text.trim condition) with ⟨ts, closed, cut, -⟩ | ⟨-, e, refused⟩
  · exact absurd ⟨ts, closed, cut⟩ uncut
  · exact ⟨e, by rw [refused]; rfl⟩

theorem means_cut (cut : Cut condition ts closed) :
    Means condition context truth ↔
      closed = true ∧ ∃ partway, Derives (documented context) .or ts truth partway := by
  constructor
  · rintro ⟨us, partway, cut', derived⟩
    obtain ⟨rfl, rfl⟩ := cut_unique cut cut'
    exact ⟨rfl, partway, derived⟩
  · rintro ⟨rfl, partway, derived⟩
    exact ⟨ts, partway, cut, derived⟩

/-- White space alone is let through and has no meaning. -/
theorem blank_not_meant (context : Fields) (blank : Text.trim condition = "") :
    evaluate condition context = .ok true ∧ ¬ ∃ truth, Means condition context truth := by
  constructor
  · rw [evaluate, if_pos blank]
  · rintro ⟨truth, ts, partway, cut, derived⟩
    have nothing : Cut condition [] true := by
      rw [Cut, blank]
      exact .done
    obtain ⟨rfl, -⟩ := cut_unique cut nothing
    exact derived.ne_nil rfl

/-- The tokens are read to their end, or not at all, or what is read has the truth of all. -/
theorem answered_cut_iff (some_ : Text.trim condition ≠ "") (cut : Cut condition ts closed) :
    AnsweredAsMeant condition context ↔
      closed = true ∧ Whole ts context ∨ Hopeless ts closed context ∨
        closed = true ∧ Coincides ts context := by
  rcases evaluate_cut context some_ cut with
    ⟨truth, answer, begins⟩ | ⟨none_, e, refused⟩
  · constructor
    · intro answered
      obtain ⟨complete, partway, meant⟩ := (means_cut cut).mp ((answered.1 truth).mp answer)
      exact .inr (.inr ⟨complete, truth, partway, begins, meant⟩)
    · intro read
      have meaning : closed = true ∧
          ∃ partway, Derives (documented context) .or ts truth partway := by
        rcases read with ⟨complete, _, _, derived⟩ | hopeless | ⟨complete, _, _, begins', meant⟩
        · obtain rfl := begins.unique derived.begins
          exact ⟨complete, documented_of_parsed derived⟩
        · exact absurd ⟨truth, begins⟩ hopeless.1
        · obtain rfl := begins.unique begins'
          exact ⟨complete, _, meant⟩
      obtain ⟨complete, _, meant⟩ := meaning
      constructor
      · intro truth'
        rw [answer, means_cut cut, Except.ok.injEq]
        constructor
        · rintro rfl
          exact ⟨complete, _, meant⟩
        · rintro ⟨-, _, meant'⟩
          exact documented_unique meant meant'
      · exact fun none_ => absurd ⟨truth, (means_cut cut).mpr ⟨complete, _, meant⟩⟩ none_
  · constructor
    · intro answered
      refine .inr (.inl ⟨none_, ?_⟩)
      rintro ⟨complete, truth, _, meant⟩
      have answer := (answered.1 truth).mpr ((means_cut cut).mpr ⟨complete, _, meant⟩)
      exact nomatch answer.symm.trans refused
    · intro read
      have meaningless : ¬ ∃ truth, Means condition context truth := by
        rintro ⟨truth, means⟩
        obtain ⟨complete, _, meant⟩ := (means_cut cut).mp means
        rcases read with ⟨-, _, _, derived⟩ | hopeless | ⟨-, _, _, begins, -⟩
        · exact none_ ⟨_, derived.begins⟩
        · exact hopeless.2 ⟨complete, truth, _, meant⟩
        · exact none_ ⟨_, begins⟩
      refine ⟨fun truth => ?_, fun _ => ⟨e, refused⟩⟩
      rw [refused]
      exact iff_of_false nofun fun means => meaningless ⟨truth, means⟩

/-- A condition is answered with its meaning exactly where it is read through. -/
theorem answered_as_meant_iff (condition : String) (context : Fields) :
    AnsweredAsMeant condition context ↔ ReadThrough condition context := by
  by_cases blank : Text.trim condition = ""
  · obtain ⟨answer, meaningless⟩ := blank_not_meant context blank
    constructor
    · exact fun answered => absurd ⟨true, (answered.1 true).mp answer⟩ meaningless
    · exact fun read => absurd blank read.1
  by_cases able : ∃ ts closed, Cut condition ts closed
  · obtain ⟨ts, closed, cut⟩ := able
    rw [answered_cut_iff blank cut]
    constructor
    · intro read
      refine ⟨blank, fun us closed' cut' => ?_⟩
      obtain ⟨rfl, rfl⟩ := cut_unique cut cut'
      exact read
    · exact fun read => read.2 ts closed cut
  · obtain ⟨e, refused⟩ := evaluate_uncut context blank able
    have meaningless : ¬ ∃ truth, Means condition context truth := fun ⟨_, ts, _, cut, _⟩ =>
      able ⟨ts, true, cut⟩
    constructor
    · exact fun _ => ⟨blank, fun ts closed cut => absurd ⟨ts, closed, cut⟩ able⟩
    · intro _
      refine ⟨fun truth => ?_, fun _ => ⟨e, refused⟩⟩
      rw [refused]
      exact iff_of_false nofun fun means => meaningless ⟨truth, means⟩

end

namespace LeftOver

scoped instance asciiClasses : CharClasses := .ascii

def first : Token := ⟨.true, "true"⟩

def second : Token := ⟨.false, "false"⟩

theorem cut_words : Cut "true false" [first, second] true := by
  have before : Piece "true".toList (' ' :: ("false".toList ++ [])) (some first) true :=
    .word (by decide) (by simp [isAlphanumeric, CharClasses.isAlphabetic, CharClasses.isNumeric])
  have space : Piece [' '] ("false".toList ++ []) none true := .blank (by decide)
  have after : Piece "false".toList [] (some second) true := .word (by decide) (by simp)
  have text : (Text.trim "true false").toList =
      "true".toList ++ ([' '] ++ ("false".toList ++ [])) := by
    decide
  rw [Cut, text]
  exact .next before (.next space (.next after .done))

theorem alone {G : Grammar Token Val} (operand : G.role first = .operand)
    (value : G.denotes first = some (.bool true)) :
    Derives G .or [first] (G.truthy (.bool true)) (G.leads first) :=
  .term (.factor (.comparison (.alone operand value)))

theorem begins_first : Begins (parsed []) .or [first, second] true :=
  ⟨[first], [second], false, rfl, alone rfl rfl, stops_cons.mpr rfl⟩

theorem not_meant :
    ¬ ∃ truth partway, Derives (documented []) .or [first, second] truth partway := by
  rintro ⟨truth, partway, derived⟩
  have lone : Derives (documented []) .or [first] true true := alone rfl rfl
  have same : [first, second] ++ [] = [first] ++ [second] := rfl
  exact nomatch (derived.unique lone same stops_nil (stops_cons.mpr rfl)).1

/-- The second word is not looked at. -/
theorem true_false : ¬ AnsweredAsMeant "true false" [] := by
  rw [answered_cut_iff (by decide) cut_words]
  rintro (⟨-, truth, partway, derived⟩ | hopeless | ⟨-, truth, partway, -, derived⟩)
  · obtain ⟨_, meant⟩ := documented_of_parsed derived
    exact not_meant ⟨truth, _, meant⟩
  · exact hopeless.1 ⟨true, begins_first⟩
  · exact not_meant ⟨truth, partway, derived⟩

end LeftOver
end Nps.Nop.Condition
