import Mathlib.Data.List.Basic
import Mathlib.Tactic.Common

/-! Boolean expressions over comparisons of operands: which sequences of tokens are
expressions and what they mean. A sequence begins with at most one expression that
cannot go on. -/
namespace BooleanGrammar

/-- What a token is in an expression. -/
inductive Role where
  | or | and | not | opening | closing | relation | operand | other
deriving DecidableEq

structure Grammar (τ ν : Type) where
  role : τ → Role
  /-- The value of an operand, if it has one. -/
  denotes : τ → Option ν
  /-- A comparison may begin with this operand. -/
  leads : τ → Bool
  truthy : ν → Bool
  holds : ν → τ → ν → Bool

inductive Level where
  | or | and | not | comparison
deriving DecidableEq

variable {τ ν : Type} (G : Grammar τ ν)

/-- The sequence is an expression of a level with this truth. A `partway` one ends in a lone
operand, which a relation after it would turn into a comparison. -/
inductive Derives : Level → List τ → (truth : Bool) → (partway : Bool) → Prop
  | alone {t : τ} {v : ν} : G.role t = .operand → G.denotes t = some v →
      Derives .comparison [t] (G.truthy v) (G.leads t)
  | compared {l op r : τ} {v w : ν} : G.role l = .operand → G.leads l = true →
      G.denotes l = some v → G.role op = .relation → G.role r = .operand →
      G.denotes r = some w → Derives .comparison [l, op, r] (G.holds v op w) false
  | group {o c : τ} {inner : List τ} {truth partway : Bool} : G.role o = .opening →
      Derives .or inner truth partway → G.role c = .closing →
      Derives .comparison (o :: (inner ++ [c])) truth false
  | negation {n : τ} {ts : List τ} {truth partway : Bool} : G.role n = .not →
      Derives .not ts truth partway → Derives .not (n :: ts) (!truth) partway
  | comparison {ts : List τ} {truth partway : Bool} :
      Derives .comparison ts truth partway → Derives .not ts truth partway
  | conjunction {ts us : List τ} {op : τ} {left right leftPartway partway : Bool} :
      Derives .not ts left leftPartway → G.role op = .and → Derives .and us right partway →
      Derives .and (ts ++ op :: us) (left && right) partway
  | factor {ts : List τ} {truth partway : Bool} :
      Derives .not ts truth partway → Derives .and ts truth partway
  | disjunction {ts us : List τ} {op : τ} {left right leftPartway partway : Bool} :
      Derives .and ts left leftPartway → G.role op = .or → Derives .or us right partway →
      Derives .or (ts ++ op :: us) (left || right) partway
  | term {ts : List τ} {truth partway : Bool} :
      Derives .and ts truth partway → Derives .or ts truth partway

/-- An expression of the level is carried on by a token in this role. -/
def continues : Level → (partway : Bool) → Role → Bool
  | _, partway, .relation => partway
  | .and, _, .and | .or, _, .and | .or, _, .or => true
  | _, _, _ => false

attribute [local simp] continues

/-- What follows an expression does not carry it on. -/
def Stops (level : Level) (partway : Bool) (rest : List τ) : Prop :=
  ∀ next ∈ rest.head?, continues level partway (G.role next) = false

/-- The expression that the sequence begins with, and that does not go on. -/
def Begins (level : Level) (tokens : List τ) (truth : Bool) : Prop :=
  ∃ used rest partway, tokens = used ++ rest ∧ Derives G level used truth partway ∧
    Stops G level partway rest

variable {G} {level : Level} {truth partway : Bool} {ts rest : List τ}

@[simp] theorem stops_nil : Stops G level partway [] := by
  intro next member
  cases member

@[simp] theorem stops_cons {t : τ} :
    Stops G level partway (t :: rest) ↔ continues level partway (G.role t) = false := by
  simp [Stops]

theorem stops_complete : Stops G .comparison false rest := by
  intro next _
  cases G.role next <;> rfl

theorem stops_mark {mark : τ} (other : G.role mark = .other) :
    Stops G level partway (rest ++ [mark]) ↔ Stops G level partway rest := by
  cases rest with
  | nil => cases level <;> simp [other]
  | cons next tail => rw [List.cons_append, stops_cons, stops_cons]

theorem Derives.begins (whole : Derives G level ts truth partway) : Begins G level ts truth :=
  ⟨ts, [], partway, (List.append_nil ts).symm, whole, stops_nil⟩

theorem Derives.ne_nil (derived : Derives G level ts truth partway) : ts ≠ [] := by
  induction derived <;> simp_all

theorem Derives.head (derived : Derives G .comparison ts truth partway) :
    ∃ t tail, ts = t :: tail ∧ (G.role t = .operand ∨ G.role t = .opening) := by
  cases derived with
  | alone operand | compared operand => exact ⟨_, _, rfl, .inl operand⟩
  | group opening => exact ⟨_, _, rfl, .inr opening⟩

theorem Stops.mono {level' : Level} (stops : Stops G level partway rest)
    (less : ∀ role, continues level partway role = false → continues level' partway role = false) :
    Stops G level' partway rest :=
  fun next member => less _ (stops next member)

theorem Stops.not_of_and (stops : Stops G .and partway rest) : Stops G .not partway rest :=
  stops.mono fun role => by cases role <;> simp

theorem Stops.and_of_or (stops : Stops G .or partway rest) : Stops G .and partway rest :=
  stops.mono fun role => by cases role <;> simp

theorem Stops.comparison_of_not (stops : Stops G .not partway rest) :
    Stops G .comparison partway rest :=
  stops.mono fun role => by cases role <;> simp

theorem Stops.not_of_comparison (stops : Stops G .comparison partway rest) :
    Stops G .not partway rest :=
  stops.mono fun role => by cases role <;> simp

/-- Two expressions of one level that a sequence begins with, and that do not go on, are the
same one: by induction on the first, each of whose parts stops where it does. -/
theorem Derives.unique (first : Derives G level ts truth partway) :
    ∀ {us : List τ} {truth' partway' : Bool} {rest rest' : List τ},
      Derives G level us truth' partway' → ts ++ rest = us ++ rest' →
      Stops G level partway rest → Stops G level partway' rest' →
      ts = us ∧ truth = truth' ∧ partway = partway' := by
  induction first with
  | alone operand value =>
    intro us truth' partway' rest rest' second same stops stops'
    cases second with
    | alone operand' value' =>
      simp only [List.cons_append, List.nil_append, List.cons.injEq] at same
      obtain ⟨rfl, -⟩ := same
      rw [value, Option.some.injEq] at value'
      simp [value']
    | compared operand' leads value' relation =>
      simp only [List.cons_append, List.nil_append, List.cons.injEq] at same
      obtain ⟨rfl, rfl⟩ := same
      simp [relation, leads] at stops
    | group opening =>
      simp only [List.cons_append, List.nil_append, List.cons.injEq] at same
      obtain ⟨rfl, -⟩ := same
      simp [operand] at opening
  | compared operand leads value relation operand' value' =>
    intro us truth' partway' rest rest' second same stops stops'
    cases second with
    | alone =>
      simp only [List.cons_append, List.nil_append, List.cons.injEq] at same
      obtain ⟨rfl, rfl⟩ := same
      simp [relation, leads] at stops'
    | compared _ _ value'' _ _ value''' =>
      simp only [List.cons_append, List.nil_append, List.cons.injEq] at same
      obtain ⟨rfl, rfl, rfl, -⟩ := same
      rw [value, Option.some.injEq] at value''
      rw [value', Option.some.injEq] at value'''
      simp [value'', value''']
    | group opening =>
      simp only [List.cons_append, List.cons.injEq] at same
      obtain ⟨rfl, -⟩ := same
      simp [operand] at opening
  | group opening inner closing ih =>
    intro us truth' partway' rest rest' second same stops stops'
    cases second with
    | alone operand | compared operand =>
      simp only [List.cons_append, List.cons.injEq] at same
      obtain ⟨rfl, -⟩ := same
      simp [opening] at operand
    | group opening' inner' closing' =>
      simp only [List.cons_append, List.append_assoc, List.nil_append, List.cons.injEq] at same
      obtain ⟨rfl, same⟩ := same
      obtain ⟨rfl, rfl, -⟩ := ih inner' same (by simp [closing])
        (by simp [closing'])
      simp only [List.append_cancel_left_eq, List.cons.injEq] at same
      simp [same.1]
  | negation negated inner ih =>
    intro us truth' partway' rest rest' second same stops stops'
    cases second with
    | negation _ inner' =>
      simp only [List.cons_append, List.cons.injEq] at same
      obtain ⟨rfl, same⟩ := same
      obtain ⟨rfl, rfl, rfl⟩ := ih inner' same stops stops'
      simp
    | comparison inner' =>
      obtain ⟨head, tail, rfl, role⟩ := inner'.head
      simp only [List.cons_append, List.cons.injEq] at same
      simp [← same.1, negated] at role
  | comparison inner ih =>
    intro us truth' partway' rest rest' second same stops stops'
    cases second with
    | comparison inner' => exact ih inner' same stops.comparison_of_not stops'.comparison_of_not
    | negation negated =>
      obtain ⟨head, tail, rfl, role⟩ := inner.head
      simp only [List.cons_append, List.cons.injEq] at same
      simp [same.1, negated] at role
  | conjunction left op right ihl ihr =>
    intro us truth' partway' rest rest' second same stops stops'
    cases second with
    | conjunction left' op' right' =>
      simp only [List.append_assoc, List.cons_append] at same
      obtain ⟨rfl, rfl, -⟩ := ihl left' same (by simp [op]) (by simp [op'])
      simp only [List.append_cancel_left_eq, List.cons.injEq] at same
      obtain ⟨rfl, same⟩ := same
      obtain ⟨rfl, rfl, rfl⟩ := ihr right' same stops stops'
      simp
    | factor left' =>
      simp only [List.append_assoc, List.cons_append] at same
      obtain ⟨rfl, rfl, -⟩ := ihl left' same (by simp [op]) stops'.not_of_and
      simp only [List.append_cancel_left_eq] at same
      subst same
      simp [op] at stops'
  | factor inner ih =>
    intro us truth' partway' rest rest' second same stops stops'
    cases second with
    | factor inner' => exact ih inner' same stops.not_of_and stops'.not_of_and
    | conjunction left' op' right' =>
      simp only [List.append_assoc, List.cons_append] at same
      obtain ⟨rfl, rfl, -⟩ := ih left' same stops.not_of_and (by simp [op'])
      simp only [List.append_cancel_left_eq] at same
      subst same
      simp [op'] at stops
  | disjunction left op right ihl ihr =>
    intro us truth' partway' rest rest' second same stops stops'
    cases second with
    | disjunction left' op' right' =>
      simp only [List.append_assoc, List.cons_append] at same
      obtain ⟨rfl, rfl, -⟩ := ihl left' same (by simp [op]) (by simp [op'])
      simp only [List.append_cancel_left_eq, List.cons.injEq] at same
      obtain ⟨rfl, same⟩ := same
      obtain ⟨rfl, rfl, rfl⟩ := ihr right' same stops stops'
      simp
    | term left' =>
      simp only [List.append_assoc, List.cons_append] at same
      obtain ⟨rfl, rfl, -⟩ := ihl left' same (by simp [op]) stops'.and_of_or
      simp only [List.append_cancel_left_eq] at same
      subst same
      simp [op] at stops'
  | term inner ih =>
    intro us truth' partway' rest rest' second same stops stops'
    cases second with
    | term inner' => exact ih inner' same stops.and_of_or stops'.and_of_or
    | disjunction left' op' right' =>
      simp only [List.append_assoc, List.cons_append] at same
      obtain ⟨rfl, rfl, -⟩ := ih left' same stops.and_of_or (by simp [op'])
      simp only [List.append_cancel_left_eq] at same
      subst same
      simp [op'] at stops

theorem Begins.unique {truth' : Bool} (first : Begins G level ts truth)
    (second : Begins G level ts truth') : truth = truth' := by
  obtain ⟨used, rest, partway, rfl, derived, stops⟩ := first
  obtain ⟨used', rest', partway', same, derived', stops'⟩ := second
  exact (derived.unique derived' same stops stops').2.1

theorem Begins.and_of_or (begins : Begins G .or ts truth) : ∃ truth', Begins G .and ts truth' := by
  obtain ⟨used, rest, partway, rfl, derived, stops⟩ := begins
  cases derived with
  | term derived => exact ⟨_, used, rest, _, rfl, derived, stops.and_of_or⟩
  | disjunction left op right =>
    refine ⟨_, _, _, _, List.append_assoc .., left, ?_⟩
    rw [List.cons_append]
    simp [op]

theorem Begins.not_of_and (begins : Begins G .and ts truth) : ∃ truth', Begins G .not ts truth' := by
  obtain ⟨used, rest, partway, rfl, derived, stops⟩ := begins
  cases derived with
  | factor derived => exact ⟨_, used, rest, _, rfl, derived, stops.not_of_and⟩
  | conjunction left op right =>
    refine ⟨_, _, _, _, List.append_assoc .., left, ?_⟩
    rw [List.cons_append]
    simp [op]

/-- Two operands with a relation in between are compared, wherever they begin an expression. -/
theorem Begins.compared {l op r : τ} (begins : Begins G .or [l, op, r] truth)
    (operand : G.role l = .operand) (leads : G.leads l = true) (relation : G.role op = .relation) :
    ∃ v w, G.denotes l = some v ∧ G.denotes r = some w ∧ truth = G.holds v op w := by
  obtain ⟨_, conjunction⟩ := begins.and_of_or
  obtain ⟨_, used, rest, partway, same, derived, stops⟩ := conjunction.not_of_and
  cases derived with
  | negation negated =>
    simp only [List.cons_append, List.cons.injEq] at same
    simp [← same.1, operand] at negated
  | comparison derived =>
    cases derived with
    | alone =>
      simp only [List.cons_append, List.nil_append, List.cons.injEq] at same
      obtain ⟨rfl, rfl⟩ := same
      simp [relation, leads] at stops
    | group opening =>
      simp only [List.cons_append, List.cons.injEq] at same
      simp [← same.1, operand] at opening
    | compared _ _ value _ operand' value' =>
      simp only [List.cons_append, List.nil_append, List.cons.injEq] at same
      obtain ⟨rfl, rfl, rfl, -⟩ := same
      have whole := Derives.term (.factor (.comparison
        (.compared operand leads value relation operand' value')))
      exact ⟨_, _, value, value', begins.unique whole.begins⟩

/-- The same grammar, in which a comparison may begin with other operands. -/
def Grammar.leading (G : Grammar τ ν) (leads : τ → Bool) : Grammar τ ν := { G with leads }

/-- An expression stays one where more operands may lead a comparison. -/
theorem Derives.leading {leads : τ → Bool} (more : ∀ t, G.leads t = true → leads t = true)
    (derived : Derives G level ts truth partway) :
    ∃ partway', Derives (G.leading leads) level ts truth partway' := by
  induction derived with
  | alone operand value => exact ⟨_, .alone (G := G.leading leads) operand value⟩
  | compared operand led value relation operand' value' =>
    exact ⟨_, .compared (G := G.leading leads) operand (more _ led) value relation operand' value'⟩
  | group opening _ closing ih =>
    obtain ⟨_, inner⟩ := ih
    exact ⟨_, .group opening inner closing⟩
  | negation negated _ ih =>
    obtain ⟨_, inner⟩ := ih
    exact ⟨_, .negation negated inner⟩
  | comparison _ ih =>
    obtain ⟨_, inner⟩ := ih
    exact ⟨_, .comparison inner⟩
  | conjunction _ op _ ihl ihr =>
    obtain ⟨_, left⟩ := ihl
    obtain ⟨_, right⟩ := ihr
    exact ⟨_, .conjunction left op right⟩
  | factor _ ih =>
    obtain ⟨_, inner⟩ := ih
    exact ⟨_, .factor inner⟩
  | disjunction _ op _ ihl ihr =>
    obtain ⟨_, left⟩ := ihl
    obtain ⟨_, right⟩ := ihr
    exact ⟨_, .disjunction left op right⟩
  | term _ ih =>
    obtain ⟨_, inner⟩ := ih
    exact ⟨_, .term inner⟩

end BooleanGrammar
