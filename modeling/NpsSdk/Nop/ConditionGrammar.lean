import NpsSdk.Lib.BooleanGrammar
import NpsSdk.Nop.Condition

/-! The grammar of conditions as it is documented, the part of it that the parser reads, and
that the parser reads the expression that the tokens begin with. -/
namespace Nps.Nop.Condition
open Json (Fields)
open BooleanGrammar

def TokenKind.role : TokenKind → Role
  | .or => .or
  | .and => .and
  | .not => .not
  | .lParen => .opening
  | .rParen => .closing
  | .gt | .gte | .lt | .lte | .eq | .neq => .relation
  | .dollarPath | .number | .str | .true | .false | .null => .operand
  | .eof => .other

theorem TokenKind.role_or {kind : TokenKind} : kind.role = .or ↔ kind = .or := by
  cases kind <;> decide

theorem TokenKind.role_and {kind : TokenKind} : kind.role = .and ↔ kind = .and := by
  cases kind <;> decide

theorem TokenKind.role_not {kind : TokenKind} : kind.role = .not ↔ kind = .not := by
  cases kind <;> decide

theorem TokenKind.role_opening {kind : TokenKind} : kind.role = .opening ↔ kind = .lParen := by
  cases kind <;> decide

theorem TokenKind.role_closing {kind : TokenKind} : kind.role = .closing ↔ kind = .rParen := by
  cases kind <;> decide

theorem TokenKind.role_relation {kind : TokenKind} :
    kind.role = .relation ↔ isComparisonOp kind := by
  cases kind <;> decide

/-- A malformed number and a refused path have no value. -/
def denoted (context : Fields) (token : Token) : Option Val :=
  match token.kind with
  | .dollarPath => (resolvePath context token.raw).toOption
  | .number => (parseNumber token.raw).map .num
  | .str => some (.str token.raw)
  | .true => some (.bool true)
  | .false => some (.bool false)
  | .null => some .null
  | _ => none

/-- The documented grammar: any value may be compared with any other. -/
def documented (context : Fields) : Grammar Token Val where
  role token := token.kind.role
  denotes := denoted context
  leads _ := true
  truthy := asTruthy
  holds lhs op rhs := compare lhs op.kind rhs

/-- A comparison that begins with `true` or `false` is left after this word. -/
def leads (token : Token) : Bool := token.kind ≠ .true ∧ token.kind ≠ .false

def parsed (context : Fields) : Grammar Token Val := (documented context).leading leads

section Parser
variable {tokens : List Token} {context : Fields} {level : Level} {truth partway : Bool}
  {pos fuel : Nat} {token : Token} {used rest : List Token}

abbrev endMark : Token := ⟨.eof, ""⟩

def Ended (rest : List Token) : Prop := ∃ last ∈ rest.getLast?, last.kind = .eof

theorem Ended.tail (ended : Ended (token :: rest)) (inner : token.kind ≠ .eof) : Ended rest := by
  obtain ⟨last, member, eof⟩ := ended
  cases rest with
  | nil =>
    simp only [List.getLast?_singleton, Option.mem_def, Option.some.injEq] at member
    exact absurd (member ▸ eof) inner
  | cons next rest =>
    rw [List.getLast?_cons_cons] at member
    exact ⟨last, member, eof⟩

theorem Ended.ne_nil (ended : Ended rest) : ∃ token tail, rest = token :: tail := by
  obtain ⟨last, member, -⟩ := ended
  cases rest with
  | nil => cases member
  | cons token tail => exact ⟨token, tail, rfl⟩

theorem current_of_drop (left : tokens.drop pos = token :: rest) :
    current tokens pos = .ok token := by
  have here : tokens[pos]? = some token := by
    rw [← List.head?_drop, left, List.head?_cons]
  rw [current, here]

theorem drop_succ (left : tokens.drop pos = token :: rest) : tokens.drop (pos + 1) = rest := by
  rw [← List.drop_drop, left, List.drop_succ_cons, List.drop_zero]

theorem drop_used (left : tokens.drop pos = used ++ rest) :
    tokens.drop (pos + used.length) = rest := by
  rw [← List.drop_drop, left, List.drop_left]

theorem operand_of_denoted {v : Val} (value : denoted context token = some v) :
    token.kind.role = .operand := by
  obtain ⟨kind, raw⟩ := token
  cases kind <;> first | rfl | cases value

/-- What has a value is read as this value; anything else is refused. -/
theorem parseValue_spec (context : Fields) (left : tokens.drop pos = token :: rest) :
    (∃ v, denoted context token = some v ∧
      parseValue tokens context pos = .ok (v, pos + 1)) ∨
    denoted context token = none ∧
      ∃ e, parseValue tokens context pos = .error (.refused e) := by
  obtain ⟨kind, raw⟩ := token
  unfold parseValue
  rw [current_of_drop left]
  simp only [denoted, bind, Except.bind, pure, Except.pure, refuse]
  cases kind with
  | dollarPath =>
    unfold resolvePath
    cases resolve raw context with
    | ok element => exact .inl ⟨_, rfl, rfl⟩
    | error e => exact .inr ⟨rfl, _, rfl⟩
  | number =>
    cases parseNumber raw with
    | some number => exact .inl ⟨_, rfl, rfl⟩
    | none => exact .inr ⟨rfl, _, rfl⟩
  | str | true | false | null => exact .inl ⟨_, rfl, rfl⟩
  | _ => exact .inr ⟨rfl, _, rfl⟩

theorem parseValue_of_denoted {v : Val} (left : tokens.drop pos = token :: rest)
    (value : denoted context token = some v) :
    parseValue tokens context pos = .ok (v, pos + 1) := by
  rcases parseValue_spec context left with ⟨w, same, read⟩ | ⟨none_, -⟩
  · rw [read, ← Option.some.inj (same.symm.trans value)]
  · rw [none_] at value
    cases value

/-- The parser refuses, or stops after an expression of the level that does not go on. -/
inductive Read (tokens : List Token) (context : Fields) (level : Level) (pos : Nat) :
    Evaluating (Bool × Nat) → Prop
  | refused (e : ConditionError) : Read tokens context level pos (.error (.refused e))
  | taken (used : List Token) {rest : List Token} {truth partway : Bool} {stop : Nat} :
      tokens.drop pos = used ++ rest → Ended rest →
      Derives (parsed context) level used truth partway →
      Stops (parsed context) level partway rest → stop = pos + used.length →
      Read tokens context level pos (.ok (truth, stop))

/-- The rule of each level. -/
def parseLevel (tokens : List Token) (context : Fields) :
    Level → (fuel pos : Nat) → Evaluating (Bool × Nat)
  | .or => parseOrExpr tokens context
  | .and => parseAndExpr tokens context
  | .not => parseNotExpr tokens context
  | .comparison => parseComparison tokens context

/-- The rules that may be entered before a token is taken. -/
def rules : Level → Nat
  | .or => 4
  | .and => 3
  | .not => 2
  | .comparison => 1

theorem rules_le (level : Level) : rules level ≤ 4 := by
  cases level <;> decide

/-- How a level joins the expressions of the next one: its operator, and the loop of the parser
over what the operator joins. -/
structure Joining (tokens : List Token) (context : Fields) where
  inner : Level
  outer : Level
  operator : TokenKind
  join : Bool → Bool → Bool
  rest : (fuel : Nat) → (left : Bool) → (pos : Nat) → Evaluating (Bool × Nat)
  below : rules inner < rules outer
  proper : operator ≠ .eof
  assoc : ∀ a b c, join (join a b) c = join a (join b c)
  single : ∀ {ts truth partway}, Derives (parsed context) inner ts truth partway →
    Derives (parsed context) outer ts truth partway
  joined : ∀ {ts us token left right leftPartway partway},
    Derives (parsed context) inner ts left leftPartway → token.kind = operator →
    Derives (parsed context) outer us right partway →
    Derives (parsed context) outer (ts ++ token :: us) (join left right) partway
  stops : ∀ {partway token rest}, Stops (parsed context) inner partway (token :: rest) →
    token.kind ≠ operator → Stops (parsed context) outer partway (token :: rest)
  rest_zero : ∀ left pos, rest 0 left pos = .error .endless
  rest_succ : ∀ fuel left pos, rest (fuel + 1) left pos = do
    if (← current tokens pos).kind = operator then
      let (right, pos) ← parseLevel tokens context inner fuel (pos + 1)
      rest fuel (join left right) pos
    else return (left, pos)
  level_succ : ∀ fuel pos, parseLevel tokens context outer (fuel + 1) pos = do
    let (left, pos) ← parseLevel tokens context inner fuel pos
    rest fuel left pos

def conjoining (tokens : List Token) (context : Fields) : Joining tokens context where
  inner := .not
  outer := .and
  operator := .and
  join := (· && ·)
  rest := parseAndRest tokens context
  below := by decide
  proper := nofun
  assoc := Bool.and_assoc
  single := .factor
  joined left kind right := .conjunction left (TokenKind.role_and.mpr kind) right
  stops {partway token rest} stops other := by
    rw [← TokenKind.role_and.ne] at other
    rw [stops_cons] at stops ⊢
    change continues _ _ token.kind.role = _ at stops ⊢
    cases role : token.kind.role <;> simp_all [continues]
  rest_zero _ _ := by rw [parseAndRest]
  rest_succ _ _ _ := by
    rw [parseAndRest]
    rfl
  level_succ _ _ := by
    change parseAndExpr _ _ _ _ = _
    rw [parseAndExpr]
    rfl

def disjoining (tokens : List Token) (context : Fields) : Joining tokens context where
  inner := .and
  outer := .or
  operator := .or
  join := (· || ·)
  rest := parseOrRest tokens context
  below := by decide
  proper := nofun
  assoc := Bool.or_assoc
  single := .term
  joined left kind right := .disjunction left (TokenKind.role_or.mpr kind) right
  stops {partway token rest} stops other := by
    rw [← TokenKind.role_or.ne] at other
    rw [stops_cons] at stops ⊢
    change continues _ _ token.kind.role = _ at stops ⊢
    cases role : token.kind.role <;> simp_all [continues]
  rest_zero _ _ := by rw [parseOrRest]
  rest_succ _ _ _ := by
    rw [parseOrRest]
    rfl
  level_succ _ _ := by
    change parseOrExpr _ _ _ _ = _
    rw [parseOrExpr]
    rfl

/-- The operands of an operator after a first one of this truth: none are left, or those up
to the end of the expression are joined with it. -/
inductive ReadRest (J : Joining tokens context) (left : Bool) (pos : Nat) :
    Evaluating (Bool × Nat) → Prop
  | refused (e : ConditionError) : ReadRest J left pos (.error (.refused e))
  | nothing {token : Token} {rest : List Token} : tokens.drop pos = token :: rest →
      token.kind ≠ J.operator → ReadRest J left pos (.ok (left, pos))
  | more {token : Token} (used : List Token) {rest : List Token} {truth partway : Bool}
      {stop : Nat} :
      tokens.drop pos = token :: (used ++ rest) → token.kind = J.operator → Ended rest →
      Derives (parsed context) J.outer used truth partway →
      Stops (parsed context) J.outer partway rest → stop = pos + 1 + used.length →
      ReadRest J left pos (.ok (J.join left truth, stop))

variable {J : Joining tokens context} {left : Bool} {first : Evaluating (Bool × Nat)}
  {further : Bool → Nat → Evaluating (Bool × Nat)}

/-- A first expression and those after it make one of the outer level. -/
theorem Read.join (read : Read tokens context J.inner pos first)
    (readRest : ∀ truth stop, pos ≤ stop → Ended (tokens.drop stop) →
      ReadRest J truth stop (further truth stop)) :
    Read tokens context J.outer pos (first >>= fun (truth, stop) => further truth stop) := by
  cases read with
  | refused e => exact .refused e
  | @taken used _ truth _ stop left ended derived stops after =>
    have start := drop_used left
    rw [← after] at start
    have goes := readRest truth stop (by omega) (by rwa [start])
    simp only [bind, Except.bind]
    generalize further _ _ = result at goes
    cases goes with
    | refused e => exact .refused e
    | nothing next other =>
      rw [next] at start
      subst start
      exact .taken used left ended (J.single derived) (J.stops stops other) after
    | more used' next op ended' derived' stops' after' =>
      rw [next] at start
      subst start
      refine .taken (_ ++ _ :: _) ?_ ended' (J.joined derived op derived') stops' ?_
      · rw [left, List.append_assoc, List.cons_append]
      · simp only [List.length_append, List.length_cons]
        omega

/-- An operator, the expression after it and those that follow. -/
theorem ReadRest.step (op : token.kind = J.operator) (at_ : tokens.drop pos = token :: rest)
    (read : Read tokens context J.inner (pos + 1) first)
    (readRest : ∀ right stop, pos + 1 ≤ stop → Ended (tokens.drop stop) →
      ReadRest J (J.join left right) stop (further (J.join left right) stop)) :
    ReadRest J left pos
      (first >>= fun (right, stop) => further (J.join left right) stop) := by
  cases read with
  | refused e => exact .refused e
  | @taken used _ right _ stop after_ ended derived stops after =>
    have start := drop_used after_
    rw [← after] at start
    rw [drop_succ at_] at after_
    subst after_
    have goes := readRest right stop (by omega) (by rwa [start])
    simp only [bind, Except.bind]
    generalize further _ _ = result at goes
    cases goes with
    | refused e => exact .refused e
    | nothing next other =>
      rw [next] at start
      subst start
      exact .more used at_ op ended (J.single derived) (J.stops stops other) after
    | more used' next op' ended' derived' stops' after' =>
      rw [next] at start
      subst start
      rw [J.assoc]
      refine .more (_ ++ _ :: _) ?_ op ended' (J.joined derived op' derived') stops' ?_
      · rw [at_, List.append_assoc, List.cons_append]
      · simp only [List.length_append, List.length_cons]
        omega

theorem Ended.within (ended : Ended (token :: rest)) (inner : token.kind.role ≠ .other) :
    Ended rest :=
  ended.tail fun eof => inner (by rw [eof]; rfl)

/-- An operand alone, which may be compared where the grammar lets it lead. -/
theorem alone_read {v : Val} (at_ : tokens.drop pos = token :: rest) (ended : Ended rest)
    (value : denoted context token = some v)
    (stops : ∀ next ∈ rest.head?, next.kind.role = .relation → leads token = false) :
    Read tokens context .comparison pos (.ok (asTruthy v, pos + 1)) := by
  refine .taken [token] at_ ended
    (.alone (G := parsed context) (operand_of_denoted value) value) ?_ rfl
  intro next member
  change continues _ (leads token) next.kind.role = false
  cases role : next.kind.role with
  | relation => exact stops next member role
  | _ => rfl

theorem parseOperands_read (at_ : tokens.drop pos = token :: rest) (ended : Ended (token :: rest))
    (led : leads token = true) :
    Read tokens context .comparison pos (parseOperands tokens context pos) := by
  unfold parseOperands
  rcases parseValue_spec context at_ with ⟨v, value, read⟩ | ⟨-, e, read⟩
  · have operand := operand_of_denoted value
    have ended' : Ended rest := ended.within (by simp [operand])
    obtain ⟨op, tail, rfl⟩ := ended'.ne_nil
    have next := drop_succ at_
    rw [read]
    simp only [bind, Except.bind, current_of_drop next]
    split
    · rename_i relation
      rw [← TokenKind.role_relation] at relation
      have ended'' : Ended tail := ended'.within (by simp [relation])
      obtain ⟨second, rest, rfl⟩ := ended''.ne_nil
      rcases parseValue_spec context (drop_succ next) with
        ⟨w, value', read'⟩ | ⟨-, e, read'⟩
      · have operand' := operand_of_denoted value'
        rw [read']
        exact .taken [token, op, second] at_ (ended''.within (by simp [operand']))
          (.compared (G := parsed context) operand led value relation operand' value')
          stops_complete rfl
      · rw [read']
        exact .refused e
    · rename_i relation
      rw [← TokenKind.role_relation] at relation
      refine alone_read at_ ended' value ?_
      rintro next ⟨⟩ role
      exact absurd role relation
  · rw [read]
    exact .refused e

/-- What is known of every rule, given as much fuel as the rules below it may take. -/
structure Reads (tokens : List Token) (context : Fields) (fuel : Nat) : Prop where
  level : ∀ level pos, Ended (tokens.drop pos) →
    4 * (tokens.drop pos).length + rules level ≤ fuel →
    Read tokens context level pos (parseLevel tokens context level fuel pos)
  rest : ∀ (J : Joining tokens context) left pos, Ended (tokens.drop pos) →
    4 * (tokens.drop pos).length + 1 ≤ fuel → ReadRest J left pos (J.rest fuel left pos)

theorem left_le (tokens : List Token) {stop : Nat} (after : pos ≤ stop) :
    (tokens.drop stop).length ≤ (tokens.drop pos).length := by
  rw [List.length_drop, List.length_drop]
  omega

theorem parseComparison_read (below : Reads tokens context fuel)
    (at_ : tokens.drop pos = token :: rest) (ended : Ended (token :: rest))
    (enough : 4 * rest.length + 4 ≤ fuel) :
    Read tokens context .comparison pos (parseComparison tokens context (fuel + 1) pos) := by
  have next := drop_succ at_
  rw [parseComparison]
  simp only [current_of_drop at_, bind, Except.bind]
  split
  · rename_i opening
    rw [← TokenKind.role_opening] at opening
    have inner := below.level .or (pos + 1) (next ▸ ended.within (by simp [opening]))
      (by rw [next]; exact enough)
    change Read _ _ _ _ (parseOrExpr _ _ _ _) at inner
    generalize parseOrExpr _ _ _ _ = result at inner
    cases inner with
    | refused e => exact .refused e
    | taken used there ended' derived stops after =>
      obtain ⟨last, rest, rfl⟩ := ended'.ne_nil
      have start := drop_used there
      rw [next] at there
      subst there
      subst after
      simp only [current_of_drop start]
      split
      · rename_i closing
        rw [← TokenKind.role_closing] at closing
        refine .taken (token :: (_ ++ [last])) ?_ (ended'.within (by simp [closing]))
          (.group opening derived closing) stops_complete ?_
        · simp [at_]
        · simp only [List.length_cons, List.length_append, List.length_nil]
          omega
      · exact .refused _
  · -- both words are read as values of their own
    have word {v : Val} (value : denoted context token = some v) (led : leads token = false) :
        Read tokens context .comparison pos (.ok (asTruthy v, pos + 1)) :=
      alone_read at_ (ended.within (by simp [operand_of_denoted value])) value fun _ _ _ => led
    split
    · rename_i isTrue
      exact word (v := .bool true) (by simp [denoted, isTrue]) (by simp [leads, isTrue])
    · split
      · rename_i isFalse
        exact word (v := .bool false) (by simp [denoted, isFalse]) (by simp [leads, isFalse])
      · rename_i isTrue isFalse
        exact parseOperands_read at_ ended (by simp [leads, isTrue, isFalse])

theorem parseNotExpr_read (below : Reads tokens context fuel)
    (at_ : tokens.drop pos = token :: rest) (ended : Ended (token :: rest))
    (enough : 4 * rest.length + 5 ≤ fuel) :
    Read tokens context .not pos (parseNotExpr tokens context (fuel + 1) pos) := by
  have next := drop_succ at_
  rw [parseNotExpr]
  simp only [current_of_drop at_, bind, Except.bind]
  split
  · rename_i negated
    rw [← TokenKind.role_not] at negated
    have inner := below.level .not (pos + 1) (next ▸ ended.within (by simp [negated]))
      (by simp only [next, rules]; omega)
    change Read _ _ _ _ (parseNotExpr _ _ _ _) at inner
    generalize parseNotExpr _ _ _ _ = result at inner
    cases inner with
    | refused e => exact .refused e
    | taken used there ended' derived stops after =>
      rw [next] at there
      subst there
      refine .taken (token :: _) at_ ended' (.negation negated derived) stops ?_
      rw [List.length_cons]
      omega
  · have inner := below.level .comparison pos (at_ ▸ ended)
      (by simp only [at_, List.length_cons, rules]; omega)
    change Read _ _ _ _ (parseComparison _ _ _ _) at inner
    generalize parseComparison _ _ _ _ = result at inner
    cases inner with
    | refused e => exact .refused e
    | taken used there ended' derived stops after =>
      exact .taken used there ended' (.comparison derived) stops.not_of_comparison after

/-- An outer level is read as its first operand and the loop over the others. -/
theorem Reads.joined (below : Reads tokens context fuel) (J : Joining tokens context)
    (ended : Ended (tokens.drop pos))
    (enough : 4 * (tokens.drop pos).length + rules J.outer ≤ fuel + 1) :
    Read tokens context J.outer pos (parseLevel tokens context J.outer (fuel + 1) pos) := by
  have tighter := J.below
  have some_ : 0 < rules J.inner := by cases J.inner <;> decide
  rw [J.level_succ]
  refine Read.join (below.level J.inner pos ended (by omega)) ?_
  intro truth stop after ended'
  have short := left_le tokens after
  exact below.rest J truth stop ended' (by omega)

/-- The parser's loop over the operands of an operator. -/
theorem Reads.looped (below : Reads tokens context fuel) (J : Joining tokens context)
    (ended : Ended (tokens.drop pos))
    (enough : 4 * (tokens.drop pos).length + 1 ≤ fuel + 1) :
    ReadRest J left pos (J.rest (fuel + 1) left pos) := by
  obtain ⟨token, rest, at_⟩ := ended.ne_nil
  have next := drop_succ at_
  have few := rules_le J.inner
  rw [at_] at ended enough
  rw [List.length_cons] at enough
  rw [J.rest_succ]
  simp only [current_of_drop at_, bind, Except.bind]
  split
  · rename_i kind
    have ended' := ended.tail (by rw [kind]; exact J.proper)
    rw [← next] at ended' enough
    refine ReadRest.step kind at_ (below.level J.inner _ ended' (by omega)) ?_
    intro right stop after ended''
    have short := left_le tokens after
    exact below.rest J _ stop ended'' (by omega)
  · rename_i kind
    exact .nothing at_ kind

/-- With four rules for each token that is left, every rule reads or refuses. -/
theorem reads (tokens : List Token) (context : Fields) : ∀ fuel, Reads tokens context fuel := by
  intro fuel
  induction fuel with
  | zero =>
    constructor
    · intro level pos ended enough
      cases level <;> simp [rules] at enough
    · intro J left pos ended enough
      omega
  | succ fuel below =>
    constructor
    · intro level pos ended enough
      cases level with
      | or => exact below.joined (disjoining tokens context) ended enough
      | and => exact below.joined (conjoining tokens context) ended enough
      | not =>
        obtain ⟨token, rest, at_⟩ := ended.ne_nil
        rw [at_] at ended enough
        simp only [List.length_cons, rules] at enough
        exact parseNotExpr_read below at_ ended (by omega)
      | comparison =>
        obtain ⟨token, rest, at_⟩ := ended.ne_nil
        rw [at_] at ended enough
        simp only [List.length_cons, rules] at enough
        exact parseComparison_read below at_ ended (by omega)
    · intro J left pos ended enough
      exact below.looped J ended enough

/-- What is joined with the loop's result is the first operand that it begins with. -/
theorem Joining.rest_join (J : Joining tokens context) (left right : Bool) (fuel pos : Nat) :
    J.rest fuel (J.join left right) pos =
      (fun (truth, stop) => (J.join left truth, stop)) <$> J.rest fuel right pos := by
  induction fuel generalizing right pos with
  | zero =>
    rw [J.rest_zero, J.rest_zero]
    rfl
  | succ fuel ih =>
    rw [J.rest_succ, J.rest_succ]
    cases current tokens pos with
    | error e => rfl
    | ok token =>
      simp only [bind, Except.bind]
      split
      · cases parseLevel tokens context J.inner fuel (pos + 1) with
        | error e => rfl
        | ok read =>
          simp only [J.assoc]
          exact ih _ _
      · rfl

theorem Joining.rest_more (J : Joining tokens context) {right : Bool} {stop : Nat}
    (at_ : tokens.drop pos = token :: rest) (op : token.kind = J.operator)
    (read : parseLevel tokens context J.outer (fuel + 1) (pos + 1) = .ok (right, stop)) :
    J.rest (fuel + 1) left pos = .ok (J.join left right, stop) := by
  rw [J.level_succ] at read
  rw [J.rest_succ]
  simp only [current_of_drop at_, bind, Except.bind] at read ⊢
  rw [if_pos op]
  cases first : parseLevel tokens context J.inner fuel (pos + 1) with
  | error e => simp [first] at read
  | ok value =>
    simp only [first] at read ⊢
    rw [J.rest_join, read]
    rfl

theorem Joining.rest_nothing (J : Joining tokens context) (at_ : tokens.drop pos = token :: rest)
    (other : token.kind ≠ J.operator) : J.rest (fuel + 1) truth pos = .ok (truth, pos) := by
  rw [J.rest_succ]
  simp only [current_of_drop at_, bind, Except.bind]
  rw [if_neg other]
  rfl

theorem Joining.level_eq (J : Joining tokens context) {stop : Nat}
    (first : parseLevel tokens context J.inner fuel pos = .ok (truth, stop)) :
    parseLevel tokens context J.outer (fuel + 1) pos = J.rest fuel truth stop := by
  rw [J.level_succ, first]
  rfl

theorem parseComparison_alone {v : Val} (at_ : tokens.drop pos = token :: rest)
    (more : rest ≠ []) (value : denoted context token = some v)
    (stops : Stops (parsed context) .comparison (leads token) rest) :
    parseComparison tokens context (fuel + 1) pos = .ok (asTruthy v, pos + 1) := by
  have operand := operand_of_denoted value
  rw [parseComparison]
  simp only [current_of_drop at_, bind, Except.bind]
  rw [if_neg (by rw [← TokenKind.role_opening, operand]; nofun)]
  split
  · rename_i isTrue
    simp only [denoted, isTrue, Option.some.injEq] at value
    rw [← value]
    rfl
  · split
    · rename_i isFalse
      simp only [denoted, isFalse, Option.some.injEq] at value
      rw [← value]
      rfl
    · rename_i isTrue isFalse
      obtain ⟨op, rest, rfl⟩ := List.exists_cons_of_ne_nil more
      have led : leads token = true := by simp [leads, isTrue, isFalse]
      have other : ¬ isComparisonOp op.kind := by
        intro relation
        rw [← TokenKind.role_relation] at relation
        rw [stops_cons, led] at stops
        change continues _ _ op.kind.role = _ at stops
        rw [relation] at stops
        cases stops
      unfold parseOperands
      rw [parseValue_of_denoted at_ value]
      simp only [bind, Except.bind, current_of_drop (drop_succ at_)]
      rw [if_neg other]
      rfl

theorem parseComparison_compared {v w : Val} {op second : Token}
    (at_ : tokens.drop pos = token :: op :: second :: rest) (led : leads token = true)
    (value : denoted context token = some v) (relation : op.kind.role = .relation)
    (value' : denoted context second = some w) :
    parseComparison tokens context (fuel + 1) pos = .ok (compare v op.kind w, pos + 3) := by
  have operand := operand_of_denoted value
  have next := drop_succ at_
  simp only [leads, ne_eq, decide_eq_true_eq] at led
  rw [parseComparison]
  simp only [current_of_drop at_, bind, Except.bind]
  rw [if_neg (by rw [← TokenKind.role_opening, operand]; nofun), if_neg led.1, if_neg led.2]
  unfold parseOperands
  rw [parseValue_of_denoted at_ value]
  simp only [bind, Except.bind, current_of_drop next]
  rw [if_pos (TokenKind.role_relation.mp relation), parseValue_of_denoted (drop_succ next) value']
  rfl

theorem parseComparison_group {last : Token} {stop : Nat} (at_ : tokens.drop pos = token :: rest)
    (opening : token.kind.role = .opening)
    (inner : parseOrExpr tokens context fuel (pos + 1) = .ok (truth, stop))
    (at_' : tokens.drop stop = last :: used) (closing : last.kind.role = .closing) :
    parseComparison tokens context (fuel + 1) pos = .ok (truth, stop + 1) := by
  rw [parseComparison]
  simp only [current_of_drop at_, bind, Except.bind]
  rw [if_pos (TokenKind.role_opening.mp opening), inner]
  simp only [current_of_drop at_']
  rw [if_pos (TokenKind.role_closing.mp closing)]
  rfl

theorem parseNotExpr_not {stop : Nat} (at_ : tokens.drop pos = token :: rest)
    (negated : token.kind.role = .not)
    (inner : parseNotExpr tokens context fuel (pos + 1) = .ok (truth, stop)) :
    parseNotExpr tokens context (fuel + 1) pos = .ok (!truth, stop) := by
  rw [parseNotExpr]
  simp only [current_of_drop at_, bind, Except.bind]
  rw [if_pos (TokenKind.role_not.mp negated), inner]
  rfl

theorem parseNotExpr_comparison (at_ : tokens.drop pos = token :: rest)
    (plain : token.kind.role ≠ .not) :
    parseNotExpr tokens context (fuel + 1) pos = parseComparison tokens context fuel pos := by
  rw [parseNotExpr]
  simp only [current_of_drop at_, bind, Except.bind]
  rw [if_neg fun kind => plain (TokenKind.role_not.mpr kind)]

/-- An expression that does not go on is read to its end: by induction on its derivation, which
the rules follow. -/
theorem parseLevel_derived (derived : Derives (parsed context) level used truth partway) :
    ∀ (fuel : Nat) {pos : Nat} {rest : List Token}, tokens.drop pos = used ++ rest → rest ≠ [] →
      Stops (parsed context) level partway rest → 4 * used.length + rules level ≤ fuel + 1 →
      parseLevel tokens context level (fuel + 1) pos = .ok (truth, pos + used.length) := by
  induction derived with
  | alone operand value =>
    intro fuel pos rest at_ more stops _
    exact parseComparison_alone at_ more value stops
  | compared operand led value relation operand' value' =>
    intro fuel pos rest at_ _ _ _
    exact parseComparison_compared at_ led value relation value'
  | @group o c inner truth partway opening derived closing ih =>
    intro fuel pos rest at_ more stops enough
    have next : tokens.drop (pos + 1) = inner ++ c :: rest := by
      rw [drop_succ at_]
      exact List.append_assoc ..
    simp only [List.length_cons, List.length_append, List.length_nil, rules] at enough ⊢
    obtain ⟨less, rfl⟩ : ∃ less, fuel = less + 1 := Nat.exists_eq_add_one.mpr (by omega)
    have inside := ih less next (List.cons_ne_nil _ _) (by simp [continues, closing])
      (by simp only [rules]; omega)
    have read := parseComparison_group at_ opening inside (drop_used next) closing
    rw [show pos + (inner.length + (0 + 1) + 1) = pos + 1 + inner.length + 1 by omega]
    exact read
  | @negation n ts truth partway negated derived ih =>
    intro fuel pos rest at_ more stops enough
    simp only [List.length_cons, rules] at enough ⊢
    obtain ⟨less, rfl⟩ : ∃ less, fuel = less + 1 := Nat.exists_eq_add_one.mpr (by omega)
    have read := parseNotExpr_not at_ negated
      (ih less (drop_succ at_) more stops (by simp only [rules]; omega))
    rw [show pos + (ts.length + 1) = pos + 1 + ts.length by omega]
    exact read
  | comparison derived ih =>
    intro fuel pos rest at_ more stops enough
    obtain ⟨head, tail, rfl, role⟩ := derived.head
    have plain : head.kind.role ≠ .not := by
      rcases role with role | role <;> exact ne_of_eq_of_ne role nofun
    simp only [List.length_cons, rules] at enough ⊢
    obtain ⟨less, rfl⟩ : ∃ less, fuel = less + 1 := Nat.exists_eq_add_one.mpr (by omega)
    refine (parseNotExpr_comparison at_ plain).trans ?_
    exact ih less at_ more stops.comparison_of_not (by simp only [List.length_cons, rules]; omega)
  | @conjunction ts us op left right leftPartway partway derived role derived' ihl ihr =>
    intro fuel pos rest at_ more stops enough
    rw [List.append_assoc] at at_
    simp only [List.length_append, List.length_cons, rules] at enough ⊢
    obtain ⟨less, rfl⟩ : ∃ less, fuel = less + 1 := Nat.exists_eq_add_one.mpr (by omega)
    have first := ihl less at_ (List.cons_ne_nil _ _) (by simp [continues, role])
      (by simp only [rules]; omega)
    have next := drop_used at_
    have second := ihr less (drop_succ next) more stops (by simp only [rules]; omega)
    refine ((conjoining tokens context).level_eq first).trans ?_
    rw [show pos + (ts.length + (us.length + 1)) = pos + ts.length + 1 + us.length by omega]
    exact (conjoining tokens context).rest_more next (TokenKind.role_and.mp role) second
  | factor derived ih =>
    intro fuel pos rest at_ more stops enough
    obtain ⟨next, tail, rfl⟩ := List.exists_cons_of_ne_nil more
    simp only [rules] at enough
    obtain ⟨less, rfl⟩ : ∃ less, fuel = less + 1 := Nat.exists_eq_add_one.mpr (by omega)
    have first := ih less at_ more stops.not_of_and (by simp only [rules]; omega)
    refine ((conjoining tokens context).level_eq first).trans ?_
    refine (conjoining tokens context).rest_nothing (drop_used at_) ?_
    intro kind
    have role := TokenKind.role_and.mpr kind
    simp [continues, parsed, Grammar.leading, documented, role] at stops
  | @disjunction ts us op left right leftPartway partway derived role derived' ihl ihr =>
    intro fuel pos rest at_ more stops enough
    rw [List.append_assoc] at at_
    simp only [List.length_append, List.length_cons, rules] at enough ⊢
    obtain ⟨less, rfl⟩ : ∃ less, fuel = less + 1 := Nat.exists_eq_add_one.mpr (by omega)
    have first := ihl less at_ (List.cons_ne_nil _ _) (by simp [continues, role])
      (by simp only [rules]; omega)
    have next := drop_used at_
    have second := ihr less (drop_succ next) more stops (by simp only [rules]; omega)
    refine ((disjoining tokens context).level_eq first).trans ?_
    rw [show pos + (ts.length + (us.length + 1)) = pos + ts.length + 1 + us.length by omega]
    exact (disjoining tokens context).rest_more next (TokenKind.role_or.mp role) second
  | term derived ih =>
    intro fuel pos rest at_ more stops enough
    obtain ⟨next, tail, rfl⟩ := List.exists_cons_of_ne_nil more
    simp only [rules] at enough
    obtain ⟨less, rfl⟩ : ∃ less, fuel = less + 1 := Nat.exists_eq_add_one.mpr (by omega)
    have first := ih less at_ more stops.and_of_or (by simp only [rules]; omega)
    refine ((disjoining tokens context).level_eq first).trans ?_
    refine (disjoining tokens context).rest_nothing (drop_used at_) ?_
    intro kind
    have role := TokenKind.role_or.mpr kind
    simp [continues, parsed, Grammar.leading, documented, role] at stops

/-- The parser's answer to tokens and their end mark: the truth of the expression that they
begin with, or else a refusal. -/
theorem parseOrExpr_spec (ts : List Token) (context : Fields) :
    (∃ truth stop, parseOrExpr (ts ++ [endMark]) context (4 * (ts ++ [endMark]).length + 4) 0 =
        .ok (truth, stop) ∧ Begins (parsed context) .or ts truth) ∨
    (¬ ∃ truth, Begins (parsed context) .or ts truth) ∧
      ∃ e, parseOrExpr (ts ++ [endMark]) context (4 * (ts ++ [endMark]).length + 4) 0 =
        .error (.refused e) := by
  have ended : Ended (ts ++ [endMark]) := ⟨endMark, by simp, rfl⟩
  have other : (parsed context).role endMark = .other := rfl
  have read := (reads (ts ++ [endMark]) context _).level .or 0 ended le_rfl
  change Read _ _ _ _ (parseOrExpr _ _ _ _) at read
  generalize answer : parseOrExpr _ _ _ _ = result at read
  cases read with
  | refused e =>
    refine .inr ⟨?_, e, answer⟩
    rintro ⟨truth, used, rest, partway, rfl, derived, stops⟩
    have start : (used ++ rest ++ [endMark]).drop 0 = used ++ (rest ++ [endMark]) :=
      List.append_assoc ..
    have reached := parseLevel_derived derived (4 * (used ++ rest ++ [endMark]).length + 3) start
      (by simp) ((stops_mark other).mpr stops)
      (by simp only [List.length_append, rules]; omega)
    exact nomatch answer.symm.trans reached
  | taken used there ended' derived stops =>
    refine .inl ⟨_, _, answer, ?_⟩
    obtain ⟨last, member, -⟩ := ended'
    obtain ⟨rest, rfl⟩ := List.getLast?_eq_some_iff.mp member
    rw [List.drop_zero, ← List.append_assoc] at there
    obtain ⟨rfl, ⟨⟩⟩ := List.append_inj' there rfl
    exact ⟨_, rest, _, rfl, derived, (stops_mark other).mp stops⟩

end Parser
end Nps.Nop.Condition
