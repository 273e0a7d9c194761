import Mathlib.Data.List.Chain
import Mathlib.Data.List.Perm.Subperm
import NpsSdk.Nop.ConditionGrammar
import NpsSdk.Nop.ConditionTokens

/-! That conditions are answered whatever their text, and how deep the rules of the parser call one
another. -/
namespace Nps.Nop.Condition
open Json (Fields)
open BooleanGrammar

/-- A value or a refusal: nothing was read past an end, and the fuel was enough. -/
def Answered {α : Type} (result : Evaluating α) : Prop :=
  (∃ value, result = .ok value) ∨ ∃ e, result = .error (.refused e)

/-- A rule of the parser and the position where it was called. -/
structure Call where
  level : Level
  pos : ℕ

section
variable (tokens : List Token) (context : Fields)

/-- Where the loop of a rule calls the rule of its operands: first where it was called itself, then
behind every operator at which an operand ended. -/
inductive Operands (operand : Level) (operator : TokenKind) (start : ℕ) : ℕ → Prop
  | first : Operands operand operator start start
  | next {pos stop : ℕ} {truth : Bool} {token : Token} : Operands operand operator start pos →
      parseLevel tokens context operand (4 * tokens.length + 4) pos = .ok (truth, stop) →
      current tokens stop = .ok token → token.kind = operator →
      Operands operand operator start (stop + 1)

/-- The calls of the rules to one another; a value is read without one. -/
inductive Calls : Call → Call → Prop
  | term {pos at_ : ℕ} : Operands tokens context .and .or pos at_ → Calls ⟨.or, pos⟩ ⟨.and, at_⟩
  | factor {pos at_ : ℕ} : Operands tokens context .not .and pos at_ → Calls ⟨.and, pos⟩ ⟨.not, at_⟩
  | negated {pos : ℕ} {token : Token} : current tokens pos = .ok token → token.kind = .not →
      Calls ⟨.not, pos⟩ ⟨.not, pos + 1⟩
  | plain {pos : ℕ} {token : Token} : current tokens pos = .ok token → token.kind ≠ .not →
      Calls ⟨.not, pos⟩ ⟨.comparison, pos⟩
  | group {pos : ℕ} {token : Token} : current tokens pos = .ok token → token.kind = .lParen →
      Calls ⟨.comparison, pos⟩ ⟨.or, pos + 1⟩

structure Stack (calls : List Call) : Prop where
  first : calls.head? = some ⟨.or, 0⟩
  nested : calls.IsChain (Calls tokens context)

end

/-- The rank of a call: by its position, and at one position by its rule. -/
def Call.rank (call : Call) : ℕ := 4 * call.pos + (4 - rules call.level)

section
variable {tokens : List Token} {context : Fields} {call callee : Call} {token : Token}

theorem drop_of_current {pos : ℕ} (here : current tokens pos = .ok token) :
    ∃ rest, tokens.drop pos = token :: rest := by
  unfold current at here
  split at here
  · rename_i found
    cases here
    exact List.head?_eq_some_iff.mp (List.head?_drop.trans found)
  · cases here

theorem ended_succ {pos : ℕ} (ended : Ended (tokens.drop pos)) (here : current tokens pos = .ok token)
    (inner : token.kind ≠ .eof) : Ended (tokens.drop (pos + 1)) := by
  obtain ⟨rest, at_⟩ := drop_of_current here
  rw [at_] at ended
  rw [drop_succ at_]
  exact ended.tail inner

theorem parseLevel_stop {level : Level} {pos stop : ℕ} {truth : Bool} (ended : Ended (tokens.drop pos))
    (parsed : parseLevel tokens context level (4 * tokens.length + 4) pos = .ok (truth, stop)) :
    pos ≤ stop ∧ Ended (tokens.drop stop) := by
  have few := rules_le level
  have short : (tokens.drop pos).length ≤ tokens.length := by
    rw [List.length_drop]
    exact Nat.sub_le ..
  have read := (reads tokens context (4 * tokens.length + 4)).level level pos ended (by omega)
  rw [parsed] at read
  cases read with
  | taken used there ended' derived stops after =>
    subst after
    rw [drop_used there]
    exact ⟨Nat.le_add_right .., ended'⟩

theorem Operands.ahead {operand : Level} {operator : TokenKind} {start pos : ℕ}
    (proper : operator ≠ .eof) (operands : Operands tokens context operand operator start pos)
    (ended : Ended (tokens.drop start)) : start ≤ pos ∧ Ended (tokens.drop pos) := by
  induction operands with
  | first => exact ⟨le_rfl, ended⟩
  | next operands parsed here kind ih =>
    obtain ⟨later, ended'⟩ := ih
    obtain ⟨after, ended''⟩ := parseLevel_stop ended' parsed
    exact ⟨by omega, ended_succ ended'' here (by rwa [kind])⟩

/-- Every call is of a later position or, at the same one, of a later rule. -/
theorem Calls.rises (calls : Calls tokens context call callee) (ended : Ended (tokens.drop call.pos)) :
    call.rank < callee.rank ∧ Ended (tokens.drop callee.pos) := by
  cases calls with
  | term operands =>
    obtain ⟨later, ended'⟩ := operands.ahead (by decide) ended
    exact ⟨by simp only [Call.rank, rules]; omega, ended'⟩
  | factor operands =>
    obtain ⟨later, ended'⟩ := operands.ahead (by decide) ended
    exact ⟨by simp only [Call.rank, rules]; omega, ended'⟩
  | negated here kind =>
    exact ⟨by simp only [Call.rank, rules]; omega, ended_succ ended here (by rw [kind]; decide)⟩
  | plain here kind => exact ⟨by simp only [Call.rank, rules]; omega, ended⟩
  | group here kind =>
    exact ⟨by simp only [Call.rank, rules]; omega, ended_succ ended here (by rw [kind]; decide)⟩

theorem chain_rises {calls : List Call} (nested : (call :: calls).IsChain (Calls tokens context))
    (ended : Ended (tokens.drop call.pos)) :
    (call :: calls).IsChain (fun call callee => call.rank < callee.rank) ∧
      ∀ open_ ∈ call :: calls, open_.pos < tokens.length := by
  have inside {open_ : Call} (ended : Ended (tokens.drop open_.pos)) : open_.pos < tokens.length := by
    obtain ⟨token, rest, at_⟩ := ended.ne_nil
    have some_ := congrArg List.length at_
    rw [List.length_drop, List.length_cons] at some_
    omega
  induction calls generalizing call with
  | nil =>
    refine ⟨.singleton _, fun open_ member => ?_⟩
    rw [List.mem_singleton.mp member]
    exact inside ended
  | cons callee calls ih =>
    obtain ⟨first, others⟩ := List.isChain_cons_cons.mp nested
    obtain ⟨higher, ended'⟩ := first.rises ended
    obtain ⟨rising, within⟩ := ih others ended'
    exact ⟨.cons_cons higher rising, List.forall_mem_cons.mpr ⟨inside ended, within⟩⟩

theorem length_le_of_increasing {ranks : List ℕ} {bound : ℕ} (increasing : ranks.Pairwise (· < ·))
    (below : ∀ rank ∈ ranks, rank < bound) : ranks.length ≤ bound := by
  have distinct : ranks.Nodup := increasing.imp fun lower => Nat.ne_of_lt lower
  have among : ranks ⊆ List.range bound := fun rank member => List.mem_range.mpr (below rank member)
  have fewer := (List.subperm_of_subset distinct among).length_le
  rwa [List.length_range] at fewer

/-- A rule is open at most once for each token, and the four of them at most four times. -/
theorem Stack.depth {calls : List Call} (ended : Ended tokens) (stack : Stack tokens context calls) :
    calls.length ≤ 4 * tokens.length ∧
      ∀ level, calls.countP (·.level = level) ≤ tokens.length := by
  obtain ⟨others, rfl⟩ := List.head?_eq_some_iff.mp stack.first
  obtain ⟨chain, within⟩ := chain_rises stack.nested (by rwa [List.drop_zero])
  have rising : (⟨.or, 0⟩ :: others : List Call).Pairwise fun call callee => call.rank < callee.rank := by
    have : IsTrans Call fun call callee => call.rank < callee.rank := ⟨fun _ _ _ => Nat.lt_trans⟩
    exact List.isChain_iff_pairwise.mp chain
  generalize (⟨.or, 0⟩ :: others : List Call) = calls at rising within
  constructor
  · have ranks : (calls.map Call.rank).Pairwise (· < ·) := List.pairwise_map.mpr rising
    rw [← List.length_map Call.rank]
    refine length_le_of_increasing ranks fun rank member => ?_
    obtain ⟨call, known, rfl⟩ := List.mem_map.mp member
    have inside := within call known
    have few : 0 < rules call.level := by cases call.level <;> decide
    unfold Call.rank
    omega
  · intro level
    have positions : ((calls.filter (·.level = level)).map Call.pos).Pairwise (· < ·) := by
      refine List.pairwise_map.mpr ((rising.filter _).imp_of_mem ?_)
      intro call callee member member' higher
      have same : call.level = callee.level := by
        simp only [List.mem_filter, decide_eq_true_eq] at member member'
        rw [member.2, member'.2]
      unfold Call.rank at higher
      rw [same] at higher
      omega
    rw [List.countP_eq_length_filter, ← List.length_map Call.pos]
    refine length_le_of_increasing positions fun pos member => ?_
    obtain ⟨call, known, rfl⟩ := List.mem_map.mp member
    exact within call (List.mem_of_mem_filter known)

end

section
variable [CharClasses]

theorem tokenize_answered (input : String) : Answered (tokenize input) := by
  rcases tokenize_spec input with ⟨ts, closed, -, read⟩ | ⟨-, refused⟩
  · exact .inl ⟨_, read⟩
  · exact .inr refused

theorem parseOrExpr_answered {input : String} {tokens : List Token}
    (cut : tokenize input = .ok tokens) (context : Fields) :
    Ended tokens ∧ Answered (parseOrExpr tokens context (4 * tokens.length + 4) 0) := by
  rcases tokenize_spec input with ⟨ts, closed, -, read⟩ | ⟨-, e, refused⟩
  · cases read.symm.trans cut
    refine ⟨⟨endMark, by simp, rfl⟩, ?_⟩
    rcases parseOrExpr_spec ts context with ⟨truth, stop, answer, -⟩ | ⟨-, refused⟩
    · exact .inl ⟨_, answer⟩
    · exact .inr refused
  · cases refused.symm.trans cut

/-- Whatever the text of a condition, it is cut or refused, and what it is cut into is read or
refused; while that is read, no rule of the parser is open more often than there are tokens. -/
theorem condition_total (input : String) (context : Fields) :
    Answered (tokenize input) ∧ ∀ tokens, tokenize input = .ok tokens →
      Answered (parseOrExpr tokens context (4 * tokens.length + 4) 0) ∧
      ∀ calls, Stack tokens context calls → calls.length ≤ 4 * tokens.length ∧
        ∀ level, calls.countP (·.level = level) ≤ tokens.length := by
  refine ⟨tokenize_answered input, fun tokens cut => ?_⟩
  obtain ⟨ended, answered⟩ := parseOrExpr_answered cut context
  exact ⟨answered, fun calls stack => stack.depth ended⟩

end
end Nps.Nop.Condition
