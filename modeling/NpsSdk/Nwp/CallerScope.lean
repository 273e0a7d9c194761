import NpsSdk.Nwp.InvokePrograms

/-! Whose outcomes are kept where: the slot of an outcome is made of the action, the caller and the
key, joined by a separator that any of them may contain. -/
namespace Nps.Nwp.ActionServer
open Interaction Prog

/-- The operation uses the cache under this slot only. -/
def Op.Files (slot : Option String) : Op → Prop
  | .cacheGet scope key _ => slot = some (InMemoryIdempotencyCache.key scope key)
  | .tryStore scope key _ _ => slot = some (InMemoryIdempotencyCache.key scope key)
  | _ => True

section Files
variable {opt : ActionNodeOptions} {frame : ParsedActionFrame} {agentNid : Option String}

theorem Op.Idle.files {slot : Option String} (op : Op) (idle : op.Idle) : op.Files slot := by
  cases op with
  | cacheGet | tryStore => exact False.elim idle
  | _ => trivial

theorem Op.Of.files (op : Op) (own : op.Of frame agentNid) : op.Files (frame.slot agentNid) := by
  cases op with
  | cacheGet => exact False.elim own
  | tryStore scope key entry now =>
    obtain ⟨rfl, known, -⟩ := own
    change frame.slot agentNid = _
    rw [ParsedActionFrame.slot, known]
    rfl
  | _ => trivial

theorem consult_files {context : ActionContext} (caller : context.agentNid = agentNid) :
    Only (Op.Files (frame.slot agentNid)) (consult opt frame context) := by
  subst caller
  unfold consult
  split
  · exact perform_of.mono Op.Of.files
  · rename_i key known
    refine Only.ask trivial fun now => Only.ask ?_ fun cached => ?_
    · change frame.slot context.agentNid = _
      rw [ParsedActionFrame.slot, known]
      rfl
    · split
      · exact (replay_idle _).mono Op.Idle.files
      · exact perform_of.mono Op.Of.files

theorem request_files [Formats] {req : InvokeRequest} (parsed : req.frame = .ok frame) :
    Only (Op.Files (frame.slot req.agentNid)) (handleInvoke opt req) := by
  unfold handleInvoke
  rw [parsed]
  dsimp only
  split_ifs
  · exact ((handleTaskStatus_quiet _).mono Op.Quiet.idle).mono Op.Idle.files
  · exact (handleTaskCancel_calm _).mono fun op calm => (calm.idle op).files op
  · unfold invoke
    split
    · trivial
    · refine Only.ask trivial fun token => Only.ask trivial fun authorized => ?_
      split
      · trivial
      · exact consult_files rfl

end Files

/-- Who asks for which action under which key. -/
@[ext] structure CallerKey where
  actionId : String
  agentNid : Option String
  idempotencyKey : String
  named : actionId ≠ ""

namespace CallerKey

def slot (t : CallerKey) : String :=
  InMemoryIdempotencyCache.key (idempotencyCacheScope t.actionId t.agentNid) t.idempotencyKey

theorem named_of_fromJson {body : Json.Value} {frame : ParsedActionFrame}
    (parsed : ParsedActionFrame.fromJson body = .ok frame) : frame.actionId ≠ "" := by
  unfold ParsedActionFrame.fromJson at parsed
  split at parsed
  · cases parsed
  · dsimp only at parsed
    split at parsed
    · cases parsed
    · rename_i actionId found
      cases parsed
      exact of_decide_eq_true (Option.filter_eq_some_iff.mp found).2

theorem of_request {req : InvokeRequest} {frame : ParsedActionFrame} {key : String}
    (parsed : req.frame = .ok frame) (known : frame.idempotencyKey = some key) :
    ∃ t : CallerKey, t.actionId = frame.actionId ∧ t.agentNid = req.agentNid ∧
      t.idempotencyKey = key ∧ frame.slot req.agentNid = some t.slot := by
  obtain ⟨body, -, read⟩ := Outcome.bind_ok.mp parsed
  refine ⟨⟨frame.actionId, req.agentNid, key, named_of_fromJson read⟩, rfl, rfl, rfl, ?_⟩
  rw [ParsedActionFrame.slot, known]
  rfl

theorem slot_text (t : CallerKey) : t.slot.toList =
    t.actionId.toList ++ '\x1f' :: ((t.agentNid.getD "").toList ++ '\x1f' :: t.idempotencyKey.toList) := by
  simp [slot, InMemoryIdempotencyCache.key, idempotencyCacheScope]

/-- Whether the parts of a slot can be told apart: there is an agent, and no part has the separator,
but for the first character of the action. -/
structure Apart (t : CallerKey) : Prop where
  agent : ∃ agent, t.agentNid = some agent ∧ agent ≠ "" ∧ '\x1f' ∉ agent.toList
  action : '\x1f' ∉ t.actionId.toList.tail
  key : '\x1f' ∉ t.idempotencyKey.toList

end CallerKey

section Separators
variable {sep : Char} {a b c a' b' c' : List Char}

theorem split_unique (free : sep ∉ a) (free' : sep ∉ a') (same : a ++ sep :: b = a' ++ sep :: b') :
    a = a' ∧ b = b' := by
  induction a generalizing a' with
  | nil =>
    cases a' with
    | nil => exact ⟨rfl, (List.cons.inj same).2⟩
    | cons x xs =>
      obtain rfl := (List.cons.inj same).1
      exact absurd List.mem_cons_self free'
  | cons x xs ih =>
    cases a' with
    | nil =>
      obtain rfl := (List.cons.inj same).1
      exact absurd List.mem_cons_self free
    | cons y ys =>
      obtain ⟨rfl, rest⟩ := List.cons.inj same
      obtain ⟨rfl, after⟩ := ih (List.not_mem_of_not_mem_cons free)
        (List.not_mem_of_not_mem_cons free') rest
      exact ⟨rfl, after⟩

theorem parts_unique (first : sep ∉ a) (second : sep ∉ b) (third : sep ∉ c)
    (same : a ++ sep :: (b ++ sep :: c) = a' ++ sep :: (b' ++ sep :: c')) :
    a = a' ∧ b = b' ∧ c = c' := by
  have counted := congrArg (List.count sep) same
  simp only [List.count_append, List.count_cons_self, List.count_eq_zero_of_not_mem first,
    List.count_eq_zero_of_not_mem second, List.count_eq_zero_of_not_mem third] at counted
  have first' : sep ∉ a' := List.count_eq_zero.mp (by omega)
  have second' : sep ∉ b' := List.count_eq_zero.mp (by omega)
  obtain ⟨rfl, rest⟩ := split_unique first first' same
  exact ⟨rfl, split_unique second second' rest⟩

end Separators

namespace CallerKey
variable {t other : CallerKey}

theorem action_cons (t : CallerKey) : ∃ c cs, t.actionId.toList = c :: cs := by
  refine List.exists_cons_of_ne_nil fun empty => t.named ?_
  exact String.toList_inj.mp empty

theorem Apart.unique (apart : t.Apart) (same : other.slot = t.slot) : other = t := by
  obtain ⟨⟨agent, known, named, free⟩, action, key⟩ := apart
  obtain ⟨c, cs, here⟩ := t.action_cons
  obtain ⟨c', cs', there⟩ := other.action_cons
  have texts := congrArg String.toList same
  rw [slot_text, slot_text, known, here, there] at texts
  obtain ⟨rfl, rest⟩ := List.cons.inj texts
  rw [here] at action
  obtain ⟨rfl, agents, keys⟩ := parts_unique action free key rest.symm
  refine CallerKey.ext (String.toList_inj.mp (there.trans here.symm)) ?_ (String.toList_inj.mp keys.symm)
  have told : agent = other.agentNid.getD "" := String.toList_inj.mp agents
  cases found : other.agentNid with
  | none =>
    rw [found] at told
    exact absurd told named
  | some otherAgent =>
    rw [found] at told
    rw [known, told]
    rfl

/-- A slot whose text is split in another way is shared. -/
theorem shared_split (t : CallerKey) {action agent key : List Char} (named : action ≠ [])
    (same : t.slot.toList = action ++ '\x1f' :: (agent ++ '\x1f' :: key))
    (different : action ≠ t.actionId.toList ∨ t.agentNid ≠ some (String.ofList agent)) :
    ∃ other : CallerKey, other.slot = t.slot ∧ other ≠ t := by
  refine ⟨⟨String.ofList action, some (String.ofList agent), String.ofList key, ?_⟩, ?_, ?_⟩
  · intro empty
    refine named ?_
    simpa using congrArg String.toList empty
  · apply String.toList_inj.mp
    rw [slot_text, same]
    simp
  · rintro rfl
    rcases different with other | other
    · exact other (by simp)
    · exact other rfl

/-- Without an agent, a slot is shared with an agent without a name. -/
theorem shared_nobody (t : CallerKey) (nobody : t.agentNid = none ∨ t.agentNid = some "") :
    ∃ other : CallerKey, other.slot = t.slot ∧ other ≠ t := by
  rcases nobody with none_ | empty
  · refine ⟨{ t with agentNid := some "" }, by simp [slot, idempotencyCacheScope, none_], ?_⟩
    intro same
    cases none_.symm.trans (congrArg CallerKey.agentNid same).symm
  · refine ⟨{ t with agentNid := none }, by simp [slot, idempotencyCacheScope, empty], ?_⟩
    intro same
    cases empty.symm.trans (congrArg CallerKey.agentNid same).symm

/-- No other request is answered from the slot exactly if its parts can be told apart. -/
theorem caller_scoped_iff (t : CallerKey) :
    (∀ other : CallerKey, other.slot = t.slot → other = t) ↔ t.Apart := by
  refine ⟨fun alone => ?_, fun apart other => apart.unique⟩
  have sole : ¬ ∃ other : CallerKey, other.slot = t.slot ∧ other ≠ t :=
    fun ⟨other, same, different⟩ => different (alone other same)
  constructor
  · cases known : t.agentNid with
    | none => exact absurd (t.shared_nobody (.inl known)) sole
    | some agent =>
      refine ⟨agent, rfl, fun empty => sole (t.shared_nobody (.inr (empty ▸ known))), fun member => ?_⟩
      obtain ⟨front, back, split⟩ := List.append_of_mem member
      have same : t.slot.toList = t.actionId.toList ++ '\x1f' ::
          (front ++ '\x1f' :: (back ++ '\x1f' :: t.idempotencyKey.toList)) := by
        rw [slot_text, known, Option.getD_some, split]
        simp
      refine sole (t.shared_split (fun empty => t.named (String.toList_inj.mp empty)) same (.inr ?_))
      rw [known]
      intro equal
      have sizes := congrArg List.length split
      rw [Option.some.inj equal] at sizes
      simp at sizes
  · intro member
    obtain ⟨c, cs, here⟩ := t.action_cons
    rw [here, List.tail_cons] at member
    obtain ⟨front, back, split⟩ := List.append_of_mem member
    have same : t.slot.toList = (c :: front) ++ '\x1f' ::
        ((back ++ '\x1f' :: (t.agentNid.getD "").toList) ++ '\x1f' :: t.idempotencyKey.toList) := by
      rw [slot_text, here, split]
      simp
    refine sole (t.shared_split (List.cons_ne_nil _ _) same (.inl fun equal => ?_))
    have sizes := congrArg List.length equal
    rw [here, split] at sizes
    simp at sizes
  · intro member
    obtain ⟨front, back, split⟩ := List.append_of_mem member
    have same : t.slot.toList = t.actionId.toList ++ '\x1f' ::
        (((t.agentNid.getD "").toList ++ '\x1f' :: front) ++ '\x1f' :: back) := by
      rw [slot_text, split]
      simp
    refine sole (t.shared_split (fun empty => t.named (String.toList_inj.mp empty)) same (.inr ?_))
    intro equal
    have sizes := congrArg (fun agent : Option String => (agent.getD "").toList.length) equal
    simp at sizes

namespace Shared

/-- One agent's name has the separator in it. -/
def first : CallerKey := ⟨"orders.create", some "a", "b\x1fk", by decide⟩

def second : CallerKey := ⟨"orders.create", some "a\x1fb", "k", by decide⟩

/-- An empty header names nobody, and neither does none. -/
def unnamed : CallerKey := ⟨"orders.create", some "", "k", by decide⟩

def nobody : CallerKey := ⟨"orders.create", none, "k", by decide⟩

/-- Two agents are served from one slot, and so are two callers without a name. -/
theorem slots_shared : (first.slot = second.slot ∧ first ≠ second) ∧
    (unnamed.slot = nobody.slot ∧ unnamed ≠ nobody) := by
  refine ⟨⟨by decide, fun same => ?_⟩, by decide, fun same => ?_⟩
  · exact absurd (congrArg CallerKey.idempotencyKey same) (by decide)
  · cases congrArg CallerKey.agentNid same

end Shared
end CallerKey
end Nps.Nwp.ActionServer
