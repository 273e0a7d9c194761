import NpsSdk.Lib.Casing
import NpsSdk.Lib.NameResolution
import NpsSdk.Nwp.BridgeInbound

/-! To which action of which node a name leads that is given to the inbound bridge, as a tool of MCP and as a
skill of A2A. -/
namespace Nps.Nwp.BridgeInbound
open Interaction Prog NameResolution
open Json

/-- A node, by its place among those that the bridge fronts, and an action of it. -/
@[ext] structure Target where
  backend : Nat
  actionId : String
deriving DecidableEq

def Exposed.target (e : Exposed) : Target := ⟨e.backend, e.action.actionId⟩

/-- The target is called, and nothing else has been before. -/
def Calls (program : BackendProg BridgeJsonRpcResponse) (target : Target) : Prop :=
  ∃ arguments next, program = call (.invoke target.backend target.actionId arguments false) next

theorem mem_trimEnd {drop : Char → Bool} {text : String} {c : Char}
    (member : c ∈ (Text.trimEnd drop text).toList) : c ∈ text.toList := by
  simp only [Text.trimEnd, String.toList_ofList, List.mem_reverse] at member
  exact List.mem_reverse.mp ((List.dropWhile_sublist _).mem member)

theorem mem_trimStart {drop : Char → Bool} {text : String} {c : Char}
    (member : c ∈ (Text.trimStart drop text).toList) : c ∈ text.toList := by
  simp only [Text.trimStart, String.toList_ofList] at member
  exact (List.dropWhile_sublist _).mem member

theorem trim_of_visible {text : String} (visible : ∀ c ∈ text.toList, Text.isWhitespace c = false) :
    Text.trim text = text := by
  apply String.toList_inj.mp
  have started : text.toList.dropWhile Text.isWhitespace = text.toList := by
    rw [List.dropWhile_eq_self_iff]
    intro some_
    exact Bool.not_eq_true _ ▸ visible _ (List.getElem_mem some_)
  rw [Text.trim_toList, started, List.rdropWhile_eq_self_iff]
  intro some_
  exact Bool.not_eq_true _ ▸ visible _ (List.getLast_mem some_)

section
variable [Alphanumeric]

theorem toolChar_visible {c : Char} (tool : toolChar c = true) : Text.isWhitespace c = false := by
  by_contra white
  have white := Bool.eq_true_of_not_eq_false white
  have other := Alphanumeric.visible c white
  simp only [toolChar, other, Bool.false_or, Bool.or_eq_true, beq_iff_eq] at tool
  rcases tool with (rfl | rfl) | rfl <;> revert white <;> decide

theorem sanitize_toolChar {s : String} {c : Char} (member : c ∈ (sanitize s).toList) : toolChar c = true := by
  unfold sanitize at member
  dsimp only at member
  split at member
  · have ascii : "node".toList.all (fun c => decide (c.toNat < 128) && c.isAlphanum) = true := by decide
    obtain ⟨small, letter⟩ := Bool.and_eq_true_iff.mp (List.all_eq_true.mp ascii c member)
    simp [toolChar, Alphanumeric.ascii c (of_decide_eq_true small), letter]
  · have mapped := mem_trimStart (mem_trimEnd member)
    simp only [String.toList_ofList, List.mem_map] at mapped
    obtain ⟨d, -, rfl⟩ := mapped
    split
    · assumption
    · simp [toolChar]

theorem encode_visible {node action : String} {c : Char} (member : c ∈ (encode node action).toList) :
    Text.isWhitespace c = false := by
  simp only [encode, encodeActionSegment, String.toList_append, List.mem_append, String.toList_ofList,
    List.mem_map] at member
  rcases member with (front | middle) | ⟨d, segment, rfl⟩
  · exact toolChar_visible (sanitize_toolChar front)
  · have underscores : "__".toList = ['_', '_'] := by decide
    rw [underscores, List.mem_cons, List.mem_singleton, or_self] at middle
    rw [middle]
    decide
  · split
    · decide
    · exact toolChar_visible (sanitize_toolChar segment)

theorem encode_trimmed (node action : String) :
    Text.trim (encode node action) = encode node action ∧ encode node action ≠ "" := by
  refine ⟨trim_of_visible fun c member => encode_visible member, fun empty => ?_⟩
  have none_ := congrArg String.toList empty
  simp [encode] at none_

/-- A label is what an action is advertised as; ASCII letters are not told apart by case. -/
def naming : Naming Exposed String Target where
  label e := Text.lowerAscii e.qualified
  plain e := Text.lowerAscii e.action.actionId
  derived e := Text.lowerAscii (encodeActionSegment e.action.actionId)
  target := Exposed.target

variable {options : BridgeInboundOptions}

omit [Alphanumeric] in
theorem eqIgnoreAsciiCase_iff {a b : String} :
    eqIgnoreAsciiCase a b = true ↔ Text.lowerAscii a = Text.lowerAscii b :=
  decide_eq_true_iff

/-- The scan collects what follows the qualified names that it does not find. -/
theorem resolve_eq (tool : String) (unqualified rest : List Exposed) :
    McpInboundServer.resolve tool unqualified rest =
      (rest.find? fun e => naming.label e = Text.lowerAscii tool).elim
        ((single (unqualified ++ rest.filter (McpInboundServer.unqualifiedMatch tool))).mapError
          (·.map Exposed.qualified)) fun e => .ok (some e) := by
  induction rest generalizing unqualified with
  | nil =>
    unfold McpInboundServer.resolve
    rw [List.find?_nil, Option.elim_none, List.filter_nil, List.append_nil]
    cases unqualified with
    | nil => rfl
    | cons one more => cases more <;> rfl
  | cons e rest ih =>
    unfold McpInboundServer.resolve
    by_cases qualified : naming.label e = Text.lowerAscii tool
    · rw [if_pos (eqIgnoreAsciiCase_iff.mpr qualified), List.find?_cons_of_pos (by simpa using qualified)]
      rfl
    · rw [if_neg (mt eqIgnoreAsciiCase_iff.mp qualified), ih,
        List.find?_cons_of_neg (by simpa using qualified)]
      cases has : McpInboundServer.unqualifiedMatch tool e with
      | true => rw [if_pos rfl, List.filter_cons_of_pos has, List.append_assoc, List.singleton_append]
      | false => rw [if_neg Bool.false_ne_true, List.filter_cons_of_neg (by simp [has])]

theorem resolveTool_eq (tool : String) : McpInboundServer.resolveTool options tool =
    (byLabelFirst naming options.exposed (Text.lowerAscii tool)).mapError (·.map Exposed.qualified) := by
  have same : McpInboundServer.unqualifiedMatch tool = fun e =>
      decide (naming.plain e = Text.lowerAscii tool ∨ naming.derived e = Text.lowerAscii tool) := by
    funext e
    rw [McpInboundServer.unqualifiedMatch, eqIgnoreAsciiCase, eqIgnoreAsciiCase, ← Bool.decide_or]
    rfl
  rw [McpInboundServer.resolveTool, resolve_eq, List.nil_append, byLabelFirst, same]
  cases options.exposed.find? fun e => naming.label e = Text.lowerAscii tool <;> rfl

theorem resolveTool_some {tool : String} {e : Exposed} :
    McpInboundServer.resolveTool options tool = .ok (some e) ↔
      byLabelFirst naming options.exposed (Text.lowerAscii tool) = .ok (some e) := by
  rw [resolveTool_eq]
  cases byLabelFirst naming options.exposed (Text.lowerAscii tool) <;> simp [Except.mapError]

theorem resolveSkill_eq (hint : String) :
    A2aInboundServer.resolveSkill options (some hint) =
      firstNamed naming options.exposed (Text.lowerAscii hint) := by
  have same : (fun e : Exposed =>
      eqIgnoreAsciiCase e.qualified hint || eqIgnoreAsciiCase e.action.actionId hint) = fun e => decide (naming.label e = Text.lowerAscii hint ∨ naming.plain e = Text.lowerAscii hint) := by
    funext e
    rw [eqIgnoreAsciiCase, eqIgnoreAsciiCase, ← Bool.decide_or]
    rfl
  rw [A2aInboundServer.resolveSkill, firstNamed, same]

theorem toolsCall_calls {id : Value} {params : Option Value} {target : Target} :
    Calls (McpInboundServer.toolsCall options id params) target ↔ McpInboundServer.toolName params ≠ "" ∧
      ∃ e, McpInboundServer.resolveTool options (McpInboundServer.toolName params) = .ok (some e) ∧
        e.target = target := by
  unfold McpInboundServer.toolsCall
  dsimp only
  by_cases blank : McpInboundServer.toolName params = ""
  · rw [if_pos blank]
    exact ⟨nofun, fun said => absurd blank said.1⟩
  rw [if_neg blank]
  cases resolved : McpInboundServer.resolveTool options (McpInboundServer.toolName params) with
  | error candidates => exact ⟨nofun, nofun⟩
  | ok found =>
    cases found with
    | none => exact ⟨nofun, nofun⟩
    | some e =>
      constructor
      · rintro ⟨arguments, next, same⟩
        injection same with same
        injection same with backend action
        exact ⟨blank, e, rfl, Target.ext backend action⟩
      · rintro ⟨-, e', found, rfl⟩
        cases found
        exact ⟨_, _, rfl⟩

theorem tasksSend_calls {now : String} {id : Value} {params : Fields} {target : Target} :
    Calls (A2aInboundServer.tasksSend options now id params) target ↔ A2aInboundServer.taskId params ≠ "" ∧
      ∃ e, A2aInboundServer.resolveSkill options (A2aInboundServer.findSkillHint params) = some e ∧
        e.target = target := by
  unfold A2aInboundServer.tasksSend
  by_cases blank : A2aInboundServer.taskId params = ""
  · rw [if_pos blank]
    exact ⟨nofun, fun said => absurd blank said.1⟩
  rw [if_neg blank]
  cases resolved : A2aInboundServer.resolveSkill options (A2aInboundServer.findSkillHint params) with
  | none => exact ⟨nofun, nofun⟩
  | some e =>
    constructor
    · rintro ⟨arguments, next, same⟩
      injection same with same
      injection same with backend action
      exact ⟨blank, e, rfl, Target.ext backend action⟩
    · rintro ⟨-, e', found, rfl⟩
      cases found
      exact ⟨_, _, rfl⟩

/-- A name that can be called: nothing but the case of its letters is lost when it is folded. -/
def Sayable (folded : String) : Prop :=
  ∃ name, Text.trim name = name ∧ name ≠ "" ∧ Text.lowerAscii name = folded

omit [Alphanumeric] in
theorem toolName_trimmed (params : Option Value) :
    Text.trim (McpInboundServer.toolName params) = McpInboundServer.toolName params :=
  Text.trim_trim _

omit [Alphanumeric] in
theorem findSkillHint_trimmed {params : Fields} {hint : String}
    (found : A2aInboundServer.findSkillHint params = some hint) : Text.trim hint = hint ∧ hint ≠ "" := by
  obtain ⟨source, -, read⟩ := List.exists_of_findSome?_eq_some found
  obtain ⟨key, -, kept⟩ := List.exists_of_findSome?_eq_some read
  obtain ⟨given, full⟩ := Option.filter_eq_some_iff.mp kept
  obtain ⟨text, -, rfl⟩ := Option.map_eq_some_iff.mp given
  exact ⟨Text.trim_trim _, of_decide_eq_true full⟩

def callParams (name : String) : Option Value := some (.object [("name", .string name)])

def taskParams (skill : String) : Fields :=
  [("id", .string "1"), ("metadata", .object [("skill", .string skill)])]

omit [Alphanumeric] in
theorem toolName_callParams (name : String) :
    McpInboundServer.toolName (callParams name) = Text.trim name := rfl

omit [Alphanumeric] in
theorem taskId_taskParams (skill : String) : A2aInboundServer.taskId (taskParams skill) ≠ "" := by
  have id : A2aInboundServer.taskId (taskParams skill) = Text.trim "1" := rfl
  rw [id]
  decide

omit [Alphanumeric] in
theorem findSkillHint_taskParams {skill : String} (trimmed : Text.trim skill = skill) (full : skill ≠ "") :
    A2aInboundServer.findSkillHint (taskParams skill) = some skill := by
  simp [A2aInboundServer.findSkillHint, A2aInboundServer.hintSources, taskParams, A2aInboundServer.skillKeys,
    textAt, member, Json.get, Value.asObject, Value.asStr, trimmed, full]

omit [Alphanumeric] in
theorem mem_exposed {e : Exposed} (member : e ∈ options.exposed) :
    ∃ b, options.backends[e.backend]? = some b ∧ b.descriptor = e.descriptor := by
  simp only [BridgeInboundOptions.exposed, List.mem_flatMap, Prod.exists] at member
  obtain ⟨b, backend, there, exposed⟩ := member
  split at exposed
  · obtain ⟨action, -, rfl⟩ := List.mem_map.mp exposed
    exact ⟨b, (List.mk_mem_zipIdx_iff_getElem?.mp there), rfl⟩
  · cases exposed

theorem label_of_target : ∀ e ∈ options.exposed, ∀ other ∈ options.exposed,
    naming.target e = naming.target other → naming.label e = naming.label other := by
  intro e member other member' same
  obtain ⟨b, at_, described⟩ := mem_exposed member
  obtain ⟨b', at', described'⟩ := mem_exposed member'
  obtain ⟨backend, action⟩ := Target.mk.inj same
  rw [backend] at at_
  cases at_.symm.trans at'
  have qualified : e.qualified = other.qualified := by
    simp only [Exposed.qualified, ← described, ← described', action]
  exact congrArg Text.lowerAscii qualified

variable (options)

omit [Alphanumeric] in
theorem textAt_document (key : String) (entries : Fields) :
    textAt key (document entries) = (Json.get key entries).bind Value.asStr :=
  congrArg (Option.bind · Value.asStr) (get_sortEntries key entries)

/-- The tools that are listed, and the skills of the agent card, are the exposed actions under their
qualified names. -/
theorem advertised (endpointUrl : String) :
    (McpInboundServer.listTools options).map (textAt "name") =
      options.exposed.map (fun e => some e.qualified) ∧
    ((member "skills" (A2aInboundServer.buildAgentCard options endpointUrl)).bind Value.asArray).map
      (List.map (textAt "id")) = some (options.exposed.map fun e => some e.qualified) := by
  have skills : member "skills" (A2aInboundServer.buildAgentCard options endpointUrl) =
      some (.array (options.exposed.map A2aInboundServer.skill)) := get_sortEntries ..
  constructor
  · refine List.map_map.trans (List.map_congr_left fun e _ => ?_)
    exact textAt_document ..
  · rw [skills]
    refine congrArg some (List.map_map.trans (List.map_congr_left fun e _ => ?_))
    exact textAt_document ..

/-- What is called by a name is what it stands for. -/
structure RoutesByName : Prop where
  tool : ∀ e ∈ options.exposed, ∀ id params, McpInboundServer.toolName params = e.qualified →
    Calls (McpInboundServer.toolsCall options id params) e.target ∨ ∃ candidates,
      McpInboundServer.toolsCall options id params = done (McpInboundServer.ambiguous id e.qualified candidates)
  skill : ∀ e ∈ options.exposed, ∀ now id params, A2aInboundServer.taskId params ≠ "" →
    A2aInboundServer.findSkillHint params = some e.qualified →
    Calls (A2aInboundServer.tasksSend options now id params) e.target ∨
      A2aInboundServer.tasksSend options now id params = done (A2aInboundServer.unidentified id)
  ambiguous : ∀ name e other, Identifies naming options.exposed (Text.lowerAscii name) e →
    Identifies naming options.exposed (Text.lowerAscii name) other → e.target ≠ other.target →
    (∀ id params target, McpInboundServer.toolName params = name →
      ¬ Calls (McpInboundServer.toolsCall options id params) target) ∧
    ∀ now id params target, A2aInboundServer.findSkillHint params = some name →
      ¬ Calls (A2aInboundServer.tasksSend options now id params) target
  agree : ∀ now id id' params params' target target',
    A2aInboundServer.findSkillHint params' = some (McpInboundServer.toolName params) →
    Calls (McpInboundServer.toolsCall options id params) target →
    Calls (A2aInboundServer.tasksSend options now id' params') target' → target = target'

variable {options}

omit [Alphanumeric] in
theorem Calls.unique {program : BackendProg BridgeJsonRpcResponse} {target target' : Target}
    (calls : Calls program target) (calls' : Calls program target') : target = target' := by
  obtain ⟨arguments, next, rfl⟩ := calls
  obtain ⟨arguments', next', same⟩ := calls'
  injection same with same
  injection same with backend action
  exact Target.ext backend action

omit [Alphanumeric] in
theorem Calls.not_done {program : BackendProg BridgeJsonRpcResponse} {target : Target}
    {response : BridgeJsonRpcResponse} (calls : Calls program target) : program ≠ done response := by
  obtain ⟨arguments, next, rfl⟩ := calls
  exact nofun

theorem calls_callParams {name : String} {found : Exposed} (trimmed : Text.trim name = name) (full : name ≠ "")
    (resolved : byLabelFirst naming options.exposed (Text.lowerAscii name) = .ok (some found)) :
    Calls (McpInboundServer.toolsCall options .null (callParams name)) found.target := by
  have said : McpInboundServer.toolName (callParams name) = name := (toolName_callParams name).trans trimmed
  refine toolsCall_calls.mpr ⟨by rwa [said], found, ?_, rfl⟩
  rw [said]
  exact resolveTool_some.mpr resolved

theorem calls_taskParams {skill : String} {found : Exposed} (trimmed : Text.trim skill = skill)
    (full : skill ≠ "")
    (resolved : firstNamed naming options.exposed (Text.lowerAscii skill) = some found) :
    Calls (A2aInboundServer.tasksSend options "" .null (taskParams skill)) found.target := by
  refine tasksSend_calls.mpr ⟨taskId_taskParams skill, found, ?_, rfl⟩
  rw [findSkillHint_taskParams trimmed full, resolveSkill_eq]
  exact resolved

theorem RoutesByName.sound (routes : RoutesByName options) : Sound naming options.exposed Sayable where
  label_first e member found resolved := by
    obtain ⟨trimmed, full⟩ := encode_trimmed e.descriptor.name e.action.actionId
    have trimmed : Text.trim e.qualified = e.qualified := trimmed
    have calls := calls_callParams trimmed full resolved
    rcases routes.tool e member .null _ ((toolName_callParams _).trans trimmed) with
      called | ⟨candidates, rejected⟩
    · exact calls.unique called
    · exact absurd rejected calls.not_done
  first_named e member found resolved := by
    obtain ⟨trimmed, full⟩ := encode_trimmed e.descriptor.name e.action.actionId
    have trimmed : Text.trim e.qualified = e.qualified := trimmed
    have calls := calls_taskParams trimmed full resolved
    rcases routes.skill e member "" .null _ (taskId_taskParams _) (findSkillHint_taskParams trimmed full) with
      called | rejected
    · exact calls.unique called
    · exact absurd rejected calls.not_done
  ambiguous := by
    rintro _ ⟨name, trimmed, full, rfl⟩ e other identified identified' different
    obtain ⟨tool, skill⟩ := routes.ambiguous name e other identified identified' different
    refine ⟨fun found resolved => ?_, ?_⟩
    · exact tool .null _ _ ((toolName_callParams name).trans trimmed) (calls_callParams trimmed full resolved)
    · cases resolved : firstNamed naming options.exposed (Text.lowerAscii name) with
      | none => rfl
      | some found =>
        exact absurd (calls_taskParams trimmed full resolved)
          (skill "" .null _ _ (findSkillHint_taskParams trimmed full))
  agree := by
    rintro _ ⟨name, trimmed, full, rfl⟩ found found' resolved resolved'
    have hint : A2aInboundServer.findSkillHint (taskParams name) =
        some (McpInboundServer.toolName (callParams name)) := by
      rw [findSkillHint_taskParams trimmed full, toolName_callParams, trimmed]
    exact routes.agree "" .null .null _ _ _ _ hint (calls_callParams trimmed full resolved)
      (calls_taskParams trimmed full resolved')

theorem RoutesByName.of_sound (sound : Sound naming options.exposed Sayable) : RoutesByName options where
  tool e member id params said := by
    obtain ⟨found, -, resolved, -⟩ := byLabelFirst_label naming member
    refine .inl (toolsCall_calls.mpr ⟨?_, found, ?_, sound.label_first e member found resolved⟩)
    · rw [said]
      exact (encode_trimmed _ _).2
    · rw [said]
      exact resolveTool_some.mpr resolved
  skill e member now id params task hint := by
    cases resolved : firstNamed naming options.exposed (naming.label e) with
    | none => exact absurd rfl (firstNamed_none.mp resolved e member).1
    | some found =>
      refine .inl (tasksSend_calls.mpr ⟨task, found, ?_, sound.first_named e member found resolved⟩)
      rw [hint, resolveSkill_eq]
      exact resolved
  ambiguous name e other identified identified' different := by
    refine ⟨fun id params target said calls => ?_, fun now id params target hint calls => ?_⟩
    · obtain ⟨full, found, resolved, -⟩ := toolsCall_calls.mp calls
      have trimmed := toolName_trimmed params
      rw [said] at full resolved trimmed
      exact (sound.ambiguous _ ⟨name, trimmed, full, rfl⟩ e other identified identified' different).1 found
        (resolveTool_some.mp resolved)
    · obtain ⟨-, found, resolved, -⟩ := tasksSend_calls.mp calls
      obtain ⟨trimmed, full⟩ := findSkillHint_trimmed hint
      rw [hint, resolveSkill_eq] at resolved
      have none_ :=
        (sound.ambiguous _ ⟨name, trimmed, full, rfl⟩ e other identified identified' different).2
      cases none_.symm.trans resolved
  agree now id id' params params' target target' hint calls calls' := by
    obtain ⟨full, found, resolved, rfl⟩ := toolsCall_calls.mp calls
    obtain ⟨-, found', resolved', rfl⟩ := tasksSend_calls.mp calls'
    rw [hint, resolveSkill_eq] at resolved'
    exact sound.agree _ ⟨_, toolName_trimmed params, full, rfl⟩ found found'
      (resolveTool_some.mp resolved) resolved'

variable (options)

/-- Requests are routed by name when no two actions are advertised alike, an action id that is the name of
another is listed after it, and an action id that another action has too is advertised as a name. -/
theorem routes_by_name : RoutesByName options ↔ Apart naming options.exposed Sayable := by
  rw [← sound_iff label_of_target]
  exact ⟨RoutesByName.sound, RoutesByName.of_sound⟩

end

namespace Collision

/-- Characters beyond ASCII are left out of the table. -/
scoped instance alphanumeric : Alphanumeric where
  isAlphanumeric := Char.isAlphanum
  ascii _ _ := rfl
  visible c white := by
    simp only [Text.isWhitespace, decide_eq_true_eq] at white
    refine Bool.eq_false_iff.mpr fun letter => ?_
    rcases Bool.or_eq_true_iff.mp letter with alpha | digit
    · rcases Text.isAlpha_iff.mp alpha with upper | lower
      · have range := Text.isUpper_iff.mp upper
        omega
      · have range := Text.isLower_iff.mp lower
        omega
    · have range := Text.isDigit_iff.mp digit
      omega

def fronting (backends : List NwpBackend) : BridgeInboundOptions where
  backends
  serverVersion := "1.0.0"

/-- One node whose two actions have the same tool name. -/
def encoded : BridgeInboundOptions :=
  fronting [⟨{ name := "n", role := .action }, [{ actionId := "a.b" }, { actionId := "a_b" }]⟩]

/-- Two nodes with an action of the same id. -/
def bare : BridgeInboundOptions :=
  fronting [⟨{ name := "left", role := .action }, [{ actionId := "ping" }]⟩,
    ⟨{ name := "right", role := .action }, [{ actionId := "ping" }]⟩]

end Collision

open Collision in
/-- The second action is advertised as the first, and the action of the left node is called for that of both. -/
theorem collisions : ¬ RoutesByName encoded ∧ ¬ RoutesByName bare := by
  refine ⟨fun routes => ?_, fun routes => ?_⟩
  · have apart := (sound_iff label_of_target).mp routes.sound
    have same := apart.labels ⟨0, { name := "n", role := .action }, { actionId := "a.b" }⟩ (.head _)
      ⟨0, { name := "n", role := .action }, { actionId := "a_b" }⟩ (.tail _ (.head _)) (by decide +kernel)
    revert same
    decide
  · have apart := (sound_iff label_of_target).mp routes.sound
    obtain ⟨labelled, member, same⟩ := apart.shared
      ⟨0, { name := "left", role := .action }, { actionId := "ping" }⟩ (.head _)
      ⟨"ping", by decide +kernel, by decide, rfl⟩
      ⟨1, { name := "right", role := .action }, { actionId := "ping" }⟩ (.tail _ (.head _)) (.inl rfl)
      (by decide)
    have labels : ∀ e ∈ bare.exposed, naming.label e ≠ "ping" := by
      simp only [bare, fronting]
      decide +kernel
    exact labels labelled member (same.trans (by decide +kernel))

end Nps.Nwp.BridgeInbound
