import NpsSdk.Lib.LastWins
import NpsSdk.Nop.DuplicateTask

/-! The order in which the results of the end nodes are put together is the order of a hash map.
It shows in the aggregated result unless the results fit together. -/
namespace Nps.Nop
open Json (Value Fields)
open Interaction Prog LastWins

/-- The name that a result without fields is given at its place. -/
def placeKey (i : Nat) : String := s!"_result_{i}"

def field? (key : String) (result : Value) : Option Value :=
  result.asObject.bind fun fields => Json.get key fields.reverse

/-- How many results have the name of a place among their keys. -/
def holders (i : Nat) (results : List Value) : Nat :=
  results.countP fun result => (field? (placeKey i) result).isSome

def AllEqual (results : List Value) : Prop := ∀ a ∈ results, ∀ b ∈ results, a = b

structure MergesAlike (results : List Value) : Prop where
  plain : (∀ result ∈ results, result.asObject = none) → AllEqual results
  agree : ∀ a ∈ results, ∀ b ∈ results, ∀ key v w, field? key a = some v → field? key b = some w →
    v = w
  /-- Beside an object, a result without fields is the one that objects have under the name of
  every place, or they are too many to come before that place. -/
  mixed : ∀ object ∈ results, ∀ other ∈ results, object.asObject ≠ none → other.asObject = none →
    ∀ i < results.length, 0 < holders i results ∧
      (holders i results ≤ i →
        ∀ result ∈ results, ∀ v, field? (placeKey i) result = some v → v = other)

/-- Only a merge can do with results that differ. -/
def OrderFree (strategy : String) (results : List Value) : Prop :=
  AllEqual results ∨ strategy ∉ ["first", "all", "fastest_k"] ∧ MergesAlike results

theorem placeKey_injective {i j : Nat} (same : placeKey i = placeKey j) : i = j := by
  have texts : ("_result_" ++ toString i).toList = ("_result_" ++ toString j).toList :=
    congrArg String.toList same
  rw [String.toList_append, String.toList_append] at texts
  have digits := List.append_cancel_left texts
  exact Json.toDigits_injective (by simpa using digits)

/-- What a result writes under a key at its place. -/
def contributes (key : String) (i : Nat) (result : Value) : Option Value :=
  match result with
  | .object fields => Json.get key fields.reverse
  | other => if key = placeKey i then some other else none

section Contributions
variable {key : String} {i : Nat} {result : Value} {results order : List Value} {v : Value}

theorem contributes_object (object : result.asObject ≠ none) :
    contributes key i result = field? key result := by
  cases result with
  | object fields => rfl
  | _ => exact absurd rfl object

theorem contributes_plain (plain : result.asObject = none) :
    contributes key i result = if key = placeKey i then some result else none := by
  cases result with
  | object fields => cases plain
  | _ => rfl

theorem field?_object (there : field? key result = some v) : result.asObject ≠ none := by
  intro none_
  rw [field?, none_] at there
  cases there

theorem mergeFrom_cons (merged : Fields) : mergeFrom i (result :: results) merged =
    mergeFrom (i + 1) results
      (Json.write (result.asObject.getD [(placeKey i, result)]) merged) := by
  cases result <;> rfl

theorem get_mergeFrom (merged : Fields) : Json.get key (mergeFrom i results merged) =
    (last (contributes key) i results).or (Json.get key merged) := by
  induction results generalizing i merged with
  | nil => rfl
  | cons result rest ih =>
    rw [mergeFrom_cons, ih, last, Option.or_assoc, Json.get_write]
    congr 2
    cases result with
    | object fields => rfl
    | _ => simp only [contributes, Value.asObject, Option.getD_none, List.reverse_singleton,
        Json.get]

theorem mergeFrom_ascending {merged : Fields} (ascending : Json.Ascending merged) :
    Json.Ascending (mergeFrom i results merged) := by
  induction results generalizing i merged with
  | nil => exact ascending
  | cons result rest ih =>
    rw [mergeFrom_cons]
    exact ih ascending.write

theorem merge_eq_iff : mergeFrom 0 order [] = mergeFrom 0 results [] ↔
    ∀ key, last (contributes key) 0 order = last (contributes key) 0 results := by
  have get_merge (key : String) (results : List Value) :
      Json.get key (mergeFrom 0 results []) = last (contributes key) 0 results := by
    rw [get_mergeFrom]
    exact Option.or_none
  constructor
  · intro same key
    rw [← get_merge, same, get_merge]
  · intro same
    refine Json.Ascending.ext (mergeFrom_ascending List.Pairwise.nil)
      (mergeFrom_ascending List.Pairwise.nil) fun key => ?_
    rw [get_merge, get_merge, same]

end Contributions

theorem AllEqual.perm_eq {results order : List Value} (all : AllEqual results)
    (perm : order.Perm results) : order = results := by
  have loose (values : List Value) : values.Pairwise fun _ _ => True :=
    List.pairwise_of_forall fun _ _ => trivial
  refine perm.eq_of_pairwise (fun a b here there _ _ => ?_) (loose order) (loose results)
  exact all a (perm.mem_iff.mp here) b there

section Alike
variable {key : String} {results order : List Value} {v : Value}

theorem MergesAlike.perm (alike : MergesAlike results) (perm : order.Perm results) :
    MergesAlike order := by
  have counted (i : Nat) : holders i order = holders i results := perm.countP_eq _
  constructor
  · intro none_ a here b there
    exact alike.plain (fun result member => none_ result (perm.mem_iff.mpr member)) a
      (perm.mem_iff.mp here) b (perm.mem_iff.mp there)
  · intro a here b there
    exact alike.agree a (perm.mem_iff.mp here) b (perm.mem_iff.mp there)
  · intro object here other there fields plain i place
    rw [perm.length_eq] at place
    obtain ⟨held, few⟩ := alike.mixed object (perm.mem_iff.mp here) other (perm.mem_iff.mp there)
      fields plain i place
    rw [counted]
    exact ⟨held, fun le result member => few le result (perm.mem_iff.mp member)⟩

theorem holders_le {i : Nat}
    (none_ : ∀ k result, i ≤ k → results[k]? = some result → field? (placeKey i) result = none) :
    holders i results ≤ i := by
  have behind : (results.drop i).countP (fun result => (field? (placeKey i) result).isSome) = 0 := by
    refine List.countP_eq_zero.mpr fun result member => ?_
    obtain ⟨j, found⟩ := List.getElem?_of_mem member
    rw [List.getElem?_drop] at found
    rw [none_ (i + j) result (Nat.le_add_right i j) found]
    exact Bool.false_ne_true
  unfold holders
  rw [← List.take_append_drop i results, List.countP_append, behind]
  have front : (results.take i).length ≤ i := List.length_take_le i results
  exact (Nat.add_zero _).le.trans (List.countP_le_length.trans front)

/-- Results that fit together have merged under a key what one of the objects has there. -/
theorem MergesAlike.last_iff (alike : MergesAlike results) {object : Value}
    (here : object ∈ results) (fields : object.asObject ≠ none) :
    last (contributes key) 0 results = some v ↔ ∃ result ∈ results, field? key result = some v := by
  have given {v : Value} (found : last (contributes key) 0 results = some v) :
      ∃ result ∈ results, field? key result = some v := by
    obtain ⟨j, result, at_, given, later⟩ := last_eq_some.mp found
    have member := List.mem_of_getElem? at_
    cases plain : result.asObject with
    | some own =>
      rw [contributes_object (by rw [plain]; exact Option.some_ne_none own)] at given
      exact ⟨result, member, given⟩
    | none =>
      rw [contributes_plain plain, Nat.zero_add] at given
      split at given
      · rename_i named
        subst named
        obtain rfl : result = v := Option.some.inj given
        obtain ⟨held, few⟩ := alike.mixed object here result member fields plain j
          (List.getElem?_eq_some_iff.mp at_).1
        -- No later result has the name, so those that have it came before.
        have before : holders j results ≤ j := by
          refine holders_le fun k other behind there => ?_
          rcases Nat.eq_or_lt_of_le behind with rfl | after
          · cases at_.symm.trans there
            rw [field?, plain]
            rfl
          · have nothing := later k other after there
            cases own : other.asObject with
            | none =>
              rw [field?, own]
              rfl
            | some fields' =>
              rwa [contributes_object (by rw [own]; exact Option.some_ne_none fields')] at nothing
        obtain ⟨holder, inside, has⟩ := List.countP_pos_iff.mp held
        obtain ⟨w, there⟩ := Option.isSome_iff_exists.mp has
        exact ⟨holder, inside, few before holder inside w there ▸ there⟩
      · cases given
  constructor
  · exact given
  · rintro ⟨result, member, there⟩
    cases found : last (contributes key) 0 results with
    | none =>
      obtain ⟨j, at_⟩ := List.getElem?_of_mem member
      have nothing := last_eq_none.mp found j result at_
      rw [contributes_object (field?_object there), there] at nothing
      cases nothing
    | some w =>
      obtain ⟨other, inside, has⟩ := given found
      rw [alike.agree other inside result member key w v has there]

theorem MergesAlike.merge_eq (alike : MergesAlike results) (perm : order.Perm results) :
    mergeFrom 0 order [] = mergeFrom 0 results [] := by
  by_cases plain : ∀ result ∈ results, result.asObject = none
  · rw [(alike.plain plain).perm_eq perm]
  · push Not at plain
    obtain ⟨object, here, fields⟩ := plain
    refine merge_eq_iff.mpr fun key => Option.ext fun v => ?_
    rw [alike.last_iff here fields, (alike.perm perm).last_iff (perm.mem_iff.mpr here) fields]
    constructor
    · rintro ⟨result, member, there⟩
      exact ⟨result, perm.mem_iff.mp member, there⟩
    · rintro ⟨result, member, there⟩
      exact ⟨result, perm.mem_iff.mpr member, there⟩

theorem last_object {result : Value} (member : result ∈ results) (there : field? key result = some v) :
    ∃ order : List Value, order.Perm results ∧ last (contributes key) 0 order = some v := by
  have some_ := List.length_pos_of_mem member
  obtain ⟨order, perm, at_, -⟩ := List.exists_perm_at (p := results.length - 1) (fun _ => false)
    member rfl (by simp) (by omega)
  refine ⟨order, perm, last_eq_some.mpr ⟨_, result, at_, ?_, fun k other after found => ?_⟩⟩
  · rw [contributes_object (field?_object there), there]
  · have bound := (List.getElem?_eq_some_iff.mp found).1
    rw [perm.length_eq] at bound
    omega

section Orders
variable (same : ∀ order : List Value, order.Perm results →
  mergeFrom 0 order [] = mergeFrom 0 results [])
include same

theorem last_same {order' : List Value} (perm : order.Perm results) (perm' : order'.Perm results) :
    last (contributes key) 0 order = last (contributes key) 0 order' :=
  merge_eq_iff.mp ((same order perm).trans (same order' perm').symm) key

theorem plain_of_same (plain : ∀ result ∈ results, result.asObject = none) : AllEqual results := by
  have first {a : Value} (member : a ∈ results) : ∃ order : List Value, order.Perm results ∧
      last (contributes (placeKey 0)) 0 order = some a := by
    obtain ⟨order, perm, at_, -⟩ := List.exists_perm_at (fun _ => false) member rfl
      (by simp) (List.length_pos_of_mem member)
    refine ⟨order, perm, last_eq_some.mpr ⟨0, a, at_, ?_, fun k other after there => ?_⟩⟩
    · rw [contributes_plain (plain a member), if_pos rfl]
    · have inside := perm.mem_iff.mp (List.mem_of_getElem? there)
      rw [contributes_plain (plain other inside), if_neg]
      intro named
      have zero := placeKey_injective named
      omega
  intro a here b there
  obtain ⟨order, perm, found⟩ := first here
  obtain ⟨order', perm', found'⟩ := first there
  rw [last_same same perm perm', found'] at found
  exact (Option.some.inj found).symm

theorem MergesAlike.of_same : MergesAlike results := by
  refine ⟨plain_of_same same, ?_, ?_⟩
  · intro a here b there key v w has has'
    obtain ⟨order, perm, found⟩ := last_object here has
    obtain ⟨order', perm', found'⟩ := last_object there has'
    rw [last_same same perm perm', found'] at found
    exact (Option.some.inj found).symm
  · intro object here other there fields plain i place
    have blank : field? (placeKey i) other = none := by
      rw [field?, plain]
      rfl
    -- Behind the place of its name, a result without fields writes other names only.
    have apart {k : Nat} {result : Value} (different : k ≠ i)
        (none_ : field? (placeKey i) result = none) : contributes (placeKey i) k result = none := by
      cases own : result.asObject with
      | none =>
        rw [contributes_plain own, if_neg]
        intro named
        exact different (placeKey_injective named).symm
      | some fields' => rwa [contributes_object (by rw [own]; exact Option.some_ne_none fields')]
    have wins (few : holders i results ≤ i) : ∃ order : List Value, order.Perm results ∧
        last (contributes (placeKey i)) 0 order = some other := by
      obtain ⟨order, perm, at_, behind⟩ := List.exists_perm_at
        (fun result => (field? (placeKey i) result).isSome) there (by rw [blank]; rfl) few place
      refine ⟨order, perm, last_eq_some.mpr ⟨i, other, at_, ?_, fun k result after found => ?_⟩⟩
      · rw [contributes_plain plain, Nat.zero_add, if_pos rfl]
      · rw [Nat.zero_add]
        exact apart (Nat.ne_of_gt after) (Option.not_isSome_iff_eq_none.mp (by simp [behind k result after found]))
    constructor
    · by_contra unheld
      have nobody : ∀ result ∈ results, field? (placeKey i) result = none := by
        intro result member
        have zero : holders i results = 0 := Nat.eq_zero_of_not_pos unheld
        exact Option.not_isSome_iff_eq_none.mp (List.countP_eq_zero.mp zero result member)
      obtain ⟨order, perm, found⟩ := wins (by omega)
      obtain ⟨order', perm', at_, -⟩ := List.exists_perm_at (fun _ => false) here rfl (by simp) place
      rw [last_same same perm perm'] at found
      obtain ⟨j, result, at', given, -⟩ := last_eq_some.mp found
      rw [Nat.zero_add] at given
      have inside := perm'.mem_iff.mp (List.mem_of_getElem? at')
      by_cases placed : j = i
      · subst placed
        cases at_.symm.trans at'
        rw [contributes_object fields, nobody object here] at given
        cases given
      · rw [apart placed (nobody result inside)] at given
        cases given
    · intro few result member v has
      obtain ⟨order, perm, found⟩ := wins few
      obtain ⟨order', perm', found'⟩ := last_object member has
      rw [last_same same perm perm', found'] at found
      exact Option.some.inj found

end Orders

theorem aggregate_merges {strategy : String} (listed : strategy ∉ ["first", "all", "fastest_k"]) :
    aggregate strategy results 0 = .object (mergeFrom 0 results []) := by
  simp only [List.mem_cons, List.not_mem_nil, or_false, not_or] at listed
  obtain ⟨first, all, fastest⟩ := listed
  cases results with
  | nil => rfl
  | cons result rest => simp only [aggregate, first, all, fastest, if_false]

/-- All orders of the results come to the same exactly if the results are all equal, or are merged
and fit together. -/
theorem aggregate_iff (strategy : String) (results : List Value) :
    (∀ order : List Value, order.Perm results →
      aggregate strategy order 0 = aggregate strategy results 0) ↔ OrderFree strategy results := by
  constructor
  · intro same
    by_cases listed : strategy ∈ ["first", "all", "fastest_k"]
    · left
      have first {a : Value} (member : a ∈ results) : ∃ rest, (a :: rest).Perm results := by
        obtain ⟨front, back, rfl⟩ := List.append_of_mem member
        exact ⟨front ++ back, List.perm_middle.symm⟩
      intro a here b there
      obtain ⟨rest, perm⟩ := first here
      obtain ⟨rest', perm'⟩ := first there
      have equal := (same _ perm).trans (same _ perm').symm
      simp only [List.mem_cons, List.not_mem_nil, or_false] at listed
      rcases listed with rfl | rfl | rfl
      · exact equal
      · simp only [aggregate] at equal
        exact (by simpa using equal : a = b ∧ rest = rest').1
      · simp only [aggregate] at equal
        exact (by simpa using equal : a = b ∧ rest = rest').1
    · right
      refine ⟨listed, MergesAlike.of_same fun order perm => ?_⟩
      have equal := same order perm
      rw [aggregate_merges listed, aggregate_merges listed] at equal
      exact Value.object.inj equal
  · rintro (all | ⟨listed, alike⟩) order perm
    · rw [all.perm_eq perm]
    · rw [aggregate_merges listed, aggregate_merges listed, alike.merge_eq perm]

end Alike

/-- The results of the end nodes that have one. -/
def TaskDag.endResults (dag : TaskDag) (nodeResults : Fields) : List Value :=
  dag.endNodes.filterMap (Json.get · nodeResults)

section Runs
variable [CharClasses] {opts : NopOrchestratorOptions} {task : TaskFrame}
  {topoOrder endNodeIds order : List String} {s t : InMemoryNopTaskStore} {result : NopTaskResult}
  {last : LoopEnd}

variable (opts task topoOrder) in
def AggregatesAlike (nodeResults : Fields) : Prop :=
  ∀ {s t s' t' : InMemoryNopTaskStore} {result result' : NopTaskResult},
    Runs exec (runDag opts task topoOrder) s result t →
    Runs exec (runDag opts task topoOrder) s' result' t' →
    result.finalState = .completed → result'.finalState = .completed →
    result.nodeResults = nodeResults → result'.nodeResults = nodeResults →
    result.aggregatedResult = result'.aggregatedResult

theorem dagLoop_order (perm : order.Perm endNodeIds) (fuel : Nat) (loop : Loop) :
    dagLoop opts task order fuel loop = dagLoop opts task endNodeIds fuel loop := by
  have abort : mustAbort task order = mustAbort task endNodeIds := by
    funext failedNodeId states
    exact perm.any_eq
  have turn : round opts task order = round opts task endNodeIds := by
    funext loop
    simp only [round, abort]
  induction fuel generalizing loop with
  | zero => rfl
  | succ fuel ih => simp only [dagLoop, turn, ih]

variable (opts) in
def NopTaskResult.reordered (result : NopTaskResult) (order : List String) : NopTaskResult :=
  { result with
    aggregatedResult :=
      some (aggregateEndNodes order result.nodeResults opts.defaultAggregateStrategy) }

omit [CharClasses] in
/-- A completed task has its end nodes' results put together in the order it was given, and any
other order could have been given. -/
theorem conclude_order (perm : order.Perm endNodeIds)
    (runs : Runs exec (conclude opts task topoOrder endNodeIds last) s result t)
    (completed : result.finalState = .completed) :
    result = result.reordered opts endNodeIds ∧
      Runs exec (conclude opts task topoOrder order last) s (result.reordered opts order) t := by
  cases last with
  | aborted loop failedNodeId outcome =>
    obtain ⟨compensation, u, -, runs⟩ := runs_bind.mp runs
    obtain ⟨rfl, rfl⟩ := runs_done.mp runs
    cases completed
  | ended loop =>
    unfold conclude at runs ⊢
    dsimp only at runs ⊢
    rw [perm.any_eq]
    split_ifs at runs ⊢ with failed
    · obtain ⟨compensation, u, -, runs⟩ := runs_bind.mp runs
      obtain ⟨rfl, rfl⟩ := runs_done.mp runs
      cases completed
    · obtain ⟨compensation, u, compensated, runs⟩ := runs_bind.mp runs
      obtain ⟨rfl, rfl⟩ := runs_done.mp runs
      exact ⟨rfl, runs_bind.mpr ⟨compensation, _, compensated, runs_done.mpr ⟨rfl, rfl⟩⟩⟩

theorem runDag_order (runs : Runs exec (runDag opts task topoOrder) s result t)
    (completed : result.finalState = .completed) :
    ∃ endNodeIds, endNodeIds.Perm task.dag.endNodes ∧ result = result.reordered opts endNodeIds ∧
      ∀ order, order.Perm task.dag.endNodes →
        Runs exec (runDag opts task topoOrder) s (result.reordered opts order) t := by
  obtain ⟨endNodeIds, u, listed, rest⟩ := runs_bind.mp runs
  obtain ⟨answer, _, ⟨perm, rfl⟩, same⟩ := runs_call.mp listed
  obtain ⟨rfl, rfl⟩ := runs_done.mp same
  obtain ⟨last, v, looped, concluded⟩ := runs_bind.mp rest
  refine ⟨_, perm, (conclude_order (.refl _) concluded completed).1, fun order perm' => ?_⟩
  have same := perm'.trans perm.symm
  refine runs_bind.mpr ⟨order, _, runs_call.mpr ⟨order, _, ⟨perm', rfl⟩, runs_done.mpr ⟨rfl, rfl⟩⟩,
    runs_bind.mpr ⟨last, v, ?_, ?_⟩⟩
  · rwa [dagLoop_order same]
  · exact (conclude_order same concluded completed).2

/-- The aggregated result does not depend on the order of the hash map exactly if the results of
the end nodes are all equal, or are merged and fit together. -/
theorem aggregates_alike_iff (runs : Runs exec (runDag opts task topoOrder) s result t)
    (completed : result.finalState = .completed) :
    AggregatesAlike opts task topoOrder result.nodeResults ↔
      OrderFree opts.defaultAggregateStrategy (task.dag.endResults result.nodeResults) := by
  rw [← aggregate_iff]
  obtain ⟨endNodeIds, perm, -, reruns⟩ := runDag_order runs completed
  constructor
  · intro alike values order
    obtain ⟨ids, permIds, rfl⟩ := List.exists_perm_filterMap order
    exact Option.some.inj (alike (reruns ids permIds) (reruns _ (.refl _)) completed completed rfl rfl)
  · intro same s t s' t' first second runs₁ runs₂ completed₁ completed₂ results₁ results₂
    obtain ⟨ids₁, perm₁, whole₁, -⟩ := runDag_order runs₁ completed₁
    obtain ⟨ids₂, perm₂, whole₂, -⟩ := runDag_order runs₂ completed₂
    rw [whole₁, whole₂]
    change some (aggregateEndNodes _ _ _) = some (aggregateEndNodes _ _ _)
    rw [results₁, results₂]
    exact congrArg some ((same _ (perm₁.filterMap _)).trans (same _ (perm₂.filterMap _)).symm)

end Runs

namespace TwoEnds
open scoped Chain

def task : TaskFrame where
  taskId := "two"
  dag := { nodes := [Chain.node "a" none, Chain.node "b" none] }

def answer (frame : DelegateFrame) : AlignStreamFrame where
  seq := 0
  isFinal := true
  senderNid := frame.targetAgentNid
  data := some (.string frame.nodeId)

/-- The map is visited in its order or backwards. -/
def handler (backwards : Bool) (op : Op) (tasks : InMemoryNopTaskStore) :
    Answer op × InMemoryNopTaskStore :=
  match op with
  | .delegate frame => (⟨[answer frame], false⟩, tasks)
  | .iterate keys => (if backwards then keys.reverse else keys, tasks)
  | op => Twice.handler op tasks

theorem handler_faithful (backwards : Bool) (op : Op) (tasks : InMemoryNopTaskStore) :
    exec op tasks (handler backwards op tasks).1 (handler backwards op tasks).2 := by
  cases op with
  | delegate frame => rfl
  | iterate keys =>
    refine ⟨?_, rfl⟩
    change (if backwards then keys.reverse else keys).Perm keys
    split
    · exact List.reverse_perm keys
    · exact .refl _
  | get taskId => exact ⟨rfl, rfl⟩
  | _ => rfl

def outcome (backwards : Bool) : NopTaskResult × InMemoryNopTaskStore :=
  (runDag Chain.opts task ["a", "b"]).runWith (handler backwards) ∅

theorem runs (backwards : Bool) : Runs exec (runDag Chain.opts task ["a", "b"]) ∅
    (outcome backwards).1 (outcome backwards).2 :=
  runs_runWith (handler_faithful backwards) _ _

def results : Fields := [("a", .string "a"), ("b", .string "b")]

theorem forwards_spec : (outcome false).1 =
    .success "two" (some (.object [("_result_0", .string "a"), ("_result_1", .string "b")])) results
      none := rfl

theorem backwards_spec : (outcome true).1 =
    .success "two" (some (.object [("_result_0", .string "b"), ("_result_1", .string "a")])) results
      none := rfl

theorem completed (backwards : Bool) : (outcome backwards).1.finalState = .completed ∧
    (outcome backwards).1.nodeResults = results := by
  cases backwards with
  | false => exact ⟨congrArg _ forwards_spec, congrArg NopTaskResult.nodeResults forwards_spec⟩
  | true => exact ⟨congrArg _ backwards_spec, congrArg NopTaskResult.nodeResults backwards_spec⟩

/-- The results of two nodes are numbered as the hash map has it. -/
theorem aggregate_scheduled : ¬ ∀ (opts : NopOrchestratorOptions) (task : TaskFrame)
    (topoOrder : List String) (nodeResults : Fields), validateDag task.dag = .ok topoOrder →
    AggregatesAlike opts task topoOrder nodeResults := by
  intro claimed
  have same := claimed Chain.opts task ["a", "b"] results rfl (runs false) (runs true)
    (completed false).1 (completed true).1 (completed false).2 (completed true).2
  rw [forwards_spec, backwards_spec] at same
  simp [NopTaskResult.success] at same

end TwoEnds

open scoped Chain in
theorem aggregates_alike_two : AggregatesAlike Chain.opts TwoEnds.task ["a", "b"] TwoEnds.results ↔
    OrderFree "merge" [.string "a", .string "b"] := by
  have iff := aggregates_alike_iff (TwoEnds.runs false) (TwoEnds.completed false).1
  rwa [(TwoEnds.completed false).2] at iff
end Nps.Nop
