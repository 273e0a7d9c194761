import NpsSdk.Lib.Futures

/-! What programs perform: their operations with the answers to them, in order. -/
namespace Interaction
open Prog
variable {Op : Type} {Answer : Op → Type} {σ α β κ : Type}

/-- A complete run of one program, with all that it performs. -/
inductive Traces (exec : (op : Op) → σ → Answer op → σ → Prop) :
    Prog Answer α → σ → List (Sigma Answer) → α → σ → Prop where
  | done (result : α) (s : σ) : Traces exec (done result) s [] result s
  | call {op : Op} {next : Answer op → Prog Answer α} {s t u : σ} {answer : Answer op}
      {trace : List (Sigma Answer)} {result : α} :
      exec op s answer t → Traces exec (next answer) t trace result u →
      Traces exec (call op next) s (⟨op, answer⟩ :: trace) result u

section Traces
variable {exec : (op : Op) → σ → Answer op → σ → Prop} {trace : List (Sigma Answer)}

@[simp] theorem traces_done {result a : α} {s t : σ} :
    Traces exec (done result) s trace a t ↔ trace = [] ∧ a = result ∧ t = s := by
  constructor
  · rintro ⟨⟩
    exact ⟨rfl, rfl, rfl⟩
  · rintro ⟨rfl, rfl, rfl⟩
    exact .done _ _

@[simp] theorem traces_call {op : Op} {next : Answer op → Prog Answer α} {s u : σ} {a : α} :
    Traces exec (call op next) s trace a u ↔ ∃ answer t rest, trace = ⟨op, answer⟩ :: rest ∧
      exec op s answer t ∧ Traces exec (next answer) t rest a u := by
  constructor
  · rintro (_ | ⟨step, rest⟩)
    exact ⟨_, _, _, rfl, step, rest⟩
  · rintro ⟨answer, t, rest, rfl, step, later⟩
    exact .call step later

theorem traces_ask {op : Op} {f : Answer op → Prog Answer α} {s u : σ} {a : α} :
    Traces exec (perform op >>= f) s trace a u ↔ ∃ answer t rest, trace = ⟨op, answer⟩ :: rest ∧
      exec op s answer t ∧ Traces exec (f answer) t rest a u := traces_call

theorem traces_bind {p : Prog Answer α} {f : α → Prog Answer β} {s u : σ} {b : β} :
    Traces exec (p >>= f) s trace b u ↔ ∃ a t first second, trace = first ++ second ∧
      Traces exec p s first a t ∧ Traces exec (f a) t second b u := by
  induction p generalizing s trace with
  | done result =>
    constructor
    · intro traces
      exact ⟨result, s, [], trace, rfl, .done _ _, traces⟩
    · rintro ⟨a, t, first, second, rfl, begun, traces⟩
      obtain ⟨rfl, rfl, rfl⟩ := traces_done.mp begun
      exact traces
  | call op next ih =>
    simp only [call_bind, traces_call, ih]
    constructor
    · rintro ⟨answer, t, rest, rfl, step, a, v, first, second, rfl, begun, ended⟩
      exact ⟨a, v, ⟨op, answer⟩ :: first, second, rfl, ⟨answer, t, first, rfl, step, begun⟩, ended⟩
    · rintro ⟨a, v, first, second, rfl, ⟨answer, t, rest, rfl, step, begun⟩, ended⟩
      exact ⟨answer, t, rest ++ second, rfl, step, a, v, rest, second, rfl, begun, ended⟩

/-- A run with all that it performs is a run, and every run performs something. -/
theorem runs_iff_traces {p : Prog Answer α} {s t : σ} {a : α} :
    Runs exec p s a t ↔ ∃ trace, Traces exec p s trace a t := by
  constructor
  · intro runs
    induction runs with
    | done result s => exact ⟨[], .done result s⟩
    | call step rest ih =>
      obtain ⟨trace, traces⟩ := ih
      exact ⟨_, .call step traces⟩
  · rintro ⟨trace, traces⟩
    induction traces with
    | done result s => exact .done result s
    | call step rest ih => exact .call step ih

/-- Surroundings that always answer let a program come to its end. -/
theorem traces_exist (answers : ∀ op s, ∃ answer t, exec op s answer t) (p : Prog Answer α) (s : σ) :
    ∃ trace a t, Traces exec p s trace a t := by
  induction p generalizing s with
  | done result => exact ⟨[], result, s, .done result s⟩
  | call op next ih =>
    obtain ⟨answer, t, step⟩ := answers op s
    obtain ⟨trace, a, u, rest⟩ := ih answer t
    exact ⟨_, a, u, .call step rest⟩

/-- What a program performs against surroundings that compute their answers. -/
def Prog.performed (handler : (op : Op) → σ → Answer op × σ) : Prog Answer α → σ → List (Sigma Answer)
  | done _, _ => []
  | call op next, s =>
    ⟨op, (handler op s).1⟩ :: performed handler (next (handler op s).1) (handler op s).2

theorem traces_runWith {handler : (op : Op) → σ → Answer op × σ}
    (faithful : ∀ op s, exec op s (handler op s).1 (handler op s).2) (p : Prog Answer α) (s : σ) :
    Traces exec p s (p.performed handler s) (p.runWith handler s).1 (p.runWith handler s).2 := by
  induction p generalizing s with
  | done result => exact .done result s
  | call op next ih => exact .call (faithful op s) (ih _ _)

end Traces

def Performs (p : Prog Answer α) (trace : List (Sigma Answer)) (result : α) : Prop :=
  Traces (σ := Unit) (fun _ _ _ _ => True) p () trace result ()

section Performs
variable {trace : List (Sigma Answer)} {a : α} {p : Prog Answer α}

@[simp] theorem performs_done {result : α} :
    Performs (done result : Prog Answer α) trace a ↔ trace = [] ∧ a = result := by
  simp [Performs]

theorem performs_done_pair {x a : α} {y b : β} :
    Performs (done (x, y) : Prog Answer (α × β)) trace (a, b) ↔ trace = [] ∧ a = x ∧ b = y := by
  rw [performs_done, Prod.mk.injEq]

@[simp] theorem performs_call {op : Op} {next : Answer op → Prog Answer α} :
    Performs (call op next) trace a ↔
      ∃ answer rest, trace = ⟨op, answer⟩ :: rest ∧ Performs (next answer) rest a := by
  simp only [Performs, traces_call, true_and]
  constructor
  · rintro ⟨answer, ⟨⟩, rest, same, later⟩
    exact ⟨answer, rest, same, later⟩
  · rintro ⟨answer, rest, same, later⟩
    exact ⟨answer, (), rest, same, later⟩

theorem performs_ask {op : Op} {f : Answer op → Prog Answer α} : Performs (perform op >>= f) trace a ↔
    ∃ answer rest, trace = ⟨op, answer⟩ :: rest ∧ Performs (f answer) rest a := performs_call

theorem performs_bind {f : α → Prog Answer β} {b : β} : Performs (p >>= f) trace b ↔
    ∃ a first second, trace = first ++ second ∧ Performs p first a ∧ Performs (f a) second b := by
  simp only [Performs, traces_bind]
  constructor
  · rintro ⟨a, ⟨⟩, first, second, same, begun, ended⟩
    exact ⟨a, first, second, same, begun, ended⟩
  · rintro ⟨a, first, second, same, begun, ended⟩
    exact ⟨a, (), first, second, same, begun, ended⟩

theorem performs_map {f : α → β} {b : β} :
    Performs (p.map f) trace b ↔ ∃ a, Performs p trace a ∧ b = f a := by
  induction p generalizing trace with
  | done result => simp [Prog.map]
  | call op next ih =>
    simp only [Prog.map, performs_call, ih]
    constructor
    · rintro ⟨answer, rest, rfl, a, later, rfl⟩
      exact ⟨a, ⟨answer, rest, rfl, later⟩, rfl⟩
    · rintro ⟨a, ⟨answer, rest, rfl, later⟩, rfl⟩
      exact ⟨answer, rest, rfl, a, later, rfl⟩

theorem Traces.performs {exec : (op : Op) → σ → Answer op → σ → Prop} {s t : σ}
    (traces : Traces exec p s trace a t) : Performs p trace a := by
  induction traces with
  | done result s => exact performs_done.mpr ⟨rfl, rfl⟩
  | call step rest ih => exact performs_call.mpr ⟨_, _, rfl, ih⟩

theorem Performs.returns (performs : Performs p trace a) : Returns p a := by
  induction p generalizing trace with
  | done result => exact returns_done.mpr (performs_done.mp performs).2
  | call op next ih =>
    obtain ⟨answer, rest, -, later⟩ := performs_call.mp performs
    exact returns_call.mpr ⟨answer, ih answer later⟩

theorem Only.performed {allowed : Op → Prop} (only : Only allowed p) (performs : Performs p trace a) :
    ∀ entry ∈ trace, allowed entry.1 := by
  induction p generalizing trace with
  | done result =>
    rw [(performs_done.mp performs).1]
    intro entry member
    cases member
  | call op next ih =>
    obtain ⟨answer, rest, rfl, later⟩ := performs_call.mp performs
    rw [List.forall_mem_cons]
    exact ⟨only.1, ih answer (only.2 answer) later⟩

end Performs

inductive Leaves (p : Prog Answer α) : List (Sigma Answer) → Prog Answer α → Prop where
  | start : Leaves p [] p
  | act {trace : List (Sigma Answer)} {op : Op} {next : Answer op → Prog Answer α} :
      Leaves p trace (call op next) → (answer : Answer op) → Leaves p (trace ++ [⟨op, answer⟩]) (next answer)

theorem Leaves.performs {p q : Prog Answer α} {trace more : List (Sigma Answer)} {a : α}
    (leaves : Leaves p trace q) (performs : Performs q more a) : Performs p (trace ++ more) a := by
  induction leaves generalizing more with
  | start => exact performs
  | act _ answer ih =>
    have whole := ih (performs_call.mpr ⟨answer, more, rfl, performs⟩)
    rwa [List.append_assoc]

section Threads
variable {Call : Type} {system : System Answer σ Call α}

/-- What one thread performs in an event. -/
def Event.acted (thread : Nat) : Event Answer Call → Option (Sigma Answer)
  | .start _ => none
  | .act i op answer => if i = thread then some ⟨op, answer⟩ else none

def actsOf (thread : Nat) (events : List (Event Answer Call)) : List (Sigma Answer) :=
  events.filterMap (Event.acted thread)

theorem mem_actsOf {thread : Nat} {events : List (Event Answer Call)} {op : Op} {answer : Answer op} :
    ⟨op, answer⟩ ∈ actsOf thread events ↔ .act thread op answer ∈ events := by
  unfold actsOf
  rw [List.mem_filterMap]
  constructor
  · rintro ⟨event, member, same⟩
    cases event with
    | start call => cases same
    | act i op' answer' =>
      simp only [Event.acted, Option.ite_none_right_eq_some, Option.some.injEq] at same
      obtain ⟨rfl, ⟨⟩⟩ := same
      exact member
  · intro member
    exact ⟨_, member, by simp [Event.acted]⟩

/-- Every thread has performed what its program performs, up to what is left of it. -/
structure Attributed (system : System Answer σ Call α) (pool : Pool Answer σ Call α)
    (events : List (Event Answer Call)) : Prop where
  leaves : ∀ (i : Nat) caller p, pool.threads[i]? = some (caller, p) →
    Leaves (system.program caller) (actsOf i events) p
  unborn : ∀ i, pool.threads.length ≤ i → actsOf i events = []

theorem Attributed.step {pool after : Pool Answer σ Call α} {events : List (Event Answer Call)}
    {event : Event Answer Call} (attributed : Attributed system pool events)
    (step : system.Step pool event after) : Attributed system after (events ++ [event]) := by
  have appended : ∀ i, actsOf i (events ++ [event]) = actsOf i events ++ (event.acted i).toList := by
    intro i
    unfold actsOf
    rw [List.filterMap_append]
    cases same : event.acted i <;> simp [same]
  cases step with
  | start call =>
    simp only [Event.acted, Option.toList_none, List.append_nil] at appended
    constructor
    · intro i caller p found
      rw [appended]
      rcases getElem?_concat found with old | ⟨rfl, same⟩
      · exact attributed.leaves i caller p old
      · cases same
        rw [attributed.unborn _ (Nat.le_refl _)]
        exact .start
    · intro i late
      rw [List.length_append, List.length_singleton] at late
      rw [appended]
      exact attributed.unborn i (by omega)
  | @act thread caller op next answer shared found exec =>
    have bound : thread < pool.threads.length := (List.getElem?_eq_some_iff.mp found).1
    have others : ∀ i ≠ thread, actsOf i (events ++ [.act thread op answer]) = actsOf i events := by
      intro i different
      simp [appended, Event.acted, Ne.symm different]
    constructor
    · intro i other p there
      rcases getElem?_set_append there with ⟨different, old⟩ | ⟨rfl, same⟩ | ⟨late, -, new⟩
      · rw [others i different]
        exact attributed.leaves i other p old
      · cases same
        have acted : actsOf i (events ++ [.act i op answer]) = actsOf i events ++ [⟨op, answer⟩] := by
          simp [appended, Event.acted]
        rw [acted]
        exact (attributed.leaves i caller _ found).act answer
      · obtain ⟨call, -, same⟩ := List.mem_map.mp new
        cases same
        rw [others i (by omega), attributed.unborn i late]
        exact .start
    · intro i late
      rw [List.length_append, List.length_set] at late
      rw [others i (by omega)]
      exact attributed.unborn i (by omega)

/-- What a thread has performed when it is done is what its program performs with this result. -/
theorem performs_actsOf {s : σ} {pool : Pool Answer σ Call α} {events : List (Event Answer Call)}
    (run : Transition.Run system.Step ⟨s, []⟩ events pool) {thread : Nat} {caller : Call} {result : α}
    (found : pool.threads[thread]? = some (caller, done result)) :
    Performs (system.program caller) (actsOf thread events) result := by
  have attributed : Attributed system pool events := by
    refine (run.recorded []).invariant
      (P := fun recorded : Pool Answer σ Call α × List (Event Answer Call) =>
        Attributed system recorded.1 recorded.2) ?_ ⟨nofun, fun _ _ => rfl⟩
    rintro ⟨before, history⟩ event ⟨after, later⟩ attributed ⟨step, rfl⟩
    exact attributed.step step
  have whole := (attributed.leaves thread caller _ found).performs (performs_done.mpr ⟨rfl, rfl⟩)
  rwa [List.append_nil] at whole

end Threads

/-- A property of futures beside what has been performed: the one that is polled keeps it, and so
do the others, under their own keys. -/
structure Recorded (Φ : List (Sigma Answer) → κ → Prog Answer α → Prop) : Prop where
  acts : ∀ {history key op next}, Φ history key (call op next) → ∀ answer,
    Φ (history ++ [⟨op, answer⟩]) key (next answer)
  waits : ∀ {history key p other op next}, Φ history key p → Φ history other (call op next) →
    other ≠ key → ∀ answer, Φ (history ++ [⟨op, answer⟩]) key p

section Futures
variable {Φ : List (Sigma Answer) → κ → Prog Answer α → Prop} {futures rest : Futures Answer κ α}
  {choices : List Nat} {history trace : List (Sigma Answer)} {key : κ} {a : α}

theorem Recorded.finish (recorded : Recorded Φ) {p : Prog Answer α} (holds : Φ history key p)
    (others : ∀ future ∈ futures, Φ history future.1 future.2 ∧ future.1 ≠ key)
    (performs : Performs p trace a) :
    Φ (history ++ trace) key (done a) ∧ ∀ future ∈ futures, Φ (history ++ trace) future.1 future.2 := by
  induction p generalizing history trace with
  | done result =>
    obtain ⟨rfl, rfl⟩ := performs_done.mp performs
    rw [List.append_nil]
    exact ⟨holds, fun future member => (others future member).1⟩
  | call op next ih =>
    obtain ⟨answer, rest, rfl, later⟩ := performs_call.mp performs
    have last := ih answer (recorded.acts holds answer) (fun future member => ?_) later
    · rwa [List.append_assoc] at last
    · obtain ⟨before, different⟩ := others future member
      exact ⟨recorded.waits before holds different.symm answer, different⟩

theorem keys_set {i : Nat} {p p' : Prog Answer α} (found : futures[i]? = some (key, p)) :
    (futures.set i (key, p')).map Prod.fst = futures.map Prod.fst := by
  obtain ⟨bound, same⟩ := List.getElem?_eq_some_iff.mp found
  have own : key = (futures.map Prod.fst).get ⟨i, by rwa [List.length_map]⟩ := by simp [same]
  rw [List.map_set, own, List.get_eq_getElem, List.set_getElem_self]

theorem mem_set_key {i : Nat} {p p' : Prog Answer α} (distinct : (futures.map Prod.fst).Nodup)
    (found : futures[i]? = some (key, p)) {future : κ × Prog Answer α}
    (member : future ∈ futures.set i (key, p')) :
    future = (key, p') ∨ (future ∈ futures ∧ future.1 ≠ key) := by
  obtain ⟨j, there⟩ := List.mem_iff_getElem?.mp member
  have bound : i < futures.length := (List.getElem?_eq_some_iff.mp found).1
  by_cases same : i = j
  · subst same
    rw [List.getElem?_set_self bound] at there
    exact .inl (Option.some.inj there).symm
  · rw [List.getElem?_set_ne same] at there
    refine .inr ⟨List.mem_of_getElem? there, fun equal => same ?_⟩
    refine (List.getElem?_inj (by rwa [List.length_map]) distinct).mp ?_
    rw [List.getElem?_map, List.getElem?_map, found, there, Option.map_some, Option.map_some, equal]

/-- What holds of futures beside what has been performed goes on holding of all of them. -/
theorem awaitNext_recorded (recorded : Recorded Φ) (distinct : (futures.map Prod.fst).Nodup)
    (all : ∀ future ∈ futures, Φ history future.1 future.2)
    (performs : Performs (awaitNext choices futures) trace (some ((key, a), rest))) :
    Φ (history ++ trace) key (done a) ∧ ∀ future ∈ rest, Φ (history ++ trace) future.1 future.2 := by
  induction choices generalizing futures history trace with
  | nil =>
    cases futures with
    | nil => cases awaitNext_nil.mp performs.returns
    | cons first others =>
      obtain ⟨key', future⟩ := first
      obtain ⟨result, finished, same⟩ := performs_map.mp performs
      cases same
      rw [List.forall_mem_cons] at all
      rw [List.map_cons, List.nodup_cons] at distinct
      refine recorded.finish all.1 (fun other member => ⟨all.2 other member, fun same => ?_⟩) finished
      have there : other.1 ∈ rest.map Prod.fst := List.mem_map_of_mem member
      exact distinct.1 (same ▸ there)
  | cons i choices ih =>
    rw [awaitNext_cons] at performs
    rcases found : futures[i]? with _ | ⟨key', result | ⟨op, next⟩⟩ <;> rw [found] at performs
    · exact ih distinct all performs
    · obtain ⟨rfl, same⟩ := performs_done.mp performs
      cases same
      rw [List.append_nil]
      refine ⟨all _ (List.mem_of_getElem? found), fun future member => ?_⟩
      exact all future (List.mem_of_mem_eraseIdx member)
    · obtain ⟨answer, later, rfl, goes⟩ := performs_call.mp performs
      have here := all _ (List.mem_of_getElem? found)
      have all' : ∀ future ∈ futures.set i (key', next answer),
          Φ (history ++ [⟨op, answer⟩]) future.1 future.2 := by
        intro future member
        rcases mem_set_key distinct found member with rfl | ⟨old, different⟩
        · exact recorded.acts here answer
        · exact recorded.waits (all future old) here (Ne.symm different) answer
      have last := ih ((keys_set found).symm ▸ distinct) all' goes
      rwa [List.append_assoc] at last

end Futures
end Interaction
