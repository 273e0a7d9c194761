import NpsSdk.Lib.Transition

/-! Programs that act on their surroundings through operations. A program is a tree: it
is done, or it performs an operation and continues with the answer. What the operations
do is given separately, as a relation on states. -/
namespace Interaction
variable {Op : Type} {Answer : Op → Type} {α β : Type}

inductive Prog (Answer : Op → Type) (α : Type) where
  | done (result : α)
  | call (op : Op) (next : Answer op → Prog Answer α)

namespace Prog

def bind (p : Prog Answer α) (f : α → Prog Answer β) : Prog Answer β :=
  match p with
  | done result => f result
  | call op next => call op fun answer => bind (next answer) f

def map (f : α → β) (p : Prog Answer α) : Prog Answer β :=
  match p with
  | done result => done (f result)
  | call op next => call op fun answer => map f (next answer)

instance : Monad (Prog Answer) where
  pure := done
  bind := bind

def perform (op : Op) : Prog Answer (Answer op) := call op done

@[simp] theorem pure_eq (result : α) : (pure result : Prog Answer α) = done result := rfl

@[simp] theorem done_bind (result : α) (f : α → Prog Answer β) :
    (done result >>= f) = f result := rfl

@[simp] theorem call_bind (op : Op) (next : Answer op → Prog Answer α) (f : α → Prog Answer β) :
    (call op next >>= f) = call op fun answer => next answer >>= f := rfl

@[simp] theorem perform_bind (op : Op) (f : Answer op → Prog Answer β) :
    (perform op >>= f) = call op f := rfl

end Prog
open Prog

section Alone
variable {σ : Type} {exec : (op : Op) → σ → Answer op → σ → Prop}

inductive Runs (exec : (op : Op) → σ → Answer op → σ → Prop) :
    Prog Answer α → σ → α → σ → Prop where
  | done (result : α) (s : σ) : Runs exec (done result) s result s
  | call {op : Op} {next : Answer op → Prog Answer α} {s t u : σ} {answer : Answer op} {result : α} :
      exec op s answer t → Runs exec (next answer) t result u → Runs exec (call op next) s result u

@[simp] theorem runs_done {result a : α} {s t : σ} :
    Runs exec (done result) s a t ↔ a = result ∧ t = s := by
  constructor
  · rintro ⟨⟩
    exact ⟨rfl, rfl⟩
  · rintro ⟨rfl, rfl⟩
    exact .done _ _

@[simp] theorem runs_call {op : Op} {next : Answer op → Prog Answer α} {s u : σ} {a : α} :
    Runs exec (call op next) s a u ↔
      ∃ answer t, exec op s answer t ∧ Runs exec (next answer) t a u := by
  constructor
  · rintro (_ | ⟨step, rest⟩)
    exact ⟨_, _, step, rest⟩
  · rintro ⟨answer, t, step, rest⟩
    exact .call step rest

theorem runs_bind {p : Prog Answer α} {f : α → Prog Answer β} {s u : σ} {b : β} :
    Runs exec (p >>= f) s b u ↔ ∃ a t, Runs exec p s a t ∧ Runs exec (f a) t b u := by
  induction p generalizing s with
  | done result => simp
  | call op next ih =>
    simp only [call_bind, runs_call, ih]
    constructor
    · rintro ⟨answer, t, step, a, v, first, second⟩
      exact ⟨a, v, ⟨answer, t, step, first⟩, second⟩
    · rintro ⟨a, v, ⟨answer, t, step, first⟩, second⟩
      exact ⟨answer, t, step, a, v, first, second⟩

def Returns (p : Prog Answer α) (result : α) : Prop :=
  Runs (σ := Unit) (fun _ _ _ _ => True) p () result ()

@[simp] theorem returns_done {result a : α} : Returns (done result : Prog Answer α) a ↔ a = result := by
  simp [Returns]

@[simp] theorem returns_call {op : Op} {next : Answer op → Prog Answer α} {a : α} :
    Returns (call op next) a ↔ ∃ answer, Returns (next answer) a := by
  simp only [Returns, runs_call, true_and]
  constructor
  · rintro ⟨answer, ⟨⟩, rest⟩
    exact ⟨answer, rest⟩
  · rintro ⟨answer, rest⟩
    exact ⟨answer, (), rest⟩

theorem returns_bind {p : Prog Answer α} {f : α → Prog Answer β} {b : β} :
    Returns (p >>= f) b ↔ ∃ a, Returns p a ∧ Returns (f a) b := by
  simp only [Returns, runs_bind]
  constructor
  · rintro ⟨a, ⟨⟩, first, second⟩
    exact ⟨a, first, second⟩
  · rintro ⟨a, first, second⟩
    exact ⟨a, (), first, second⟩

theorem Runs.returns {p : Prog Answer α} {s t : σ} {a : α} (runs : Runs exec p s a t) :
    Returns p a := by
  induction runs with
  | done => exact returns_done.mpr rfl
  | call step rest ih => exact returns_call.mpr ⟨_, ih⟩

def Prog.runWith (handler : (op : Op) → σ → Answer op × σ) : Prog Answer α → σ → α × σ
  | done result, s => (result, s)
  | call op next, s => runWith handler (next (handler op s).1) (handler op s).2

theorem runs_runWith {handler : (op : Op) → σ → Answer op × σ}
    (faithful : ∀ op s, exec op s (handler op s).1 (handler op s).2) (p : Prog Answer α) (s : σ) :
    Runs exec p s (p.runWith handler s).1 (p.runWith handler s).2 := by
  induction p generalizing s with
  | done result => exact .done result s
  | call op next ih => exact .call (faithful op s) (ih _ _)

end Alone

/-- Every operation the program can reach is an allowed one. -/
def Only (allowed : Op → Prop) : Prog Answer α → Prop
  | done _ => True
  | call op next => allowed op ∧ ∀ answer, Only allowed (next answer)

/-- A claimed result is returned at once by an operation that justifies it. -/
def ReturnsBy (justifies : (op : Op) → Answer op → α → Prop) (claimed : α → Prop) :
    Prog Answer α → Prop
  | done result => ¬ claimed result
  | call op next => ∀ answer,
      (∃ result, next answer = done result ∧ (claimed result → justifies op answer result)) ∨
        ReturnsBy justifies claimed (next answer)

/-- A result outside `free` is returned only after an operation that earned it. -/
def Owes (earns : (op : Op) → Answer op → α → Prop) (free : α → Prop) : Prog Answer α → Prop
  | done result => free result
  | call op next => ∀ answer, Owes earns (fun a => free a ∨ earns op answer a) (next answer)

def Once (counted : Op → Prop) : Prog Answer α → Prop
  | done _ => True
  | call op next => ∀ answer, Once counted (next answer) ∧
      (counted op → Only (fun op => ¬ counted op) (next answer))

/-- The program keeps to some operations until one whose answer says how it goes on. -/
def Until (before : Op → Prop) (after : (op : Op) → Answer op → Prog Answer α → Prop) :
    Prog Answer α → Prop
  | done _ => True
  | call op next => ∀ answer,
      (before op ∧ Until before after (next answer)) ∨ after op answer (next answer)

section Properties
variable {allowed : Op → Prop} {earns : (op : Op) → Answer op → α → Prop}

theorem Only.bind {p : Prog Answer α} {f : α → Prog Answer β} (first : Only allowed p)
    (second : ∀ a, Only allowed (f a)) : Only allowed (p >>= f) := by
  induction p with
  | done result => exact second result
  | call op next ih => exact ⟨first.1, fun answer => ih answer (first.2 answer)⟩

/-- What comes after a program need only be allowed for what that returns. -/
theorem Only.after {p : Prog Answer α} {f : α → Prog Answer β} (first : Only allowed p)
    (second : ∀ a, Returns p a → Only allowed (f a)) : Only allowed (p >>= f) := by
  induction p with
  | done result => exact second result (returns_done.mpr rfl)
  | call op next ih =>
    refine ⟨first.1, fun answer => ih answer (first.2 answer) fun a returns => ?_⟩
    exact second a (returns_call.mpr ⟨answer, returns⟩)

theorem Only.map {f : α → β} {p : Prog Answer α} (only : Only allowed p) :
    Only allowed (p.map f) := by
  induction p with
  | done result => trivial
  | call op next ih => exact ⟨only.1, fun answer => ih answer (only.2 answer)⟩

theorem Only.ask {op : Op} {next : Answer op → Prog Answer α} (one : allowed op)
    (rest : ∀ answer, Only allowed (next answer)) : Only allowed (perform op >>= next) :=
  ⟨one, rest⟩

theorem Only.mono {wider : Op → Prop} (weaker : ∀ op, allowed op → wider op) {p : Prog Answer α}
    (only : Only allowed p) : Only wider p := by
  induction p with
  | done result => trivial
  | call op next ih => exact ⟨weaker op only.1, fun answer => ih answer (only.2 answer)⟩

theorem Once.of_only {counted : Op → Prop} {p : Prog Answer α}
    (only : Only (fun op => ¬ counted op) p) : Once counted p := by
  induction p with
  | done result => trivial
  | call op next ih => exact fun answer => ⟨ih answer (only.2 answer), fun _ => only.2 answer⟩

theorem Once.mono {counted fewer : Op → Prop} (weaker : ∀ op, fewer op → counted op)
    {p : Prog Answer α} (once : Once counted p) : Once fewer p := by
  induction p with
  | done result => trivial
  | call op next ih =>
    intro answer
    refine ⟨ih answer (once answer).1, fun counts => ?_⟩
    exact ((once answer).2 (weaker op counts)).mono fun op uncounted counts =>
      uncounted (weaker op counts)

theorem Once.bind {counted : Op → Prop} {p : Prog Answer α} {f : α → Prog Answer β}
    (first : Once counted p) (second : ∀ a, Only (fun op => ¬ counted op) (f a)) :
    Once counted (p >>= f) := by
  induction p with
  | done result => exact .of_only (second result)
  | call op next ih =>
    intro answer
    exact ⟨ih answer (first answer).1, fun counts => ((first answer).2 counts).bind second⟩

theorem Once.after {counted : Op → Prop} {p : Prog Answer α} {f : α → Prog Answer β}
    (first : Only (fun op => ¬ counted op) p) (second : ∀ a, Once counted (f a)) :
    Once counted (p >>= f) := by
  induction p with
  | done result => exact second result
  | call op next ih =>
    intro answer
    exact ⟨ih answer (first.2 answer), fun counts => absurd counts first.1⟩

theorem Until.map {before : Op → Prop} {after : (op : Op) → Answer op → Prog Answer α → Prop}
    {after' : (op : Op) → Answer op → Prog Answer β → Prop} {f : α → β}
    (kept : ∀ op answer q, after op answer q → after' op answer (q.map f)) {p : Prog Answer α}
    (waits : Until before after p) : Until before after' (p.map f) := by
  induction p with
  | done result => trivial
  | call op next ih =>
    intro answer
    rcases waits answer with ⟨early, later⟩ | reached
    · exact .inl ⟨early, ih answer later⟩
    · exact .inr (kept op answer _ reached)

theorem Owes.mono {free wider : α → Prop} (weaker : ∀ a, free a → wider a) {p : Prog Answer α}
    (owes : Owes earns free p) : Owes earns wider p := by
  induction p generalizing free wider with
  | done result => exact weaker _ owes
  | call op next ih =>
    intro answer
    exact ih answer (fun a => Or.imp_left (weaker a)) (owes answer)

theorem Owes.of_free {free : α → Prop} (all : ∀ a, free a) (p : Prog Answer α) :
    Owes earns free p := by
  induction p generalizing free with
  | done result => exact all result
  | call op next ih => exact fun answer => ih answer fun a => .inl (all a)

/-- What is owed after a program is owed whatever that returned. -/
theorem Owes.after {earns : (op : Op) → Answer op → β → Prop} {free : β → Prop} {p : Prog Answer α}
    {f : α → Prog Answer β} (rest : ∀ a, Returns p a → Owes earns free (f a)) :
    Owes earns free (p >>= f) := by
  induction p generalizing free with
  | done result => exact rest result (returns_done.mpr rfl)
  | call op next ih =>
    intro answer
    refine ih answer fun a returns => ?_
    exact (rest a (returns_call.mpr ⟨answer, returns⟩)).mono fun b => .inl

theorem Owes.then_done {earns : (op : Op) → Answer op → β → Prop} {free : β → Prop} {f : α → β}
    {p : Prog Answer α}
    (owes : Owes (fun op answer a => earns op answer (f a)) (fun a => free (f a)) p) :
    Owes earns free (p >>= fun a => done (f a)) := by
  induction p generalizing free with
  | done result => exact owes
  | call op next ih => exact fun answer => ih answer (owes answer)

theorem ReturnsBy.ask {justifies : (op : Op) → Answer op → α → Prop} {claimed : α → Prop} {op : Op}
    {next : Answer op → Prog Answer α} (rest : ∀ answer, ReturnsBy justifies claimed (next answer)) :
    ReturnsBy justifies claimed (perform op >>= next) :=
  fun answer => .inr (rest answer)

theorem ReturnsBy.map {justifies : (op : Op) → Answer op → α → Prop} {claimed : α → Prop}
    {justifies' : (op : Op) → Answer op → β → Prop} {claimed' : β → Prop} {f : α → β}
    (claims : ∀ a, claimed' (f a) → claimed a)
    (implies : ∀ op answer a, justifies op answer a → justifies' op answer (f a))
    {p : Prog Answer α} (by_ : ReturnsBy justifies claimed p) :
    ReturnsBy justifies' claimed' (p.map f) := by
  induction p with
  | done result => exact fun claim => by_ (claims result claim)
  | call op next ih =>
    intro answer
    rcases by_ answer with ⟨result, last, justified⟩ | later
    · exact .inl ⟨f result, congrArg (Prog.map f) last,
        fun claim => implies op answer result (justified (claims result claim))⟩
    · exact .inr (ih answer later)

theorem ReturnsBy.justified {justifies : (op : Op) → Answer op → α → Prop} {claimed : α → Prop}
    {p : Prog Answer α} (by_ : ReturnsBy justifies claimed p) {a : α} (returns : Returns p a)
    (claim : claimed a) : ∃ op answer, justifies op answer a := by
  induction p with
  | done result =>
    cases returns_done.mp returns
    exact absurd claim by_
  | call op next ih =>
    obtain ⟨answer, rest⟩ := returns_call.mp returns
    rcases by_ answer with ⟨result, last, justified⟩ | later
    · rw [last] at rest
      cases returns_done.mp rest
      exact ⟨op, answer, justified claim⟩
    · exact ih answer later rest

theorem Runs.related {σ : Type} {exec : (op : Op) → σ → Answer op → σ → Prop} {R : σ → σ → Prop}
    (refl : ∀ s, R s s) (trans : ∀ {s t u}, R s t → R t u → R s u)
    (respects : ∀ {op s answer t}, allowed op → exec op s answer t → R s t)
    {p : Prog Answer α} (only : Only allowed p) {s t : σ} {a : α} (runs : Runs exec p s a t) :
    R s t := by
  induction runs with
  | done => exact refl _
  | call step rest ih => exact trans (respects only.1 step) (ih (only.2 _))

end Properties

/-- Calls run as threads over one shared state; an operation may start further calls. -/
structure System (Answer : Op → Type) (σ Call α : Type) where
  program : Call → Prog Answer α
  exec : (op : Op) → σ → Answer op → σ → Prop
  spawns : Op → List Call := fun _ => []

structure Pool (Answer : Op → Type) (σ Call α : Type) where
  shared : σ
  threads : List (Call × Prog Answer α)

inductive Event (Answer : Op → Type) (Call : Type) where
  | start (call : Call)
  | act (thread : Nat) (op : Op) (answer : Answer op)

section Pools
variable {σ Call : Type} (system : System Answer σ Call α)

/-- A new call arrives, or one thread performs its next operation. -/
inductive System.Step : Pool Answer σ Call α → Event Answer Call → Pool Answer σ Call α → Prop where
  | start (pool : Pool Answer σ Call α) (call : Call) :
      Step pool (.start call)
        { pool with threads := pool.threads ++ [(call, system.program call)] }
  | act {pool : Pool Answer σ Call α} {thread : Nat} {caller : Call} {op : Op}
      {next : Answer op → Prog Answer α} {answer : Answer op} {shared : σ} :
      pool.threads[thread]? = some (caller, .call op next) →
      system.exec op pool.shared answer shared →
      Step pool (.act thread op answer)
        { shared
          threads := pool.threads.set thread (caller, next answer) ++
            (system.spawns op).map fun call => (call, system.program call) }

variable {system}

theorem System.Step.acts {pool after : Pool Answer σ Call α} {thread : Nat} {caller : Call} {op : Op}
    {next : Answer op → Prog Answer α} {answer : Answer op}
    (found : pool.threads[thread]? = some (caller, .call op next))
    (exec : system.exec op pool.shared answer after.shared)
    (threads : after.threads = pool.threads.set thread (caller, next answer) ++
      (system.spawns op).map fun call => (call, system.program call)) :
    system.Step pool (.act thread op answer) after := by
  cases after
  cases threads
  exact .act found exec

theorem getElem?_set_append {γ : Type} {threads new : List γ} {k i : Nat} {value x : γ}
    (found : (threads.set k value ++ new)[i]? = some x) :
    (i ≠ k ∧ threads[i]? = some x) ∨ (i = k ∧ x = value) ∨
      (threads.length ≤ i ∧ i < threads.length + new.length ∧ x ∈ new) := by
  by_cases old : i < threads.length
  · rw [List.getElem?_append_left (by rwa [List.length_set])] at found
    by_cases same : k = i
    · subst same
      rw [List.getElem?_set_self old] at found
      cases found
      exact .inr (.inl ⟨rfl, rfl⟩)
    · rw [List.getElem?_set_ne same] at found
      exact .inl ⟨Ne.symm same, found⟩
  · have size : i < (threads.set k value ++ new).length := (List.getElem?_eq_some_iff.mp found).1
    rw [List.length_append, List.length_set] at size
    rw [List.getElem?_append_right (by rw [List.length_set]; omega)] at found
    exact .inr (.inr ⟨Nat.le_of_not_lt old, size, List.mem_of_getElem? found⟩)

theorem getElem?_concat {γ : Type} {threads : List γ} {i : Nat} {value x : γ}
    (found : (threads ++ [value])[i]? = some x) :
    threads[i]? = some x ∨ (i = threads.length ∧ x = value) := by
  by_cases old : i < threads.length
  · exact .inl (List.getElem?_append_left old ▸ found)
  · have size : i < (threads ++ [value]).length := (List.getElem?_eq_some_iff.mp found).1
    rw [List.length_append, List.length_singleton] at size
    rw [List.getElem?_append_right (Nat.le_of_not_lt old)] at found
    exact .inr ⟨by omega, List.mem_singleton.mp (List.mem_of_getElem? found)⟩

/-- A thread after a step was there before, has just acted, or is new. -/
theorem System.Step.threadAt {pool after : Pool Answer σ Call α} {event : Event Answer Call}
    (step : system.Step pool event after) {i : Nat} {caller : Call} {p : Prog Answer α}
    (found : after.threads[i]? = some (caller, p)) :
    pool.threads[i]? = some (caller, p) ∨
      (∃ op next answer, event = .act i op answer ∧
        pool.threads[i]? = some (caller, .call op next) ∧
        system.exec op pool.shared answer after.shared ∧ p = next answer) ∨
      (pool.threads.length ≤ i ∧ p = system.program caller) := by
  by_cases old : i < pool.threads.length
  · cases step with
    | start call =>
      rw [List.getElem?_append_left old] at found
      exact .inl found
    | @act thread acting op next answer shared acted exec =>
      rw [List.getElem?_append_left (by rwa [List.length_set])] at found
      by_cases same : thread = i
      · subst same
        rw [List.getElem?_set_self old] at found
        cases found
        exact .inr (.inl ⟨op, next, answer, rfl, acted, exec, rfl⟩)
      · rw [List.getElem?_set_ne same] at found
        exact .inl found
  · refine .inr (.inr ⟨Nat.le_of_not_lt old, ?_⟩)
    cases step with
    | start call =>
      rw [List.getElem?_append_right (Nat.le_of_not_lt old)] at found
      cases List.mem_singleton.mp (List.mem_of_getElem? found)
      rfl
    | act acted exec =>
      rw [List.getElem?_append_right (by rw [List.length_set]; exact Nat.le_of_not_lt old)] at found
      obtain ⟨call, -, same⟩ := List.mem_map.mp (List.mem_of_getElem? found)
      cases same
      rfl

/-- A thread goes on working for the same caller. -/
theorem System.Step.caller {pool after : Pool Answer σ Call α} {event : Event Answer Call}
    (step : system.Step pool event after) {i : Nat} {caller : Call}
    (before : ∃ p, pool.threads[i]? = some (caller, p)) :
    ∃ p, after.threads[i]? = some (caller, p) := by
  obtain ⟨p, found⟩ := before
  have old : i < pool.threads.length := (List.getElem?_eq_some_iff.mp found).1
  cases step with
  | start call => exact ⟨p, (List.getElem?_append_left old).trans found⟩
  | @act thread acting op next answer shared acted exec =>
    by_cases same : thread = i
    · subst same
      cases found.symm.trans acted
      refine ⟨next answer, ?_⟩
      rw [List.getElem?_append_left (by rwa [List.length_set])]
      exact List.getElem?_set_self old
    · refine ⟨p, ?_⟩
      rw [List.getElem?_append_left (by rwa [List.length_set]), List.getElem?_set_ne same]
      exact found

theorem System.Step.caller_before (plain : ∀ op, system.spawns op = [])
    {pool after : Pool Answer σ Call α} {thread i : Nat} {op : Op} {answer : Answer op}
    (step : system.Step pool (.act thread op answer) after) {caller : Call} {p : Prog Answer α}
    (found : after.threads[i]? = some (caller, p)) : ∃ q, pool.threads[i]? = some (caller, q) := by
  cases step with
  | act acted exec =>
    dsimp only at found
    rw [plain, List.map_nil] at found
    rcases getElem?_set_append found with ⟨-, old⟩ | ⟨rfl, same⟩ | ⟨-, -, new⟩
    · exact ⟨p, old⟩
    · cases same
      exact ⟨_, acted⟩
    · cases new

/-- The caller that a thread has in the end is the one for which it acted. -/
theorem System.Step.acting {pool middle after : Pool Answer σ Call α} {i : Nat} {op : Op}
    {answer : Answer op} {events : List (Event Answer Call)} {caller : Call} {p : Prog Answer α}
    (step : system.Step pool (.act i op answer) middle)
    (run : Transition.Run system.Step middle events after)
    (found : after.threads[i]? = some (caller, p)) : ∃ q, pool.threads[i]? = some (caller, q) := by
  have acted : ∃ actor q, pool.threads[i]? = some (actor, q) := by
    cases step with
    | act acted exec => exact ⟨_, _, acted⟩
  obtain ⟨actor, q, before⟩ := acted
  obtain ⟨p', last⟩ := run.invariant (fun there step => step.caller there) (step.caller ⟨q, before⟩)
  cases found.symm.trans last
  exact ⟨q, before⟩

/-- Steps all of whose operations are allowed to their caller in the state they find. -/
def Permits (allowed : σ → Call → (op : Op) → Answer op → Prop) (pool : Pool Answer σ Call α) :
    Event Answer Call → Prop
  | .start _ => True
  | .act thread op answer =>
    ∀ caller p, pool.threads[thread]? = some (caller, p) → allowed pool.shared caller op answer

variable (system) in
abbrev System.GuardedStep (allowed : σ → Call → (op : Op) → Answer op → Prop) :=
  Transition.Guarded (Permits allowed) system.Step

section Guards
variable {allowed : σ → Call → (op : Op) → Answer op → Prop}
  {pool after : Pool Answer σ Call α} {event : Event Answer Call}

theorem System.GuardedStep.shared {I : σ → Prop}
    (kept : ∀ {s caller op answer t}, I s → allowed s caller op answer →
      system.exec op s answer t → I t)
    (step : system.GuardedStep allowed pool event after) (initial : I pool.shared) :
    I after.shared := by
  obtain ⟨permitted, step⟩ := step
  cases step with
  | start call => exact initial
  | act found exec => exact kept initial (permitted _ _ found) exec

/-- What holds of every thread goes on holding: of new ones, of those that wait while another
acts, and of the one that acts. -/
theorem System.GuardedStep.threads {Φ : σ → Call → Prog Answer α → Prop}
    (fresh : ∀ s caller, Φ s caller (system.program caller))
    (waits : ∀ {s caller p actor op answer t}, Φ s caller p → allowed s actor op answer →
      system.exec op s answer t → Φ t caller p)
    (acts : ∀ {s caller op next answer t}, Φ s caller (.call op next) →
      allowed s caller op answer → system.exec op s answer t → Φ t caller (next answer))
    (step : system.GuardedStep allowed pool event after)
    (initial : ∀ (i : Nat) caller p, pool.threads[i]? = some (caller, p) → Φ pool.shared caller p) :
    ∀ (i : Nat) caller p, after.threads[i]? = some (caller, p) → Φ after.shared caller p := by
  intro i caller p found
  obtain ⟨permitted, step⟩ := step
  rcases step.threadAt found with old | ⟨op, next, answer, rfl, acted, exec, rfl⟩ | ⟨-, rfl⟩
  · cases step with
    | start call => exact initial i caller p old
    | act acted exec => exact waits (initial i caller p old) (permitted _ _ acted) exec
  · exact acts (initial i caller _ acted) (permitted _ _ acted) exec
  · exact fresh _ caller

end Guards

inductive Move (Call : Type) where
  | start (call : Call)
  | run (thread steps : Nat)

section Scripts
variable (system) (handler : (op : Op) → σ → Answer op × σ)

/-- Let one thread perform operations against surroundings that compute their answers. -/
def System.drive (thread : Nat) :
    (steps : Nat) → Pool Answer σ Call α → List (Event Answer Call) × Pool Answer σ Call α
  | 0, pool => ([], pool)
  | steps + 1, pool =>
    match pool.threads[thread]? with
    | some (caller, .call op next) =>
      let answer := (handler op pool.shared).1
      let rest := drive thread steps {
        shared := (handler op pool.shared).2
        threads := pool.threads.set thread (caller, next answer) ++
          (system.spawns op).map fun call => (call, system.program call) }
      (.act thread op answer :: rest.1, rest.2)
    | _ => ([], pool)

def System.play :
    List (Move Call) → Pool Answer σ Call α → List (Event Answer Call) × Pool Answer σ Call α
  | [], pool => ([], pool)
  | .start arrival :: moves, pool =>
    let rest := play moves { pool with threads := pool.threads ++ [(arrival, system.program arrival)] }
    (.start arrival :: rest.1, rest.2)
  | .run thread steps :: moves, pool =>
    let first := system.drive handler thread steps pool
    let rest := play moves first.2
    (first.1 ++ rest.1, rest.2)

variable {system handler}

theorem System.run_drive
    (faithful : ∀ op s, system.exec op s (handler op s).1 (handler op s).2) (thread steps : Nat)
    (pool : Pool Answer σ Call α) :
    Transition.Run system.Step pool (system.drive handler thread steps pool).1
      (system.drive handler thread steps pool).2 := by
  induction steps generalizing pool with
  | zero => exact .refl pool
  | succ steps ih =>
    unfold System.drive
    split
    · rename_i caller op next found
      exact .next (.act found (faithful op pool.shared)) (ih _)
    · exact .refl pool

theorem System.run_play
    (faithful : ∀ op s, system.exec op s (handler op s).1 (handler op s).2)
    (moves : List (Move Call)) (pool : Pool Answer σ Call α) :
    Transition.Run system.Step pool (system.play handler moves pool).1
      (system.play handler moves pool).2 := by
  induction moves generalizing pool with
  | nil => exact .refl pool
  | cons move moves ih =>
    cases move with
    | start arrival => exact .next (.start pool arrival) (ih _)
    | run thread steps => exact (System.run_drive faithful thread steps pool).trans (ih _)

/-- Whether all that a thread does meets a condition where it does it. -/
def System.driveMeets (system : System Answer σ Call α)
    (handler : (op : Op) → σ → Answer op × σ)
    (meets : Pool Answer σ Call α → Event Answer Call → Bool) (thread : Nat) :
    (steps : Nat) → Pool Answer σ Call α → Bool
  | 0, _ => true
  | steps + 1, pool =>
    match pool.threads[thread]? with
    | some (caller, .call op next) =>
      let answer := (handler op pool.shared).1
      meets pool (.act thread op answer) && driveMeets system handler meets thread steps {
        shared := (handler op pool.shared).2
        threads := pool.threads.set thread (caller, next answer) ++
          (system.spawns op).map fun call => (call, system.program call) }
    | _ => true

/-- Whether all that happens in a script meets a condition where it happens. -/
def System.playMeets (system : System Answer σ Call α) (handler : (op : Op) → σ → Answer op × σ)
    (meets : Pool Answer σ Call α → Event Answer Call → Bool) :
    List (Move Call) → Pool Answer σ Call α → Bool
  | [], _ => true
  | .start arrival :: moves, pool =>
    meets pool (.start arrival) && playMeets system handler meets moves
      { pool with threads := pool.threads ++ [(arrival, system.program arrival)] }
  | .run thread steps :: moves, pool =>
    system.driveMeets handler meets thread steps pool &&
      playMeets system handler meets moves (system.drive handler thread steps pool).2

section Checked
variable {meets : Pool Answer σ Call α → Event Answer Call → Bool}
  {condition : Pool Answer σ Call α → Event Answer Call → Prop}

theorem System.run_drive_guarded
    (faithful : ∀ op s, system.exec op s (handler op s).1 (handler op s).2)
    (sound : ∀ pool event, meets pool event = true → condition pool event) (thread steps : Nat)
    (pool : Pool Answer σ Call α) (met : system.driveMeets handler meets thread steps pool = true) :
    Transition.Run (Transition.Guarded condition system.Step) pool
      (system.drive handler thread steps pool).1 (system.drive handler thread steps pool).2 := by
  induction steps generalizing pool with
  | zero => exact .refl pool
  | succ steps ih =>
    unfold System.drive
    unfold System.driveMeets at met
    split
    · rename_i caller op next found
      rw [found] at met
      obtain ⟨here, later⟩ := Bool.and_eq_true_iff.mp met
      exact .next ⟨sound _ _ here, .act found (faithful op pool.shared)⟩ (ih _ later)
    · exact .refl pool

theorem System.run_play_guarded
    (faithful : ∀ op s, system.exec op s (handler op s).1 (handler op s).2)
    (sound : ∀ pool event, meets pool event = true → condition pool event)
    (moves : List (Move Call)) (pool : Pool Answer σ Call α)
    (met : system.playMeets handler meets moves pool = true) :
    Transition.Run (Transition.Guarded condition system.Step) pool
      (system.play handler moves pool).1 (system.play handler moves pool).2 := by
  induction moves generalizing pool with
  | nil => exact .refl pool
  | cons move moves ih =>
    cases move with
    | start arrival =>
      obtain ⟨here, later⟩ := Bool.and_eq_true_iff.mp met
      exact .next ⟨sound _ _ here, .start pool arrival⟩ (ih _ later)
    | run thread steps =>
      obtain ⟨here, later⟩ := Bool.and_eq_true_iff.mp met
      exact (System.run_drive_guarded faithful sound thread steps pool here).trans (ih _ later)

end Checked

end Scripts

end Pools
end Interaction
