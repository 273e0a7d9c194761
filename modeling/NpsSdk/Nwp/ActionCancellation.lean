import Mathlib.Algebra.BigOperators.Group.Multiset.Basic
import Mathlib.Algebra.GroupWithZero.Nat
import NpsSdk.Lib.Interaction

/-! Cooperative cancellation. Listeners are registered, and run once the cancellation is
called, by any number of callers at a time: every call is a thread, and each access to the flag,
the mutex and the list of listeners is one step. -/
namespace Nps.Nwp.ActionCancellation
open Interaction Prog

/-- The flag, and the listeners behind their mutex. -/
structure CancellationState (Listener : Type) where
  cancelled : Bool := false
  locked : Bool := false
  listeners : List Listener := []

inductive Op (Listener : Type) where
  | load | swap | lock | unlock
  | push (listener : Listener)
  | take
  | run (listener : Listener)

inductive Call (Listener : Type) where
  | onCancel (listener : Listener)
  | cancel
deriving DecidableEq

section
variable {Listener : Type}

abbrev Answer : Op Listener → Type
  | .load | .swap => Bool
  | .lock | .unlock | .push _ | .run _ => Unit
  | .take => List Listener

/-- A mutex is only taken while it is free. -/
def exec : (op : Op Listener) → CancellationState Listener → Answer op →
    CancellationState Listener → Prop
  | .load, s, answer, t => answer = s.cancelled ∧ t = s
  | .swap, s, answer, t => answer = s.cancelled ∧ t = { s with cancelled := true }
  | .lock, s, _, t => s.locked = false ∧ t = { s with locked := true }
  | .unlock, s, _, t => t = { s with locked := false }
  | .push listener, s, _, t => t = { s with listeners := s.listeners ++ [listener] }
  | .take, s, answer, t => answer = s.listeners ∧ t = { s with listeners := [] }
  | .run _, s, _, t => t = s

abbrev Program (Listener α : Type) := Prog (@Answer Listener) α

abbrev ask (op : Op Listener) : Program Listener (Answer op) := perform op

def onCancel (listener : Listener) : Program Listener Unit := do
  if ← ask .load then ask (.run listener)
  else
    ask .lock
    if ← ask .load then
      ask .unlock
      ask (.run listener)
    else
      ask (.push listener)
      ask .unlock

def runAll : List Listener → Program Listener Unit
  | [] => return ()
  | listener :: listeners => do
    ask (.run listener)
    runAll listeners

def cancel : Program Listener Unit := do
  if ← ask .swap then return ()
  ask .lock
  let listeners ← ask .take
  ask .unlock
  runAll listeners

end

def system (Listener : Type) :
    System (@Answer Listener) (CancellationState Listener) (Call Listener) Unit where
  program
    | .onCancel listener => onCancel listener
    | .cancel => cancel
  exec := exec

/-- The positions of a call between two steps, with the listeners that it has to see to. -/
inductive Thread (Listener : Type) where
  | checking (listener : Listener)
  | entering (listener : Listener)
  | rechecking (listener : Listener)
  | adding (listener : Listener)
  | leaving (listener : Listener)
  | yielding (listener : Listener)
  | running (listener : Listener)
  | registered (listener : Listener)
  | swapping
  | winning
  | taking
  | releasing (listeners : List Listener)
  | delivering (listeners : List Listener)

namespace Thread
variable {Listener : Type}

def call : Thread Listener → Call Listener
  | checking l | entering l | rechecking l | adding l | leaving l | yielding l | running l
  | registered l => .onCancel l
  | swapping | winning | taking | releasing _ | delivering _ => .cancel

/-- What a call does from its position on. -/
def program : Thread Listener → Program Listener Unit
  | checking l => onCancel l
  | entering l => do
    ask .lock
    if ← ask .load then
      ask .unlock
      ask (.run l)
    else
      ask (.push l)
      ask .unlock
  | rechecking l => do
    if ← ask .load then
      ask .unlock
      ask (.run l)
    else
      ask (.push l)
      ask .unlock
  | adding l => do
    ask (.push l)
    ask .unlock
  | leaving _ => ask .unlock
  | yielding l => do
    ask .unlock
    ask (.run l)
  | running l => ask (.run l)
  | registered _ => return ()
  | swapping => cancel
  | winning => do
    ask .lock
    let listeners ← ask .take
    ask .unlock
    runAll listeners
  | taking => do
    let listeners ← ask .take
    ask .unlock
    runAll listeners
  | releasing listeners => do
    ask .unlock
    runAll listeners
  | delivering listeners => runAll listeners

end Thread

/-- One step of a call, with the listeners that it runs. -/
inductive Moves {Listener : Type} : CancellationState Listener → Thread Listener →
    List Listener → CancellationState Listener → Thread Listener → Prop where
  | late {s l} : s.cancelled = true → Moves s (.checking l) [] s (.running l)
  | early {s l} : s.cancelled = false → Moves s (.checking l) [] s (.entering l)
  | entered {s l} : s.locked = false →
      Moves s (.entering l) [] { s with locked := true } (.rechecking l)
  | overtaken {s l} : s.cancelled = true → Moves s (.rechecking l) [] s (.yielding l)
  | confirmed {s l} : s.cancelled = false → Moves s (.rechecking l) [] s (.adding l)
  | added {s l} :
      Moves s (.adding l) [] { s with listeners := s.listeners ++ [l] } (.leaving l)
  | left {s l} : Moves s (.leaving l) [] { s with locked := false } (.registered l)
  | yielded {s l} : Moves s (.yielding l) [] { s with locked := false } (.running l)
  | ran {s l} : Moves s (.running l) [l] s (.registered l)
  | lost {s} : s.cancelled = true → Moves s .swapping [] s (.delivering [])
  | won {s} : s.cancelled = false → Moves s .swapping [] { s with cancelled := true } .winning
  | locked {s} : s.locked = false → Moves s .winning [] { s with locked := true } .taking
  | took {s} : Moves s .taking [] { s with listeners := [] } (.releasing s.listeners)
  | released {s ls} : Moves s (.releasing ls) [] { s with locked := false } (.delivering ls)
  | delivered {s l ls} : Moves s (.delivering (l :: ls)) [l] s (.delivering ls)

section
variable {Listener : Type}

def Op.ran : Op Listener → List Listener
  | .run l => [l]
  | _ => []

/-- A step of a call's program takes the call to its next position. -/
theorem moves_of_program {thread : Thread Listener} {op : Op Listener}
    {next : Answer op → Program Listener Unit} {s t : CancellationState Listener} {answer : Answer op}
    (acting : thread.program = .call op next) (exec : exec op s answer t) :
    ∃ after, Moves s thread op.ran t after ∧ next answer = after.program ∧
      after.call = thread.call := by
  cases thread with
  | checking l =>
    cases acting
    obtain ⟨rfl, rfl⟩ := exec
    cases flag : t.cancelled with
    | true => exact ⟨_, .late flag, rfl, rfl⟩
    | false => exact ⟨_, .early flag, rfl, rfl⟩
  | entering l =>
    cases acting
    obtain ⟨free, rfl⟩ := exec
    exact ⟨_, .entered free, rfl, rfl⟩
  | rechecking l =>
    cases acting
    obtain ⟨rfl, rfl⟩ := exec
    cases flag : t.cancelled with
    | true => exact ⟨_, .overtaken flag, rfl, rfl⟩
    | false => exact ⟨_, .confirmed flag, rfl, rfl⟩
  | adding l =>
    cases acting
    cases exec
    exact ⟨_, .added, rfl, rfl⟩
  | leaving l =>
    cases acting
    cases exec
    exact ⟨_, .left, rfl, rfl⟩
  | yielding l =>
    cases acting
    cases exec
    exact ⟨_, .yielded, rfl, rfl⟩
  | running l =>
    cases acting
    cases exec
    exact ⟨_, .ran, rfl, rfl⟩
  | registered l => cases acting
  | swapping =>
    cases acting
    obtain ⟨rfl, rfl⟩ := exec
    cases flag : s.cancelled with
    | true =>
      have same : { s with cancelled := true } = s := by rw [← flag]
      rw [same]
      exact ⟨_, .lost flag, rfl, rfl⟩
    | false => exact ⟨_, .won flag, rfl, rfl⟩
  | winning =>
    cases acting
    obtain ⟨free, rfl⟩ := exec
    exact ⟨_, .locked free, rfl, rfl⟩
  | taking =>
    cases acting
    obtain ⟨rfl, rfl⟩ := exec
    exact ⟨_, .took, rfl, rfl⟩
  | releasing ls =>
    cases acting
    cases exec
    exact ⟨_, .released, rfl, rfl⟩
  | delivering ls =>
    cases ls with
    | nil => cases acting
    | cons l ls =>
      cases acting
      cases exec
      exact ⟨_, .delivered, rfl, rfl⟩

end

namespace Thread
variable {Listener : Type}

def holds : Thread Listener → Nat
  | rechecking _ | adding _ | leaving _ | yielding _ | taking | releasing _ => 1
  | _ => 0

def carries [DecidableEq Listener] (listener : Listener) : Thread Listener → Nat
  | checking l | entering l | rechecking l | adding l | yielding l | running l =>
    [l].count listener
  | releasing ls | delivering ls => ls.count listener
  | _ => 0

/-- The call that set the flag has not emptied the list yet. -/
def Drains (thread : Thread Listener) : Prop := thread = winning ∨ thread = taking

/-- Positions that are only reached once the flag is set. -/
def later : Thread Listener → Bool
  | yielding _ | running _ | winning | taking | releasing _ | delivering _ => true
  | _ => false

/-- The steps to go, when the list does not grow. -/
def work : Thread Listener → Nat
  | checking _ => 6
  | entering _ => 5
  | rechecking _ => 4
  | adding _ => 3
  | leaving _ => 1
  | yielding _ => 2
  | running _ => 1
  | registered _ => 0
  | swapping => 4
  | winning => 3
  | taking => 2
  | releasing ls => ls.length + 1
  | delivering ls => ls.length

end Thread

section
variable {Listener : Type} [DecidableEq Listener]

/-- One holder of the mutex; every listener is at one place for each registration of it; the
list stays empty once it was emptied; nothing runs before the flag is set by a call. -/
structure Good (s : CancellationState Listener) (threads : Multiset (Thread Listener))
    (ran : List Listener) : Prop where
  mutex : (threads.map Thread.holds).sum = s.locked.toNat
  tokens : ∀ l, (threads.map (Thread.carries l)).sum + s.listeners.count l + ran.count l =
    (threads.map Thread.call).count (.onCancel l)
  drained : s.cancelled = true → (∃ thread ∈ threads, thread.Drains) ∨
    (s.listeners = [] ∧ ∀ l, .adding l ∉ threads)
  clear : s.cancelled = false → ran = [] ∧ ∀ thread ∈ threads, thread.later = false
  asked : s.cancelled = true → .cancel ∈ threads.map Thread.call

variable {s t : CancellationState Listener} {threads rest : Multiset (Thread Listener)}
  {thread after : Thread Listener} {ran ran' : List Listener}

omit [DecidableEq Listener] in
theorem Moves.work (moves : Moves s thread ran t after) :
    after.work + t.listeners.length + 1 ≤ thread.work + s.listeners.length := by
  cases moves <;> simp [Thread.work] <;> omega

theorem Moves.tokens (moves : Moves s thread ran t after) (l : Listener) :
    after.carries l + t.listeners.count l + ran.count l =
      thread.carries l + s.listeners.count l := by
  cases moves <;> simp [Thread.carries, List.count_cons] <;> omega

omit [DecidableEq Listener] in
theorem Moves.mutex (moves : Moves s thread ran t after)
    (exclusive : thread.holds ≤ s.locked.toNat) :
    after.holds + s.locked.toNat = thread.holds + t.locked.toNat := by
  have bound := Bool.toNat_le s.locked
  cases moves with
  | entered free => simp [Thread.holds, free]
  | locked free => simp [Thread.holds, free]
  | left =>
    simp only [Thread.holds, Bool.toNat_false] at exclusive ⊢
    omega
  | yielded =>
    simp only [Thread.holds, Bool.toNat_false] at exclusive ⊢
    omega
  | released =>
    simp only [Thread.holds, Bool.toNat_false] at exclusive ⊢
    omega
  | _ => rfl

omit [DecidableEq Listener] in
theorem Moves.clear (moves : Moves s thread ran t after) (flag : t.cancelled = false) :
    s.cancelled = false ∧ (thread.later = false → ran = [] ∧ after.later = false) := by
  cases moves <;> simp_all [Thread.later]

omit [DecidableEq Listener] in
theorem Moves.asked (moves : Moves s thread ran t after) (flag : t.cancelled = true) :
    s.cancelled = true ∨ thread.call = .cancel := by
  cases moves with
  | won => exact .inr rfl
  | _ => exact .inl flag

/-- While one call holds the mutex no other is about to add. -/
theorem Good.alone (good : Good s (thread ::ₘ rest) ran) (holds : thread.holds = 1) (l : Listener) :
    .adding l ∉ rest := by
  intro adding
  obtain ⟨others, rfl⟩ := Multiset.exists_cons_of_mem adding
  have mutex := good.mutex
  have bound := Bool.toNat_le s.locked
  have adds : (Thread.adding l).holds = 1 := rfl
  simp only [Multiset.map_cons, Multiset.sum_cons, holds, adds] at mutex
  omega

theorem Good.drained_step (good : Good s (thread ::ₘ rest) ran) (moves : Moves s thread ran' t after)
    (flag : t.cancelled = true) : (∃ d ∈ after ::ₘ rest, d.Drains) ∨
      (t.listeners = [] ∧ ∀ l, .adding l ∉ after ::ₘ rest) := by
  -- A step that neither drains nor adds leaves things as they were.
  have idle (before : s.cancelled = true) (resting : ¬thread.Drains)
      (kept : t.listeners = s.listeners) (fresh : ∀ l, after ≠ .adding l) :
      (∃ d ∈ after ::ₘ rest, d.Drains) ∨ (t.listeners = [] ∧ ∀ l, .adding l ∉ after ::ₘ rest) := by
    rcases good.drained before with ⟨d, member, drains⟩ | ⟨empty, none_⟩
    · rcases Multiset.mem_cons.mp member with rfl | member
      · exact absurd drains resting
      · exact .inl ⟨d, Multiset.mem_cons_of_mem member, drains⟩
    · refine .inr ⟨kept.trans empty, fun l member => ?_⟩
      rcases Multiset.mem_cons.mp member with same | member
      · exact fresh l same.symm
      · exact none_ l (Multiset.mem_cons_of_mem member)
  cases moves with
  | won => exact .inl ⟨_, Multiset.mem_cons_self _ _, .inl rfl⟩
  | locked free => exact .inl ⟨_, Multiset.mem_cons_self _ _, .inr rfl⟩
  | took =>
    refine .inr ⟨rfl, fun l member => ?_⟩
    rcases Multiset.mem_cons.mp member with same | member
    · cases same
    · exact good.alone rfl l member
  | confirmed early =>
    rw [early] at flag
    cases flag
  | @added l =>
    rcases good.drained flag with ⟨d, member, drains⟩ | ⟨_, none_⟩
    · rcases Multiset.mem_cons.mp member with rfl | member
      · rcases drains with drains | drains <;> cases drains
      · exact .inl ⟨d, Multiset.mem_cons_of_mem member, drains⟩
    · exact absurd (Multiset.mem_cons_self _ _) (none_ l)
  | early clear =>
    rw [clear] at flag
    cases flag
  | _ => exact idle flag (by rintro (h | h) <;> cases h) rfl nofun

theorem Good.step (good : Good s (thread ::ₘ rest) ran) (moves : Moves s thread ran' t after)
    (same : after.call = thread.call) : Good t (after ::ₘ rest) (ran ++ ran') where
  mutex := by
    have mutex := good.mutex
    rw [Multiset.map_cons, Multiset.sum_cons] at mutex ⊢
    have moved := moves.mutex (by omega)
    omega
  tokens l := by
    have tokens := good.tokens l
    have moved := moves.tokens l
    simp only [Multiset.map_cons, Multiset.sum_cons, List.count_append, same] at tokens ⊢
    omega
  drained := good.drained_step moves
  clear flag := by
    obtain ⟨before, kept⟩ := moves.clear flag
    obtain ⟨none_, rest_⟩ := good.clear before
    obtain ⟨silent, early⟩ := kept (rest_ _ (Multiset.mem_cons_self _ _))
    refine ⟨by rw [none_, silent, List.append_nil], fun other member => ?_⟩
    rcases Multiset.mem_cons.mp member with rfl | member
    · exact early
    · exact rest_ other (Multiset.mem_cons_of_mem member)
  asked flag := by
    rw [Multiset.map_cons, same, ← Multiset.map_cons]
    rcases moves.asked flag with before | own
    · exact good.asked before
    · rw [← own]
      exact Multiset.mem_map_of_mem _ (Multiset.mem_cons_self _ _)

def Call.entry : Call Listener → Thread Listener
  | .onCancel l => .checking l
  | .cancel => .swapping

theorem Good.start (good : Good s threads ran) (call : Call Listener) :
    Good s (call.entry ::ₘ threads) ran where
  mutex := by
    have mutex := good.mutex
    cases call <;> simpa [Call.entry, Thread.holds] using mutex
  tokens l := by
    have tokens := good.tokens l
    cases call with
    | onCancel k =>
      have new : [k].count l = if Call.onCancel l = Call.onCancel k then 1 else 0 := by
        simp [List.count_singleton, @eq_comm _ l]
      simp only [Call.entry, Multiset.map_cons, Multiset.sum_cons, Thread.carries, Thread.call,
        Multiset.count_cons, new]
      omega
    | cancel =>
      simpa [Call.entry, Thread.carries, Thread.call, Multiset.count_cons] using tokens
  drained flag := by
    refine (good.drained flag).imp ?_ ?_
    · rintro ⟨d, member, drains⟩
      exact ⟨d, Multiset.mem_cons_of_mem member, drains⟩
    · rintro ⟨empty, none_⟩
      refine ⟨empty, fun l member => ?_⟩
      rcases Multiset.mem_cons.mp member with same | member
      · cases call <;> cases same
      · exact none_ l member
  clear flag := by
    obtain ⟨none_, early⟩ := good.clear flag
    refine ⟨none_, fun other member => ?_⟩
    rcases Multiset.mem_cons.mp member with rfl | member
    · cases call <;> rfl
    · exact early other member
  asked flag := by
    rw [Multiset.map_cons]
    exact Multiset.mem_cons_of_mem (good.asked flag)

def ranBy : Event (@Answer Listener) (Call Listener) → List Listener
  | .act _ op _ => op.ran
  | .start _ => []

def calledBy : Event (@Answer Listener) (Call Listener) → List (Call Listener)
  | .act _ _ _ => []
  | .start asked => [asked]

/-- The threads of a pool are at these positions, after these events. -/
structure Shows (pool : Pool (@Answer Listener) (CancellationState Listener) (Call Listener) Unit)
    (history : List (Event (@Answer Listener) (Call Listener))) (threads : List (Thread Listener)) :
    Prop where
  programs : pool.threads = threads.map fun thread => (thread.call, thread.program)
  calls : history.flatMap calledBy = threads.map Thread.call
  good : Good pool.shared threads (history.flatMap ranBy)

theorem beside {γ : Type} {list : List γ} {i : Nat} {a : γ} (found : list[i]? = some a) :
    ∃ rest : Multiset γ, (list : Multiset γ) = a ::ₘ rest ∧
      ∀ b, (list.set i b : Multiset γ) = b ::ₘ rest := by
  obtain ⟨bound, rfl⟩ := List.getElem?_eq_some_iff.mp found
  refine ⟨list.eraseIdx i, ?_, fun b => ?_⟩
  · rw [Multiset.cons_coe, Multiset.coe_eq_coe]
    exact (List.getElem_cons_eraseIdx_perm bound).symm
  · rw [Multiset.cons_coe, Multiset.coe_eq_coe]
    exact List.set_perm_cons_eraseIdx bound b

variable {pool next : Pool (@Answer Listener) (CancellationState Listener) (Call Listener) Unit}
  {history : List (Event (@Answer Listener) (Call Listener))}
  {event : Event (@Answer Listener) (Call Listener)} {positions : List (Thread Listener)}

/-- The steps that the calls have to go at most, if no others come. -/
def workload (pool : Pool (@Answer Listener) (CancellationState Listener) (Call Listener) Unit)
    (positions : List (Thread Listener)) : Nat :=
  (positions.map Thread.work).sum + pool.shared.listeners.length

theorem Shows.step (shows_ : Shows pool history positions)
    (step : (system Listener).Step pool event next) :
    ∃ positions', Shows next (history ++ [event]) positions' ∧
      (calledBy event = [] → workload next positions' + 1 ≤ workload pool positions) := by
  cases step with
  | start asked =>
    refine ⟨positions ++ [asked.entry], ⟨?_, ?_, ?_⟩, nofun⟩
    · rw [List.map_append, ← shows_.programs]
      cases asked <;> rfl
    · rw [List.flatMap_append, shows_.calls, List.map_append]
      cases asked <;> rfl
    · have ran : (history ++ [Event.start asked]).flatMap ranBy = history.flatMap ranBy := by
        rw [List.flatMap_append]
        exact List.append_nil _
      have more : ((positions ++ [asked.entry] : List (Thread Listener)) : Multiset _) =
          asked.entry ::ₘ positions := by
        rw [Multiset.cons_coe, Multiset.coe_eq_coe]
        exact List.perm_append_singleton _ _
      rw [ran, more]
      exact shows_.good.start asked
  | @act i caller op rest answer shared acting exec =>
    rw [shows_.programs, List.getElem?_map, Option.map_eq_some_iff] at acting
    obtain ⟨thread, found, same⟩ := acting
    obtain ⟨rfl, program⟩ := Prod.mk.inj same
    obtain ⟨after, moves, goes, kept⟩ := moves_of_program program exec
    obtain ⟨others, before, later⟩ := beside found
    refine ⟨positions.set i after, ⟨?_, ?_, ?_⟩, fun _ => ?_⟩
    · simp only [shows_.programs, system, List.map_nil, List.append_nil, List.map_set, kept, goes]
    · obtain ⟨bound, value⟩ := List.getElem?_eq_some_iff.mp found
      have same : positions.set i thread = positions := by
        rw [← value]
        exact List.set_getElem_self bound
      rw [List.flatMap_append, shows_.calls, List.map_set, kept, ← List.map_set, same]
      exact List.append_nil _
    · have good := shows_.good
      rw [before] at good
      have ran : (history ++ [Event.act i op answer]).flatMap ranBy =
          history.flatMap ranBy ++ op.ran := by
        rw [List.flatMap_append, List.flatMap_singleton]
        rfl
      rw [ran, later]
      exact good.step moves kept
    · have spent := moves.work
      have sums (list : List (Thread Listener)) :
          (list.map Thread.work).sum = ((list : Multiset (Thread Listener)).map Thread.work).sum := by
        rw [Multiset.map_coe, Multiset.sum_coe]
      simp only [workload, sums, before, later, Multiset.map_cons, Multiset.sum_cons]
      omega

theorem shows_run {events : List (Event (@Answer Listener) (Call Listener))}
    (run : Transition.Run (system Listener).Step { shared := {}, threads := [] } events pool) :
    ∃ positions, Shows pool events positions := by
  have shown : ∃ positions, Shows pool ([] ++ events) positions := by
    refine (run.recorded []).invariant
      (P := fun at_ => ∃ positions, Shows at_.1 at_.2 positions) ?_ ?_
    · rintro ⟨pool, history⟩ event ⟨next, history'⟩ ⟨positions, shows_⟩ ⟨step, grown⟩
      cases grown
      obtain ⟨positions', shown, _⟩ := shows_.step step
      exact ⟨positions', shown⟩
    · refine ⟨[], rfl, rfl, ?_, ?_, ?_, ?_, ?_⟩
      · rfl
      · intro l
        rfl
      · nofun
      · exact fun _ => ⟨rfl, by simp⟩
      · nofun
  exact shown

omit [DecidableEq Listener] in
/-- A call is over, or its next step only ever waits for the mutex. -/
theorem Thread.over_or_ready (thread : Thread Listener) : thread.program = .done () ∨
    ∃ op next, thread.program = .call op next ∧ ∀ s : CancellationState Listener,
      (s.locked = false ∨ thread.holds = 1) → ∃ answer t, exec op s answer t := by
  cases thread with
  | registered l => exact .inl rfl
  | entering l =>
    refine .inr ⟨_, _, rfl, fun s free => ?_⟩
    rcases free with free | held
    · exact ⟨(), _, free, rfl⟩
    · cases held
  | winning =>
    refine .inr ⟨_, _, rfl, fun s free => ?_⟩
    rcases free with free | held
    · exact ⟨(), _, free, rfl⟩
    · cases held
  | checking l => exact .inr ⟨_, _, rfl, fun s _ => ⟨_, _, rfl, rfl⟩⟩
  | rechecking l => exact .inr ⟨_, _, rfl, fun s _ => ⟨_, _, rfl, rfl⟩⟩
  | swapping => exact .inr ⟨_, _, rfl, fun s _ => ⟨_, _, rfl, rfl⟩⟩
  | taking => exact .inr ⟨_, _, rfl, fun s _ => ⟨_, _, rfl, rfl⟩⟩
  | adding l => exact .inr ⟨_, _, rfl, fun s _ => ⟨(), _, rfl⟩⟩
  | leaving l => exact .inr ⟨_, _, rfl, fun s _ => ⟨(), _, rfl⟩⟩
  | yielding l => exact .inr ⟨_, _, rfl, fun s _ => ⟨(), _, rfl⟩⟩
  | running l => exact .inr ⟨_, _, rfl, fun s _ => ⟨(), _, rfl⟩⟩
  | releasing ls => exact .inr ⟨_, _, rfl, fun s _ => ⟨(), _, rfl⟩⟩
  | delivering ls =>
    cases ls with
    | nil => exact .inl rfl
    | cons l ls => exact .inr ⟨_, _, rfl, fun s _ => ⟨(), _, rfl⟩⟩

omit [DecidableEq Listener] in
theorem Thread.of_holds {thread : Thread Listener} (holds : thread.holds ≠ 0) :
    thread.program ≠ .done () ∧ thread.holds = 1 := by
  cases thread with
  | rechecking _ | adding _ | leaving _ | yielding _ | taking | releasing _ => exact ⟨nofun, rfl⟩
  | _ => exact absurd rfl holds

theorem Shows.acts (shows_ : Shows pool history positions) {thread : Thread Listener}
    (member : thread ∈ positions) (active : thread.program ≠ .done ())
    (free : pool.shared.locked = false ∨ thread.holds = 1) :
    ∃ i op answer next, (system Listener).Step pool (.act i op answer) next := by
  obtain ⟨i, found⟩ := List.getElem?_of_mem member
  rcases thread.over_or_ready with ended | ⟨op, rest, program, ready⟩
  · exact absurd ended active
  obtain ⟨answer, shared, exec⟩ := ready pool.shared free
  have acting : pool.threads[i]? = some (thread.call, .call op rest) := by
    rw [shows_.programs, List.getElem?_map, found, Option.map_some, program]
  exact ⟨i, op, answer, _, .act acting exec⟩

/-- While any call is going on, some call can go on: the one that holds the mutex, or else
every one. -/
theorem Shows.progress (shows_ : Shows pool history positions)
    (busy : ∃ thread ∈ pool.threads, thread.2 ≠ .done ()) :
    ∃ i op answer next, (system Listener).Step pool (.act i op answer) next := by
  cases locked : pool.shared.locked with
  | false =>
    obtain ⟨_, member, active⟩ := busy
    rw [shows_.programs] at member
    obtain ⟨thread, listed, rfl⟩ := List.mem_map.mp member
    exact shows_.acts listed active (.inl locked)
  | true =>
    obtain ⟨thread, listed, holds⟩ : ∃ thread ∈ positions, thread.holds ≠ 0 := by
      by_contra none_
      have mutex := shows_.good.mutex
      rw [locked, Multiset.map_coe, Multiset.sum_coe, List.sum_eq_zero] at mutex
      · cases mutex
      · intro n member
        obtain ⟨thread, listed, rfl⟩ := List.mem_map.mp member
        by_contra held
        exact none_ ⟨thread, listed, held⟩
    obtain ⟨active, once⟩ := Thread.of_holds holds
    exact shows_.acts listed active (.inr once)

/-- A run without new calls comes to an end. -/
theorem Shows.bounded {events : List (Event (@Answer Listener) (Call Listener))}
    (shows_ : Shows pool history positions)
    (run : Transition.Run (system Listener).Step pool events next)
    (closed : events.flatMap calledBy = []) : events.length ≤ workload pool positions := by
  induction run generalizing history positions with
  | refl => exact Nat.zero_le _
  | next head tail ih =>
    rw [List.flatMap_cons, List.append_eq_nil_iff] at closed
    obtain ⟨positions', shown, spent⟩ := shows_.step head
    have rest := ih shown closed.2
    have first := spent closed.1
    rw [List.length_cons]
    omega

omit [DecidableEq Listener] in
theorem Thread.over_cases {thread : Thread Listener} (ended : thread.program = .done ()) :
    (∃ l, thread = .registered l) ∨ thread = .delivering [] := by
  cases thread with
  | registered l => exact .inl ⟨l, rfl⟩
  | delivering ls =>
    cases ls with
    | nil => exact .inr rfl
    | cons l ls => cases ended
  | _ => cases ended

theorem Thread.carries_other {thread : Thread Listener} {l : Listener}
    (registers : thread.call ≠ .cancel) (other : thread.call ≠ .onCancel l) :
    thread.carries l = 0 := by
  cases thread with
  | swapping | winning | taking | releasing _ | delivering _ => exact absurd rfl registers
  | leaving _ | registered _ => rfl
  | checking k | entering k | rechecking k | adding k | yielding k | running k =>
    refine List.count_eq_zero.mpr fun member => other ?_
    rw [List.mem_singleton.mp member]
    rfl

/-- A listener that no unfinished call has to do with has run once for each registration. -/
theorem Shows.delivered (shows_ : Shows pool history positions)
    (asked : .cancel ∈ history.flatMap calledBy) (l : Listener)
    (ended : ∀ thread ∈ pool.threads, thread.1 = .cancel ∨ thread.1 = .onCancel l →
      thread.2 = .done ()) :
    (history.flatMap ranBy).count l = (history.flatMap calledBy).count (.onCancel l) := by
  have finished : ∀ thread ∈ positions, thread.call = .cancel ∨ thread.call = .onCancel l →
      thread.program = .done () := by
    intro thread member
    refine ended (thread.call, thread.program) ?_
    rw [shows_.programs]
    exact List.mem_map_of_mem member
  have flag : pool.shared.cancelled = true := by
    rw [shows_.calls] at asked
    obtain ⟨thread, member, cancels⟩ := List.mem_map.mp asked
    by_contra unset
    obtain ⟨_, early⟩ := shows_.good.clear (Bool.eq_false_of_not_eq_true unset)
    have not_later := early thread member
    rcases Thread.over_cases (finished thread member (.inl cancels)) with ⟨k, rfl⟩ | rfl
    · cases cancels
    · cases not_later
  have empty : pool.shared.listeners = [] := by
    rcases shows_.good.drained flag with ⟨thread, member, drains⟩ | ⟨empty, _⟩
    · rcases drains with rfl | rfl
      · cases finished _ member (.inl rfl)
      · cases finished _ member (.inl rfl)
    · exact empty
  have idle : (positions.map (Thread.carries l)).sum = 0 := by
    refine List.sum_eq_zero fun n member => ?_
    obtain ⟨thread, listed, rfl⟩ := List.mem_map.mp member
    by_cases mine : thread.call = .cancel ∨ thread.call = .onCancel l
    · rcases Thread.over_cases (finished thread listed mine) with ⟨k, rfl⟩ | rfl <;> rfl
    · obtain ⟨registers, other⟩ := not_or.mp mine
      exact Thread.carries_other registers other
  have tokens := shows_.good.tokens l
  rw [Multiset.map_coe, Multiset.sum_coe, idle, empty, Multiset.map_coe, Multiset.coe_count,
    ← shows_.calls] at tokens
  simpa using tokens

/-- However calls that register listeners and calls that cancel interleave: no listener runs
more often than it was registered, nor before a cancellation; after one, it has run once for
each registration as soon as these calls have returned; and calls cannot wait for each other
forever. -/
theorem delivered_once
    {pool : Pool (@Answer Listener) (CancellationState Listener) (Call Listener) Unit}
    {events : List (Event (@Answer Listener) (Call Listener))}
    (run : Transition.Run (system Listener).Step { shared := {}, threads := [] } events pool) :
    (∀ l, (events.flatMap ranBy).count l ≤ (events.flatMap calledBy).count (.onCancel l)) ∧
    (.cancel ∉ events.flatMap calledBy → events.flatMap ranBy = []) ∧
    (.cancel ∈ events.flatMap calledBy → ∀ l,
      (∀ thread ∈ pool.threads, thread.1 = .cancel ∨ thread.1 = .onCancel l →
        thread.2 = .done ()) →
      (events.flatMap ranBy).count l = (events.flatMap calledBy).count (.onCancel l)) ∧
    ((∃ thread ∈ pool.threads, thread.2 ≠ .done ()) →
      ∃ i op answer next, (system Listener).Step pool (.act i op answer) next) ∧
    ∃ bound, ∀ more next, Transition.Run (system Listener).Step pool more next →
      more.flatMap calledBy = [] → more.length ≤ bound := by
  obtain ⟨positions, shown⟩ := shows_run run
  refine ⟨fun l => ?_, fun never => ?_, fun asked l ended => ?_, fun busy => ?_, ?_⟩
  · have tokens := shown.good.tokens l
    rw [Multiset.map_coe, Multiset.map_coe, Multiset.coe_count, ← shown.calls] at tokens
    omega
  · refine (shown.good.clear (Bool.eq_false_of_not_eq_true fun flag => never ?_)).1
    rw [shown.calls]
    simpa using shown.good.asked flag
  · exact shown.delivered asked l ended
  · exact shown.progress busy
  · exact ⟨workload pool positions, fun more next run closed => shown.bounded run closed⟩

end

namespace Overtaken

/-- A registration finds the flag that a cancellation has just set. -/
def events : List (Event (@Answer Nat) (Call Nat)) :=
  [.start (.onCancel 7), .start .cancel, .act 1 .swap false, .act 0 .load true, .act 0 (.run 7) (),
    .act 1 .lock (), .act 1 .take [], .act 1 .unlock ()]

theorem runs : ∃ pool, Transition.Run (system Nat).Step { shared := {}, threads := [] } events pool ∧
    ∀ thread ∈ pool.threads, thread.2 = .done () := by
  refine ⟨_, .next (.start _ _) (.next (.start _ _) (.next (.act rfl ⟨rfl, rfl⟩)
    (.next (.act rfl ⟨rfl, rfl⟩) (.next (.act rfl rfl) (.next (.act rfl ⟨rfl, rfl⟩)
      (.next (.act rfl ⟨rfl, rfl⟩) (.next (.act rfl rfl) (.refl _)))))))), ?_⟩
  intro thread member
  rcases List.mem_cons.mp member with rfl | member
  · rfl
  rcases List.mem_cons.mp member with rfl | member
  · rfl
  · cases member

theorem ran_once : (events.flatMap ranBy).count 7 = (events.flatMap calledBy).count (.onCancel 7) := by
  obtain ⟨pool, run, ended⟩ := runs
  exact (delivered_once run).2.2.1 (by decide) 7 fun thread member _ => ended thread member

end Overtaken
end Nps.Nwp.ActionCancellation
