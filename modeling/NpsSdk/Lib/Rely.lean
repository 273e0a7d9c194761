import NpsSdk.Lib.Interaction

/-! Programs with a state of their own, which may fail, next to others that act on the same
surroundings. A condition on both states is ensured as long as the others cannot break it. -/
namespace Rely
open Interaction Interaction.Prog
variable {Op : Type} {Answer : Op → Type} {ε κ σ α β : Type}

/-- A failure keeps what the program has made of its own state. -/
abbrev Task (Answer : Op → Type) (ε κ : Type) := ExceptT ε (StateT κ (Prog Answer))

def ask (op : Op) : Task Answer ε κ (Answer op) :=
  ExceptT.mk fun own => call op fun answer => done (.ok answer, own)

@[simp] theorem pure_then (a : α) (f : α → Task Answer ε κ β) :
    ((pure a : Task Answer ε κ α) >>= f) = f a := rfl

def rounds (f : β → Task Answer ε κ α) : List β → Task Answer ε κ (List α)
  | [] => pure []
  | item :: rest => do
    let a ← f item
    let results ← rounds f rest
    return a :: results

def Among (rely : σ → σ → Prop) (exec : (op : Op) → σ → Answer op → σ → Prop) (op : Op) (s : σ)
    (answer : Answer op) (t : σ) : Prop :=
  ∃ between, rely s between ∧ exec op between answer t

/-- The others cannot break the condition. -/
def Stable (rely : σ → σ → Prop) (P : κ → σ → Prop) : Prop :=
  ∀ own s t, P own s → rely s t → P own t

/-- From the condition there is a run, and every run succeeds and ends with what is ensured. -/
structure Ensures (exec : (op : Op) → σ → Answer op → σ → Prop) (P : κ → σ → Prop) (p : Task Answer ε κ α)
    (Q : α → κ → σ → Prop) : Prop where
  runs : ∀ own s, P own s → ∃ result t, Runs exec (p.run own) s result t
  succeeds : ∀ own s result t, P own s → Runs exec (p.run own) s result t →
    ∃ a, result.1 = .ok a ∧ Q a result.2 t

section Rules
variable {exec : (op : Op) → σ → Answer op → σ → Prop} {P P' : κ → σ → Prop} {p : Task Answer ε κ α}
  {Q Q' : α → κ → σ → Prop}

theorem Ensures.computed {f : κ → α × κ} (only : ∀ own, p.run own = done (.ok (f own).1, (f own).2))
    (holds : ∀ own s, P own s → Q (f own).1 (f own).2 s) : Ensures exec P p Q where
  runs own s _ := by
    refine ⟨(.ok (f own).1, (f own).2), s, ?_⟩
    rw [only own]
    exact .done _ s
  succeeds own s result t initial run := by
    rw [only own] at run
    obtain ⟨rfl, rfl⟩ := runs_done.mp run
    exact ⟨_, rfl, holds own _ initial⟩

theorem Ensures.pure {a : α} (holds : ∀ own s, P own s → Q a own s) :
    Ensures exec P (pure a : Task Answer ε κ α) Q :=
  .computed (f := fun own => (a, own)) (fun _ => rfl) holds

theorem Ensures.modify {change : κ → κ} {Q : PUnit → κ → σ → Prop}
    (holds : ∀ own s, P own s → Q ⟨⟩ (change own) s) :
    Ensures exec P (modify change : Task Answer ε κ PUnit) Q :=
  .computed (f := fun own => (⟨⟩, change own)) (fun _ => rfl) holds

theorem Ensures.mono (ensures : Ensures exec P p Q) (stronger : ∀ own s, P' own s → P own s)
    (weaker : ∀ a own s, Q a own s → Q' a own s) : Ensures exec P' p Q' where
  runs own s initial := ensures.runs own s (stronger own s initial)
  succeeds own s result t initial run := by
    obtain ⟨a, same, holds⟩ := ensures.succeeds own s result t (stronger own s initial) run
    exact ⟨a, same, weaker a _ _ holds⟩

theorem Ensures.also {F : κ → σ → Prop} (ensures : Ensures exec P p Q) :
    Ensures exec (fun own s => F own s ∧ P own s) p Q :=
  ensures.mono (fun _ _ holds => holds.2) fun _ _ _ holds => holds

theorem Ensures.bind {f : α → Task Answer ε κ β} {R : β → κ → σ → Prop} (first : Ensures exec P p Q)
    (second : ∀ a, Ensures exec (Q a) (f a) R) : Ensures exec P (p >>= f) R where
  runs own s initial := by
    obtain ⟨⟨outcome, own'⟩, u, before⟩ := first.runs own s initial
    obtain ⟨a, same, holds⟩ := first.succeeds own s _ u initial before
    cases same
    obtain ⟨result, t, after⟩ := (second a).runs own' u holds
    exact ⟨result, t, runs_bind.mpr ⟨_, u, before, after⟩⟩
  succeeds own s result t initial run := by
    obtain ⟨⟨outcome, own'⟩, u, before, after⟩ := runs_bind.mp run
    obtain ⟨a, same, holds⟩ := first.succeeds own s _ u initial before
    cases same
    exact (second a).succeeds own' u result t holds after

/-- Where the condition says what the program's own state is, only what it does from there matters. -/
theorem Ensures.of_run {q : Task Answer ε κ α} (start : κ) (is : ∀ own s, P own s → own = start)
    (same : p.run start = q.run start) (ensures : Ensures exec P q Q) : Ensures exec P p Q where
  runs own s initial := by
    obtain rfl := is own s initial
    rw [same]
    exact ensures.runs own s initial
  succeeds own s result t initial run := by
    obtain rfl := is own s initial
    rw [same] at run
    exact ensures.succeeds own s result t initial run

theorem Ensures.of_exists {ι : Type} {P : ι → κ → σ → Prop} (each : ∀ i, Ensures exec (P i) p Q) :
    Ensures exec (fun own s => ∃ i, P i own s) p Q where
  runs own s initial := (each initial.choose).runs own s initial.choose_spec
  succeeds own s result t initial run := (each initial.choose).succeeds own s result t initial.choose_spec run

theorem Ensures.cases (first : Ensures exec P p Q) (second : Ensures exec P' p Q) :
    Ensures exec (fun own s => P own s ∨ P' own s) p Q where
  runs own s initial := initial.elim (first.runs own s) (second.runs own s)
  succeeds own s result t initial run :=
    initial.elim (fun holds => first.succeeds own s result t holds run) fun holds =>
      second.succeeds own s result t holds run

theorem Ensures.of_fact (fact : Prop) (follows : ∀ own s, P own s → fact)
    (ensures : fact → Ensures exec P p Q) : Ensures exec P p Q where
  runs own s initial := (ensures (follows own s initial)).runs own s initial
  succeeds own s result t initial run := (ensures (follows own s initial)).succeeds own s result t initial run

theorem Ensures.ask {rely : σ → σ → Prop} (idle : ∀ s, rely s s) (stable : Stable rely P) {op : Op}
    {Q : Answer op → κ → σ → Prop} (possible : ∀ own s, P own s → ∃ answer t, exec op s answer t)
    (steps : ∀ own s answer t, P own s → exec op s answer t → Q answer own t) :
    Ensures (Among rely exec) P (ask op : Task Answer ε κ (Answer op)) Q where
  runs own s initial := by
    obtain ⟨answer, t, step⟩ := possible own s initial
    exact ⟨_, t, .call ⟨s, idle s, step⟩ (.done _ t)⟩
  succeeds own s result t initial run := by
    obtain ⟨answer, u, ⟨between, others, step⟩, rest⟩ := runs_call.mp run
    obtain ⟨rfl, rfl⟩ := runs_done.mp rest
    exact ⟨answer, rfl, steps own between answer _ (stable own s between initial others) step⟩

/-- What each round keeps, all rounds keep. -/
theorem Ensures.rounds {I : κ → σ → Prop} {f : β → Task Answer ε κ α} {R : β → α → Prop} {items : List β}
    (each : ∀ item ∈ items, Ensures exec I (f item) fun a own s => R item a ∧ I own s) :
    Ensures exec I (rounds f items) fun results own s => List.Forall₂ R items results ∧ I own s := by
  induction items with
  | nil => exact .pure fun own s holds => ⟨.nil, holds⟩
  | cons item rest ih =>
    have later := ih fun other among => each other (List.mem_cons_of_mem _ among)
    apply (each item List.mem_cons_self).bind
    intro a
    refine .of_fact (R item a) (fun own s holds => holds.1) fun related => ?_
    have kept : Ensures exec (fun own s => R item a ∧ I own s) (Rely.rounds f rest)
        fun results own s => List.Forall₂ R rest results ∧ I own s :=
      later.mono (fun own s holds => holds.2) fun results own s holds => holds
    exact kept.bind fun results => .pure fun own s holds => ⟨.cons related holds.1, holds.2⟩

end Rules

end Rely
