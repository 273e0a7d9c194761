import NpsSdk.Lib.Assoc
import NpsSdk.Lib.Splitting
import NpsSdk.Nop.PortableProfile.Topology

/-! Leases on tasks and the nodes that are marked terminal, evaluated over a list of events. A lease
is replaced by the next grant, also by a shorter one, and the two parts of a terminal key are joined
by a character that both may contain. -/
namespace Nps.Nop.PortableProfile
open Json

structure Lease where
  runnerNid : String
  expiresAt : Int
deriving DecidableEq

structure LeaseState where
  leases : Assoc String Lease := ∅
  terminal : List String := []
  outcomes : List String := []

/-- An `i64` addition out of range. -/
inductive Overflow where
  | addition
deriving DecidableEq

def addI64 (a b : Int) : Except Overflow Int :=
  if -2 ^ 63 ≤ a + b ∧ a + b < 2 ^ 63 then .ok (a + b) else .error .addition

def eventAt (event : Value) : Int := ((field event "at").bind asI64).getD 0

def eventOp (event : Value) : String := (stringValue event "op").getD ""

def eventTask (event : Value) : String := (stringValue event "task_id").getD ""

def eventRunner (event : Value) : String := (stringValue event "runner_nid").getD ""

def leaseSeconds (event : Value) : Int := min (max (i64Value event "lease_seconds" 10) 10) 600

def terminalPair (event : Value) : String × String :=
  ((stringValue event "dedup_key").getD "", (stringValue event "node_id").getD "")

def terminalKey (event : Value) : String :=
  (terminalPair event).1 ++ "\x00" ++ (terminalPair event).2

namespace LeaseState
variable (s : LeaseState) (event : Value)

def live : Option Lease :=
  (s.leases.lookup (eventTask event)).filter fun lease => decide (lease.expiresAt > eventAt event)

def say (outcome : String) : LeaseState := { s with outcomes := s.outcomes ++ [outcome] }

def grant (outcome : String) : Except Overflow LeaseState := do
  let expiresAt ← addI64 (eventAt event) (leaseSeconds event)
  return {
    s with
    leases := s.leases.insert (eventTask event) { runnerNid := eventRunner event, expiresAt }
    outcomes := s.outcomes ++ [outcome] }

def claim : Except Overflow LeaseState :=
  match s.live event with
  | some lease =>
    if lease.runnerNid = eventRunner event then s.grant event "granted" else .ok (s.say "conflict")
  | none =>
    let reclaimed := (s.leases.lookup (eventTask event)).isSome
    s.grant event (if reclaimed then "reclaimed" else "granted")

def renew : Except Overflow LeaseState :=
  if (s.leases.lookup (eventTask event)).any fun lease =>
      decide (lease.expiresAt > eventAt event ∧ lease.runnerNid = eventRunner event) then
    s.grant event "granted"
  else .ok (s.say "conflict")

def step : Except Overflow LeaseState :=
  match eventOp event with
  | "claim" => s.claim event
  | "renew" => s.renew event
  | "mark_terminal" =>
    .ok ({ s with terminal := terminalKey event :: s.terminal }.say "recorded")
  | "is_terminal" =>
    .ok (s.say (if terminalKey event ∈ s.terminal then "terminal" else "pending"))
  | _ => .ok s

end LeaseState

def leaseEvents (input : Value) : List Value :=
  ((field input "events").bind Value.asArray).getD []

def runLeases (events : List Value) : Except Overflow LeaseState :=
  events.foldlM LeaseState.step {}

def evaluateLease (input : Value) : Except Overflow Value := do
  let s ← runLeases (leaseEvents input)
  return .object [("outcomes", stringArray s.outcomes)]

namespace LeaseState
variable {s t : LeaseState} {event : Value}

/-- The event is given a lease: a claim that no other runner's lease stands against, or a renewal of
the runner's own. -/
def Wins (s : LeaseState) (event : Value) : Prop :=
  (eventOp event = "claim" ∧ ∀ lease ∈ s.live event, lease.runnerNid = eventRunner event) ∨
    (eventOp event = "renew" ∧ ∃ lease ∈ s.live event, lease.runnerNid = eventRunner event)

def expiry (event : Value) : Int := eventAt event + leaseSeconds event

theorem leaseSeconds_range (event : Value) : 10 ≤ leaseSeconds event ∧ leaseSeconds event ≤ 600 := by
  unfold leaseSeconds
  omega

def leased (s : LeaseState) (event : Value) (outcome : String) : LeaseState := {
  s with
  leases := s.leases.insert (eventTask event) ⟨eventRunner event, expiry event⟩
  outcomes := s.outcomes ++ [outcome] }

theorem grant_ok {outcome : String} (stepped : s.grant event outcome = .ok t) :
    t = s.leased event outcome := by
  unfold grant addI64 at stepped
  split at stepped
  · cases stepped
    rfl
  · cases stepped

theorem grant_fits {outcome : String} (fits : expiry event < 2 ^ 63) (past : -2 ^ 63 ≤ eventAt event) :
    s.grant event outcome = .ok (s.leased event outcome) := by
  have range := leaseSeconds_range event
  have bounds : -2 ^ 63 ≤ eventAt event + leaseSeconds event ∧
      eventAt event + leaseSeconds event < 2 ^ 63 := ⟨by omega, fits⟩
  unfold grant addI64
  rw [if_pos bounds]
  rfl

theorem eventAt_range (event : Value) : -2 ^ 63 ≤ eventAt event ∧ eventAt event < 2 ^ 63 := by
  unfold eventAt
  cases found : (field event "at").bind asI64 with
  | none => decide
  | some at_ =>
    obtain ⟨value, -, read⟩ := Option.bind_eq_some_iff.mp found
    unfold asI64 at read
    split at read
    · exact Number.asI64_range read
    · cases read

theorem mem_live {lease : Lease} : lease ∈ s.live event ↔
    s.leases.lookup (eventTask event) = some lease ∧ eventAt event < lease.expiresAt := by
  unfold live
  rw [Option.mem_def, Option.filter_eq_some_iff, decide_eq_true_eq]

def reply (s : LeaseState) (event : Value) : List String :=
  match eventOp event with
  | "claim" => ["conflict"]
  | "renew" => ["conflict"]
  | "mark_terminal" => ["recorded"]
  | "is_terminal" => [if terminalKey event ∈ s.terminal then "terminal" else "pending"]
  | _ => []

def marks (event : Value) : List String :=
  if eventOp event = "mark_terminal" then [terminalKey event] else []

theorem step_wins (wins : s.Wins event) :
    ∃ outcome, (outcome = "granted" ∨ outcome = "reclaimed") ∧
      s.step event = s.grant event outcome := by
  rcases wins with ⟨op, free⟩ | ⟨op, lease, live, own⟩
  · simp only [step, op, claim]
    split
    · rename_i lease live
      rw [if_pos (free lease live)]
      exact ⟨_, .inl rfl, rfl⟩
    · split
      · exact ⟨_, .inr rfl, rfl⟩
      · exact ⟨_, .inl rfl, rfl⟩
  · obtain ⟨found, lasts⟩ := mem_live.mp live
    refine ⟨_, .inl rfl, ?_⟩
    simp only [step, op, renew, found, Option.any_some]
    rw [if_pos (by simp [lasts, own])]

theorem step_loses (loses : ¬ s.Wins event) : s.step event = .ok {
    s with terminal := marks event ++ s.terminal, outcomes := s.outcomes ++ s.reply event } := by
  unfold Wins at loses
  push Not at loses
  unfold step reply marks
  split
  · rename_i op
    obtain ⟨lease, live, other⟩ := loses.1 op
    have found : s.live event = some lease := live
    rw [op, claim, found]
    simp only [other, if_false]
    rfl
  · rename_i op
    have other := loses.2 op
    rw [op, renew]
    split
    · rename_i own
      cases found : s.leases.lookup (eventTask event) with
      | none => simp [found] at own
      | some lease =>
        simp only [found, Option.any_some, decide_eq_true_eq] at own
        exact absurd own.2 (other lease (mem_live.mpr ⟨found, own.1⟩))
    · rfl
  · rename_i op
    rw [op]
    rfl
  · rename_i op
    rw [op]
    rfl
  · rename_i claim renew mark ask
    have unmarked : eventOp event ≠ "mark_terminal" := mark
    rw [if_neg unmarked]
    simp

end LeaseState

/-- A lease as it was given. -/
structure Grant where
  task : String
  runner : String
  start : Int
  stop : Int
deriving DecidableEq

/-- One ends before the other starts, unless they are for one runner or for two tasks. -/
def Apart (g h : Grant) : Prop :=
  g.task = h.task → g.runner ≠ h.runner → g.stop ≤ h.start ∨ h.stop ≤ g.start

namespace LeaseState

def granted (s t : LeaseState) (event : Value) : Option Grant :=
  if t.outcomes = s.outcomes ++ ["granted"] ∨ t.outcomes = s.outcomes ++ ["reclaimed"] then
    (t.leases.lookup (eventTask event)).map fun lease =>
      ⟨eventTask event, lease.runnerNid, eventAt event, lease.expiresAt⟩
  else none

def grants : LeaseState → List Value → List Grant
  | _, [] => []
  | s, event :: rest =>
    match s.step event with
    | .ok t => (s.granted t event).toList ++ grants t rest
    | .error _ => []

/-- Leases given to different runners do not overlap, renewals of lost leases change nothing, and a
pair is reported terminal when it was marked; and the evaluation comes to its end. -/
structure Exclusive (events : List Value) : Prop where
  apart : (grants {} events).Pairwise Apart
  refused : ∀ before event after s, events = before ++ event :: after → runLeases before = .ok s →
    eventOp event = "renew" →
    (∀ lease, s.leases.lookup (eventTask event) = some lease →
      lease.expiresAt ≤ eventAt event ∨ lease.runnerNid ≠ eventRunner event) →
    s.step event = .ok (s.say "conflict")
  terminal : ∀ before event after s, events = before ++ event :: after → runLeases before = .ok s →
    eventOp event = "is_terminal" →
    (s.step event = .ok (s.say "terminal") ↔
      ∃ mark ∈ before, eventOp mark = "mark_terminal" ∧ terminalPair mark = terminalPair event)
  total : ∃ s, runLeases events = .ok s

/-- A lease that is given ends within 64 bits and not before the one it replaces, and no other pair
that was marked has the joined key of one that is asked for. -/
structure Admissible (before : List Value) (s : LeaseState) (event : Value) : Prop where
  fits : s.Wins event → expiry event < 2 ^ 63
  longer : s.Wins event → ∀ lease ∈ s.live event, lease.expiresAt ≤ expiry event
  told : eventOp event = "is_terminal" → ∀ mark ∈ before, eventOp mark = "mark_terminal" →
    terminalKey mark = terminalKey event → terminalPair mark = terminalPair event

/-- Every event is admissible in the state that it finds. -/
def Orderly : (before : List Value) → LeaseState → List Value → Prop
  | _, _, [] => True
  | before, s, event :: rest =>
    Admissible before s event ∧ match s.step event with
      | .ok t => Orderly (before ++ [event]) t rest
      | .error _ => True

instance (s : LeaseState) (event : Value) : Decidable (s.Wins event) :=
  inferInstanceAs (Decidable (_ ∨ _))

instance (before : List Value) (s : LeaseState) (event : Value) :
    Decidable (Admissible before s event) :=
  decidable_of_iff ((s.Wins event → expiry event < 2 ^ 63) ∧
    (s.Wins event → ∀ lease ∈ s.live event, lease.expiresAt ≤ expiry event) ∧
    (eventOp event = "is_terminal" → ∀ mark ∈ before, eventOp mark = "mark_terminal" →
      terminalKey mark = terminalKey event → terminalPair mark = terminalPair event))
    ⟨fun ⟨fits, longer, told⟩ => ⟨fits, longer, told⟩,
      fun ⟨fits, longer, told⟩ => ⟨fits, longer, told⟩⟩

instance decidableOrderly : (before : List Value) → (s : LeaseState) → (events : List Value) →
    Decidable (Orderly before s events)
  | _, _, [] => inferInstanceAs (Decidable True)
  | before, s, event :: rest =>
    @instDecidableAnd _ _ inferInstance <|
      match s.step event with
      | .ok t => decidableOrderly (before ++ [event]) t rest
      | .error _ => inferInstanceAs (Decidable True)

variable {s t : LeaseState} {event : Value} {before events : List Value}

theorem granted_leased {outcome : String} (told : outcome = "granted" ∨ outcome = "reclaimed") :
    s.granted (s.leased event outcome) event =
      some ⟨eventTask event, eventRunner event, eventAt event, expiry event⟩ := by
  have said : (s.leased event outcome).outcomes = s.outcomes ++ ["granted"] ∨
      (s.leased event outcome).outcomes = s.outcomes ++ ["reclaimed"] := by
    rcases told with rfl | rfl
    · exact .inl rfl
    · exact .inr rfl
  unfold granted
  rw [if_pos said, leased, AList.lookup_insert]
  rfl

theorem reply_plain : s.reply event ≠ ["granted"] ∧ s.reply event ≠ ["reclaimed"] := by
  unfold reply
  split
  · decide
  · decide
  · decide
  · split <;> decide
  · decide

theorem granted_none {terminal : List String} :
    s.granted { s with terminal, outcomes := s.outcomes ++ s.reply event } event = none := by
  unfold granted
  rw [if_neg]
  simp only [List.append_cancel_left_eq, not_or]
  exact reply_plain

/-- What is known of the leases given up to a time: the store has a lease that ends no earlier, of
the same runner unless the time is past the end. -/
def Kept (now : Int) (s : LeaseState) (given : List Grant) : Prop :=
  ∀ g ∈ given, ∃ lease, s.leases.lookup g.task = some lease ∧ g.stop ≤ lease.expiresAt ∧
    (g.runner = lease.runnerNid ∨ g.stop ≤ now)

theorem Kept.later {now later : Int} {given : List Grant} (kept : Kept now s given)
    (order : now ≤ later) : Kept later s given := by
  intro g member
  obtain ⟨lease, found, stop, holder⟩ := kept g member
  exact ⟨lease, found, stop, holder.imp_right fun past => past.trans order⟩

theorem Kept.ended {now : Int} {given : List Grant} (kept : Kept now s given)
    (order : now ≤ eventAt event) (wins : s.Wins event) {g : Grant} (member : g ∈ given)
    (task : g.task = eventTask event) (runner : g.runner ≠ eventRunner event) :
    g.stop ≤ eventAt event := by
  obtain ⟨lease, found, stop, holder⟩ := kept g member
  rw [task] at found
  by_cases lasts : eventAt event < lease.expiresAt
  · have live := mem_live.mpr ⟨found, lasts⟩
    have own : lease.runnerNid = eventRunner event := by
      rcases wins with ⟨-, free⟩ | ⟨-, other, live', own⟩
      · exact free lease live
      · cases live.symm.trans live'
        exact own
    rcases holder with same | past
    · exact absurd (same.trans own) runner
    · exact past.trans order
  · exact stop.trans (not_lt.mp lasts)

theorem Kept.leased {now : Int} {given : List Grant} {outcome : String} (kept : Kept now s given)
    (order : now ≤ eventAt event) (wins : s.Wins event)
    (longer : ∀ lease ∈ s.live event, lease.expiresAt ≤ expiry event) :
    Kept (eventAt event) (s.leased event outcome)
      (⟨eventTask event, eventRunner event, eventAt event, expiry event⟩ :: given) := by
  have range := leaseSeconds_range event
  intro g member
  rcases List.mem_cons.mp member with rfl | old
  · exact ⟨_, AList.lookup_insert _, le_refl _, .inl rfl⟩
  obtain ⟨lease, found, stop, holder⟩ := kept g old
  by_cases task : g.task = eventTask event
  · refine ⟨⟨eventRunner event, expiry event⟩, by rw [task]; exact AList.lookup_insert _, ?_, ?_⟩
    · by_cases lasts : eventAt event < lease.expiresAt
      · exact stop.trans (longer lease (mem_live.mpr ⟨task ▸ found, lasts⟩))
      · have later : eventAt event ≤ expiry event := by
          unfold expiry
          omega
        exact (stop.trans (not_lt.mp lasts)).trans later
    · by_cases runner : g.runner = eventRunner event
      · exact .inl runner
      · exact .inr (kept.ended order wins old task runner)
  · exact ⟨lease, (AList.lookup_insert_ne task).trans found, stop,
      holder.imp_right fun past => past.trans order⟩

theorem Orderly.apart (orderly : Orderly before s events) {now : Int} {given : List Grant}
    (kept : Kept now s given) (ordered : (now :: events.map eventAt).Pairwise (· ≤ ·)) :
    (grants s events).Pairwise Apart ∧ ∀ g ∈ given, ∀ h ∈ grants s events, Apart g h := by
  induction events generalizing before s now given with
  | nil => exact ⟨.nil, fun g _ h member => by cases member⟩
  | cons event rest ih =>
    obtain ⟨admissible, later⟩ := orderly
    rw [List.map_cons, List.pairwise_cons] at ordered
    obtain ⟨first, ordered⟩ := ordered
    have order : now ≤ eventAt event := first _ List.mem_cons_self
    by_cases wins : s.Wins event
    · obtain ⟨outcome, told, stepped⟩ := step_wins wins
      rw [grant_fits (admissible.fits wins) (eventAt_range event).1] at stepped
      rw [stepped] at later
      obtain ⟨among, after⟩ := ih later (kept.leased order wins (admissible.longer wins)) ordered
      have shown : grants s (event :: rest) =
          ⟨eventTask event, eventRunner event, eventAt event, expiry event⟩ ::
            grants (s.leased event outcome) rest := by
        rw [grants, stepped]
        dsimp only
        rw [granted_leased told]
        rfl
      rw [shown]
      refine ⟨List.pairwise_cons.mpr ⟨after _ List.mem_cons_self, among⟩, fun g member h listed => ?_⟩
      rcases List.mem_cons.mp listed with rfl | listed
      · exact fun task runner => .inl (kept.ended order wins member task runner)
      · exact after g (List.mem_cons_of_mem _ member) h listed
    · have stepped := step_loses wins
      rw [stepped] at later
      have same : grants s (event :: rest) = grants {
          s with terminal := marks event ++ s.terminal, outcomes := s.outcomes ++ s.reply event }
          rest := by
        rw [grants, stepped]
        dsimp only
        rw [granted_none]
        rfl
      rw [same]
      exact ih later (kept.later order) ordered

theorem Orderly.total (orderly : Orderly before s events) : ∃ t, events.foldlM step s = .ok t := by
  induction events generalizing before s with
  | nil => exact ⟨s, rfl⟩
  | cons event rest ih =>
    obtain ⟨admissible, later⟩ := orderly
    rw [List.foldlM_cons]
    by_cases wins : s.Wins event
    · obtain ⟨outcome, -, stepped⟩ := step_wins wins
      rw [grant_fits (admissible.fits wins) (eventAt_range event).1] at stepped
      rw [stepped] at later ⊢
      exact ih later
    · rw [step_loses wins] at later ⊢
      exact ih later

/-- Every event of an orderly run is admissible where it comes. -/
theorem Orderly.admissible (orderly : Orderly before s events) {past after : List Value}
    (split : events = past ++ event :: after) (reached : past.foldlM step s = .ok t) :
    Admissible (before ++ past) t event := by
  induction past generalizing before s events with
  | nil =>
    subst split
    cases reached
    rw [List.append_nil]
    exact orderly.1
  | cons first past ih =>
    subst split
    obtain ⟨-, later⟩ := orderly
    rw [List.foldlM_cons] at reached
    cases stepped : s.step first with
    | error e =>
      rw [stepped] at reached
      cases reached
    | ok u =>
      rw [stepped] at reached later
      have found := ih later rfl reached
      rwa [List.append_assoc] at found

/-- The keys in the store are those of the events that marked them. -/
theorem terminal_iff (reached : events.foldlM step s = .ok t) {key : String} :
    key ∈ t.terminal ↔ key ∈ s.terminal ∨
      ∃ mark ∈ events, eventOp mark = "mark_terminal" ∧ terminalKey mark = key := by
  induction events generalizing s with
  | nil =>
    cases reached
    simp
  | cons event rest ih =>
    rw [List.foldlM_cons] at reached
    have more (stepped : ∃ u, s.step event = .ok u ∧ u.terminal = marks event ++ s.terminal) :
        key ∈ t.terminal ↔ key ∈ s.terminal ∨
          ∃ mark ∈ event :: rest, eventOp mark = "mark_terminal" ∧ terminalKey mark = key := by
      obtain ⟨u, stepped, terminal⟩ := stepped
      rw [stepped] at reached
      rw [ih reached, terminal, marks]
      split
      · rename_i op
        simp only [List.cons_append, List.nil_append, List.mem_cons, exists_eq_or_imp, op, true_and,
          @eq_comm _ key]
        tauto
      · rename_i op
        simp [op]
    by_cases wins : s.Wins event
    · obtain ⟨outcome, -, stepped⟩ := step_wins wins
      cases granted : s.grant event outcome with
      | error e =>
        rw [stepped, granted] at reached
        cases reached
      | ok u =>
        cases grant_ok granted
        have unmarked : eventOp event ≠ "mark_terminal" := by
          rcases wins with ⟨op, -⟩ | ⟨op, -⟩ <;> rw [op] <;> decide
        refine more ⟨_, stepped.trans granted, ?_⟩
        rw [marks, if_neg unmarked]
        rfl
    · exact more ⟨_, step_loses wins, rfl⟩

/-- In an orderly run with times that do not go back, leases exclude one another. -/
theorem leases_exclusive {events : List Value} (ordered : (events.map eventAt).Pairwise (· ≤ ·))
    (orderly : Orderly [] {} events) : Exclusive events := by
  refine ⟨?apart, ?refused, ?terminal, orderly.total⟩
  case apart =>
    have kept : Kept (-2 ^ 63) {} [] := fun g member => by cases member
    refine (orderly.apart kept (List.pairwise_cons.mpr ⟨?_, ordered⟩)).1
    intro at_ member
    obtain ⟨event, -, rfl⟩ := List.mem_map.mp member
    exact (eventAt_range event).1
  case refused =>
    intro before event after s split reached op lost
    have loses : ¬ s.Wins event := by
      rintro (⟨claim, -⟩ | ⟨-, lease, live, own⟩)
      · rw [op] at claim
        exact absurd claim (by decide)
      · obtain ⟨found, lasts⟩ := mem_live.mp live
        rcases lost lease found with ended | other
        · exact absurd lasts (not_lt.mpr ended)
        · exact other own
    rw [step_loses loses, marks, reply, op]
    rfl
  case terminal =>
    intro before event after s split reached op
    have loses : ¬ s.Wins event := by
      rintro (⟨claim, -⟩ | ⟨renew, -⟩)
      · rw [op] at claim
        exact absurd claim (by decide)
      · rw [op] at renew
        exact absurd renew (by decide)
    have told := (orderly.admissible split reached).told op
    have stepped : s.step event =
        .ok (s.say (if terminalKey event ∈ s.terminal then "terminal" else "pending")) := by
      rw [step_loses loses, marks, reply, op]
      rfl
    have marked : terminalKey event ∈ s.terminal ↔ _ := terminal_iff reached
    have said : s.step event = .ok (s.say "terminal") ↔ terminalKey event ∈ s.terminal := by
      rw [stepped]
      split
      · rename_i found
        exact iff_of_true rfl found
      · rename_i missing
        refine iff_of_false (fun same => ?_) missing
        have outcomes := congrArg LeaseState.outcomes (Except.ok.inj same)
        simp [say] at outcomes
    rw [said, marked]
    constructor
    · rintro (initial | ⟨mark, member, op', key⟩)
      · cases initial
      · exact ⟨mark, member, op', told mark member op' key⟩
    · rintro ⟨mark, member, op', pair⟩
      refine .inr ⟨mark, member, op', ?_⟩
      rw [terminalKey, terminalKey, pair]

end LeaseState

namespace TwoRunners
open LeaseState

def lease (op task runner : String) (at_ seconds : Int) : Value := .object [
  ("at", integer at_), ("lease_seconds", integer seconds), ("op", .string op),
  ("runner_nid", .string runner), ("task_id", .string task)]

def node (op dedupKey nodeId : String) (at_ : Int) : Value := .object [
  ("at", integer at_), ("dedup_key", .string dedupKey), ("node_id", .string nodeId),
  ("op", .string op)]

def handover : List Value := [
  lease "claim" "t" "a" 0 10, lease "claim" "t" "b" 5 10, lease "renew" "t" "a" 6 30,
  lease "claim" "t" "b" 36 10, lease "renew" "t" "a" 40 10,
  node "mark_terminal" "k" "n" 41, node "is_terminal" "k" "n" 42, node "is_terminal" "k" "m" 43]

theorem handover_exclusive : Exclusive handover :=
  leases_exclusive (by decide +kernel) (by decide +kernel)

def confused : List Value :=
  [node "mark_terminal" "a\x00b" "c" 0, node "is_terminal" "a" "b\x00c" 1]

theorem confused_terminal : ¬ ∀ events : List Value, (events.map eventAt).Pairwise (· ≤ ·) →
    Exclusive events := by
  intro all
  have exclusive := all confused (by decide +kernel)
  have reported := exclusive.terminal [node "mark_terminal" "a\x00b" "c" 0]
    (node "is_terminal" "a" "b\x00c" 1) [] _ rfl rfl (by decide +kernel)
  obtain ⟨mark, member, -, pair⟩ := reported.mp rfl
  cases List.mem_singleton.mp member
  exact absurd pair (by decide +kernel)

end TwoRunners
end Nps.Nop.PortableProfile
