import NpsSdk.Nop.PortableProfile.Orchestration

/-! What the transcript of an orchestration says of its nodes: none is started before its
dependencies are through, and none is tried more often than its retry limit allows. The evaluation
itself overflows when it adds one to the greatest retry limit there is. -/
namespace Nps.Nop.PortableProfile
open Json Outcome Precedence

section Texts
variable {id other : String} {number : Nat} {word : Word}

theorem Word.plain (word : Word) : ':' ∉ word.text.toList := by
  cases word <;> decide

theorem Word.head (word : Word) : ∃ c rest, word.text.toList = c :: rest ∧ c.isDigit = false := by
  cases word <;> exact ⟨_, _, rfl, rfl⟩

theorem digits_plain (n : Nat) : ':' ∉ Nat.toDigits 10 n := fun member => by
  have digit := toDigits_isDigit member
  simp at digit

def Event.ending : Event → List Char
  | task word => word.text.toList
  | node _ word => word.text.toList
  | attempt _ number => Nat.toDigits 10 number

theorem Event.text_ending (e : Event) : ∃ front, e.text.toList = front ++ ':' :: e.ending := by
  cases e with
  | task word => exact ⟨['t', 'a', 's', 'k'], by simp [text, ending]⟩
  | node id word => exact ⟨id.toList, by simp [text, ending]⟩
  | attempt id number =>
    exact ⟨id.toList ++ ":attempt".toList, by simp [text, ending]⟩

theorem Event.ending_plain (e : Event) : ':' ∉ e.ending := by
  cases e with
  | task word => exact word.plain
  | node id word => exact word.plain
  | attempt id number => exact digits_plain number

theorem Event.ending_eq {e f : Event} (same : e.text = f.text) : e.ending = f.ending := by
  have read (e : Event) : (e.text.toList.reverse.takeWhile (· ≠ ':')).reverse = e.ending := by
    obtain ⟨front, parts⟩ := e.text_ending
    rw [parts]
    exact Text.afterLast_append e.ending_plain
  rw [← read e, ← read f, same]

theorem Word.text_ne_digits : word.text.toList ≠ Nat.toDigits 10 number := by
  intro same
  obtain ⟨c, rest, shape, other⟩ := word.head
  have digit := toDigits_isDigit (n := number) (c := c) (by
    rw [← same, shape]
    exact List.mem_cons_self)
  rw [digit] at other
  cases other

/-- The text of an attempt is that of no other event. -/
theorem Event.text_attempt {e : Event} (same : e.text = (Event.attempt id number).text) :
    e = .attempt id number := by
  have ends := Event.ending_eq same
  cases e with
  | task word => exact absurd ends Word.text_ne_digits
  | node other word => exact absurd ends Word.text_ne_digits
  | attempt other count =>
    obtain rfl := toDigits_injective ends
    have texts := congrArg String.toList same
    simp only [text, String.toList_append] at texts
    have ids := List.append_cancel_right (List.append_cancel_right texts)
    rw [String.toList_inj.mp ids]

end Texts

def Through (events : List Event) (id : String) : Prop :=
  .node id .completed ∈ events ∨ .node id .skipped ∈ events

theorem Through.append {events : List Event} {id : String} (through : Through events id)
    (more : List Event) : Through (events ++ more) id :=
  through.imp (List.mem_append_left _) (List.mem_append_left _)

/-- A count that the retry limit of a node allows. -/
def Allowed (task : Value) (nodes : Fields) (id : String) (count : Nat) : Prop :=
  ∀ node, get id nodes = some node → count ≤ maxRetries task node + 1

def Quiet (events : List Event) : Prop := ∀ id number, Event.attempt id number ∉ events

structure Lawful (task : Value) (nodes : Fields) (events : List Event)
    (attempts : List (String × Nat)) : Prop where
  started : ∀ front id number back, events = front ++ .attempt id number :: back →
    ∀ dependency, (dependency, id) ∈ edges nodes → Through front dependency
  counted : ∀ id count, get id attempts = some count → Allowed task nodes id count
  numbered : ∀ id number, .attempt id number ∈ events →
    Allowed task nodes id number ∧ events.count (.attempt id number) = 1

section Lawful
variable {task : Value} {nodes : Fields} {events more : List Event} {attempts : List (String × Nat)}
  {id : String} {count : Nat}

theorem get_insert_cases {β : Type} {key other : String} {value found : β} {entries : List (String × β)}
    (read : get other (insert key value entries) = some found) :
    other = key ∧ value = found ∨ other ≠ key ∧ get other entries = some found := by
  by_cases same : other = key
  · rw [same, get_insert_self] at read
    exact .inl ⟨same, Option.some.inj read⟩
  · rw [get_insert_ne same] at read
    exact .inr ⟨same, read⟩

/-- What is said next is about attempts at one node that has not been tried before, and whose
dependencies are through. -/
theorem Lawful.append (lawful : Lawful task nodes events attempts)
    (fresh : ∀ number, .attempt id number ∉ events)
    (ready : ∀ dependency, (dependency, id) ∈ edges nodes → Through events dependency)
    (own : ∀ other number, .attempt other number ∈ more →
      other = id ∧ Allowed task nodes id number ∧ more.count (.attempt id number) = 1)
    (allowed : Allowed task nodes id count) :
    Lawful task nodes (events ++ more) (insert id count attempts) := by
  constructor
  · intro front other number back same dependency edge
    rcases List.append_eq_append_iff.mp same with ⟨middle, rfl, tail⟩ | ⟨middle, rfl, tail⟩
    · have member : Event.attempt other number ∈ more := by simp [tail]
      obtain ⟨rfl, -⟩ := own other number member
      exact (ready dependency edge).append middle
    · cases middle with
      | nil =>
        have member : Event.attempt other number ∈ more := by
          rw [List.nil_append] at tail
          simp [← tail]
        obtain ⟨rfl, -⟩ := own other number member
        simpa using ready dependency edge
      | cons first middle =>
        obtain ⟨rfl, -⟩ := List.cons.inj tail
        exact lawful.started front other number middle rfl dependency edge
  · intro other count' found
    rcases get_insert_cases found with ⟨rfl, rfl⟩ | ⟨-, old⟩
    · exact allowed
    · exact lawful.counted other count' old
  · intro other number member
    rw [List.count_append]
    by_cases later : Event.attempt other number ∈ more
    · obtain ⟨rfl, within, once⟩ := own other number later
      rw [List.count_eq_zero.mpr (fresh number), once]
      exact ⟨within, rfl⟩
    · obtain ⟨within, once⟩ := lawful.numbered other number
        ((List.mem_append.mp member).resolve_right later)
      rw [List.count_eq_zero.mpr later, once]
      exact ⟨within, rfl⟩

theorem Lawful.quiet (lawful : Lawful task nodes events attempts) (quiet : Quiet more) :
    Lawful task nodes (events ++ more) attempts := by
  constructor
  · intro front other number back same dependency edge
    rcases List.append_eq_append_iff.mp same with ⟨middle, rfl, tail⟩ | ⟨middle, rfl, tail⟩
    · exact absurd (by simp [tail]) (quiet other number)
    · cases middle with
      | nil =>
        rw [List.nil_append] at tail
        exact absurd (by simp [← tail]) (quiet other number)
      | cons first middle =>
        obtain ⟨rfl, -⟩ := List.cons.inj tail
        exact lawful.started front other number middle rfl dependency edge
  · exact lawful.counted
  · intro other number member
    rw [List.count_append, List.count_eq_zero.mpr (quiet other number)]
    exact lawful.numbered other number ((List.mem_append.mp member).resolve_right (quiet other number))

end Lawful

def answer (node : Value) : List Value → Option Value
  | [] => none
  | outcome :: rest =>
    if outcomeKind outcome = "success" then some (outcomeResult outcome)
    else if mayRetry node outcome then answer node rest
    else none

section Attempts
variable {id : String} {node : Value} {retries scripted : Nat}

/-- The events of attempts at a node, with their numbers above one bound and up to another. -/
def Attempts (id : String) (low high : Nat) (events : List Event) : Prop :=
  (∀ e ∈ events, (∃ word, e = .node id word) ∨
    ∃ number, e = .attempt id number ∧ low < number ∧ number ≤ high) ∧
  ∀ number, events.count (.attempt id number) ≤ 1

theorem Attempts.word (id : String) (low : Nat) (word : Word) : Attempts id low low [.node id word] :=
  ⟨by simp, fun number => by simp⟩

theorem Attempts.cons {low high : Nat} {events : List Event} (rest : Attempts id (low + 1) high events)
    (above : low < high) (word : Option Word) :
    Attempts id low high (.attempt id (low + 1) :: (word.map (Event.node id)).toList ++ events) := by
  have fresh : Event.attempt id (low + 1) ∉ events := fun member => by
    rcases rest.1 _ member with ⟨word, same⟩ | ⟨number, same, later, -⟩
    · cases same
    · cases same
      omega
  constructor
  · intro e member
    simp only [List.cons_append, List.mem_cons, List.mem_append, Option.mem_toList,
      Option.map_eq_some_iff] at member
    rcases member with rfl | ⟨word, -, rfl⟩ | later
    · exact .inr ⟨low + 1, rfl, by omega, by omega⟩
    · exact .inl ⟨word, rfl⟩
    · refine (rest.1 e later).imp_right ?_
      rintro ⟨number, same, low', high'⟩
      exact ⟨number, same, by omega, high'⟩
  · intro number
    have quiet : (word.map (Event.node id)).toList.count (.attempt id number) = 0 := by
      cases word <;> simp
    rw [List.count_append, List.count_cons, quiet]
    by_cases same : number = low + 1
    · rw [same, List.count_eq_zero.mpr fresh]
      simp
    · have once := rest.2 number
      have other : (Event.attempt id (low + 1) == .attempt id number) = false := by
        simp [Ne.symm same]
      rw [other]
      simpa using once

/-- What the attempts at a node come to. -/
structure Concluded (id : String) (node : Value) (retries : Nat) (outcomes : List Value)
    (before after : Tried) : Prop where
  result : after.result = answer node outcomes
  failed : after.result = none → outcomes ≠ [] → after.failed = true
  least : before.count ≤ after.count
  most : after.count ≤ retries + 1
  events : ∃ new, after.events = before.events ++ new ∧ Attempts id before.count after.count new ∧
    (after.result.isSome → .node id .completed ∈ new)

theorem tryOutcomes_spec (id : String) (node : Value) (retries scripted : Nat) (outcomes : List Value) (tried : Tried)
    (whole : tried.count + outcomes.length = min (retries + 1) scripted)
    (bounded : retries + 1 < 2 ^ 64) (open_ : tried.result = none) :
    ∃ after, tryOutcomes id node retries scripted outcomes tried = .ok after ∧
      Concluded id node retries outcomes tried after := by
  induction outcomes generalizing tried with
  | nil =>
    refine ⟨tried, rfl, open_, by simp, le_rfl, ?_, [], by simp, ⟨by simp, by simp⟩, by simp [open_]⟩
    simp only [List.length_nil] at whole
    omega
  | cons outcome rest ih =>
    rw [List.length_cons] at whole
    have counted : addUsize tried.count 1 = .ok (tried.count + 1) := if_pos (by omega)
    unfold tryOutcomes
    simp only [counted, ok_bind, pure_eq]
    by_cases success : outcomeKind outcome = "success"
    · rw [if_pos success]
      refine ⟨_, rfl, ?_, by simp, by simp [Tried.push], ?_, ?_⟩
      · simp [answer, success]
      · simp only [Tried.push]
        omega
      · have attempts := Attempts.cons (Attempts.word id (tried.count + 1) .completed)
          (Nat.lt_succ_self _) none
        refine ⟨_, ?_, attempts, by simp⟩
        simp [Tried.push]
    · rw [if_neg success]
      by_cases again : mayRetry node outcome ∧ tried.count + 1 ≤ retries ∧ tried.count + 1 < scripted
      · rw [if_pos again]
        obtain ⟨after, run, done⟩ := ih
          { (tried.push (.attempt id (tried.count + 1))).push (.node id .retrying) with
            count := tried.count + 1, error := some (outcomeError outcome) }
          (by
            dsimp only
            omega)
          open_
        obtain ⟨new, events, attempts, completes⟩ := done.events
        refine ⟨after, run, ?_, fun none_ _ => ?_, ?_, done.most, ?_⟩
        · rw [done.result, answer, if_neg success, if_pos again.1]
        · refine done.failed none_ fun empty => ?_
          rw [empty, List.length_nil] at whole
          omega
        · exact (Nat.le_succ _).trans done.least
        · refine ⟨_, ?_, attempts.cons done.least (some .retrying), fun some_ => ?_⟩
          · rw [events]
            simp [Tried.push]
          · exact List.mem_cons_of_mem _ (List.mem_append_right _ (completes some_))
      · rw [if_neg again]
        have last : answer node (outcome :: rest) = none := by
          rw [answer, if_neg success]
          split
          · rename_i retry
            have : rest = [] := by
              apply List.length_eq_zero_iff.mp
              by_cases low : tried.count + 1 ≤ retries
              · have : ¬ tried.count + 1 < scripted := fun more => again ⟨retry, low, more⟩
                omega
              · omega
            rw [this, answer]
          · rfl
        refine ⟨_, rfl, ?_, by simp, by simp [Tried.push], ?_, ?_⟩
        · rw [last]
          exact open_
        · simp only [Tried.push]
          omega
        · have attempts := Attempts.cons (Attempts.word id (tried.count + 1) .failed)
            (Nat.lt_succ_self _) none
          refine ⟨_, ?_, attempts, ?_⟩
          · simp [Tried.push]
          · simp [Tried.push, open_]

end Attempts

section Compensation
variable {nodes : Fields} {ids pending seen : List String}

theorem anyNode_spec (test : Value → Bool) (known : ∀ id ∈ ids, id ∈ nodeIds nodes) :
    anyNode nodes test ids = .ok (ids.any fun id => (get id nodes).any test) := by
  induction ids with
  | nil => rfl
  | cons id rest ih =>
    obtain ⟨node, found, read⟩ := nodeAt_ok (known id List.mem_cons_self)
    unfold anyNode
    rw [List.any_cons, found, Option.any_some]
    simp only [read, ok_bind]
    split
    · rename_i passes
      rw [passes, Bool.true_or]
      rfl
    · rename_i other
      rw [Bool.eq_false_iff.mpr other, Bool.false_or]
      exact ih fun id later => known id (List.mem_cons_of_mem _ later)

theorem enqueue_spec (dependencies : List String) (state : List String × List String)
    (known : ∀ id ∈ dependencies, id ∈ ids) (queued : ∀ id ∈ state.1, id ∈ ids)
    (distinct : state.2.Nodup) (inside : ∀ id ∈ state.2, id ∈ ids) :
    (∀ id ∈ (dependencies.foldl enqueue state).1, id ∈ ids) ∧
      (dependencies.foldl enqueue state).2.Nodup ∧
      (∀ id ∈ (dependencies.foldl enqueue state).2, id ∈ ids) ∧
      (dependencies.foldl enqueue state).1.length + state.2.length =
        state.1.length + (dependencies.foldl enqueue state).2.length := by
  induction dependencies generalizing state with
  | nil => exact ⟨queued, distinct, inside, rfl⟩
  | cons dependency rest ih =>
    rw [List.forall_mem_cons] at known
    rw [List.foldl_cons]
    by_cases old : dependency ∈ state.2
    · rw [enqueue, if_pos old]
      exact ih state known.2 queued distinct inside
    · rw [enqueue, if_neg old]
      obtain ⟨queued', distinct', inside', lengths⟩ := ih (state.1 ++ [dependency], dependency :: state.2)
        known.2 (by
          intro id member
          rcases List.mem_append.mp member with early | last
          · exact queued id early
          · rw [List.mem_singleton.mp last]
            exact known.1)
        (List.nodup_cons.mpr ⟨old, distinct⟩)
        (List.forall_mem_cons.mpr ⟨known.1, inside⟩)
      refine ⟨queued', distinct', inside', ?_⟩
      simp only [List.length_append, List.length_cons, List.length_nil] at lengths
      omega

/-- Every node is seen once at most, so the fuel lasts. -/
theorem ancestors_total (known : ∀ edge ∈ edges nodes, edge.1 ∈ nodeIds nodes) {fuel : Nat}
    (queued : ∀ id ∈ pending, id ∈ nodeIds nodes) (distinct : seen.Nodup)
    (inside : ∀ id ∈ seen, id ∈ nodeIds nodes)
    (enough : pending.length + (nodeIds nodes).length < fuel + seen.length) :
    ∃ found, ancestors nodes fuel pending seen = .ok found := by
  induction fuel generalizing pending seen with
  | zero =>
    have few := (distinct.subperm inside).length_le
    omega
  | succ fuel ih =>
    cases pending with
    | nil => exact ⟨seen, rfl⟩
    | cons id pending =>
      rw [List.forall_mem_cons] at queued
      obtain ⟨node, found, read⟩ := nodeAt_ok queued.1
      obtain ⟨queued', distinct', inside', lengths⟩ := enqueue_spec (dependencies node) (pending, seen)
        (fun dependency member => known _ (mem_edges found member)) queued.2 distinct inside
      unfold ancestors
      simp only [read, ok_bind]
      refine ih queued' distinct' inside' ?_
      simp only [List.length_cons] at enough lengths
      omega

/-- What compensation leaves of the nodes that are through, and what it says. -/
structure Compensated (before : List (String × Word)) (events : List Event) (done : Compensation) :
    Prop where
  completed : ∀ id, get id done.states = some .completed → get id before = some .completed
  skipped : ∀ id, get id done.states = some .skipped → get id before = some .skipped
  events : ∃ new, done.events = events ++ new ∧ Quiet new

theorem Compensated.start {states : List (String × Word)} {events : List Event} {order : List String}
    {error : Option String} : Compensated states events ⟨order, error, states, events⟩ :=
  ⟨fun _ same => same, fun _ same => same, [], by simp, by simp [Quiet]⟩

section Compensated
variable {before : List (String × Word)} {events : List Event} {done : Compensation} {id : String}
  {word : Word}

theorem Compensated.push (compensated : Compensated before events done) (id : String) (word : Word)
    (order : List String) :
    Compensated before events { done.push (.node id word) with order } := by
  obtain ⟨new, said, quiet⟩ := compensated.events
  refine ⟨compensated.completed, compensated.skipped, new ++ [.node id word], ?_, ?_⟩
  · simp [Compensation.push, said]
  · simpa [Quiet] using quiet

theorem Compensated.settle (compensated : Compensated before events done) (id : String)
    (undone : word ≠ .completed ∧ word ≠ .skipped) :
    Compensated before events (done.settle id word) := by
  have pushed := compensated.push id word done.order
  refine ⟨fun other found => ?_, fun other found => ?_, pushed.events⟩
  · rcases get_insert_cases found with ⟨-, same⟩ | ⟨-, old⟩
    · exact absurd same undone.1
    · exact compensated.completed other old
  · rcases get_insert_cases found with ⟨-, same⟩ | ⟨-, old⟩
    · exact absurd same undone.2
    · exact compensated.skipped other old

theorem rollBack_spec (strict : Bool) (known : ∀ id ∈ ids, id ∈ nodeIds nodes)
    (compensated : Compensated before events done) :
    ∃ after, rollBack nodes strict ids done = .ok after ∧ Compensated before events after := by
  induction ids generalizing done with
  | nil => exact ⟨done, rfl, compensated⟩
  | cons id rest ih =>
    rw [List.forall_mem_cons] at known
    obtain ⟨node, -, read⟩ := nodeAt_ok known.1
    have begun := compensated.push id .compensating (done.order ++ [id])
    have failed := begun.settle id (show Word.compensationFailed ≠ .completed ∧ _ from by simp)
    unfold rollBack
    simp only [read, ok_bind, pure_eq]
    split
    · exact ih known.2 compensated
    · split
      · split
        · exact ⟨_, rfl, failed.completed, failed.skipped, failed.events⟩
        · exact ih known.2 failed
      · exact ih known.2 (begun.settle id (by simp))

theorem compensate_spec (task : Value) (before : List (String × Word)) (events : List Event)
    {failedId : String} {topo : List String} (ordered : Ordered nodes topo) (known : failedId ∈ nodeIds nodes) :
    ∃ after, compensate task failedId topo nodes before events = .ok after ∧
      Compensated before events after := by
  obtain ⟨found, searched⟩ : ∃ found,
      ancestors nodes (nodes.length + 2) [failedId] [] = .ok found := by
    refine ancestors_total ordered.known (by simpa using known) List.nodup_nil (by simp) ?_
    simp [nodeIds]
    omega
  have candidates : ∀ id ∈ topo.reverse.filter fun id =>
      decide (id ∈ found) && decide (get id before = some .completed), id ∈ nodeIds nodes := by
    intro id member
    exact ordered.all.mem_iff.mp (List.mem_reverse.mp (List.mem_filter.mp member).1)
  have asked := anyNode_spec unsupported candidates
  have start : Compensated before events { states := before, events } := .start
  obtain ⟨after, run, compensated⟩ := rollBack_spec
    (decide (stringValue task "compensation_policy" = some "strict")) candidates start
  unfold compensate
  simp only [searched, asked, ok_bind, pure_eq, Bool.false_eq_true, if_false]
  split
  · exact ⟨_, rfl, .start⟩
  · split
    · split
      · exact ⟨_, rfl, .start⟩
      · exact ⟨after, run, compensated⟩
    · exact ⟨after, run, compensated⟩

end Compensated
end Compensation
end Nps.Nop.PortableProfile
