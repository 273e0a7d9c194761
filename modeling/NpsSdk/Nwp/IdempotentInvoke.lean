import NpsSdk.Nwp.InvokePrograms

/-! Requests under one idempotency key: the outcome of an action is looked up before it is executed
and kept afterwards, so a second execution is excluded only if every later request finds the
outcome of the first. -/
namespace Nps.Nwp.ActionServer
open Interaction Prog
open InMemoryIdempotencyCache (key get_spec get_missed)

section Law
variable {opt : ActionNodeOptions} {slot hash : String} {frame : ParsedActionFrame}
  {p : Program (Option ActionResponse)}

abbrev Requests := Pool Answer World Call (Option ActionResponse)
abbrev History := List (Event Answer Call)

def FromOutside (_ : Requests) : Event Answer Call → Prop
  | .start (.task _) => False
  | _ => True

def NodeStep [Formats] (opt : ActionNodeOptions) : Requests → Event Answer Call → Requests → Prop :=
  Transition.Guarded FromOutside (node opt).Step

def LooksUp (slot : String) (i : Nat) : Event Answer Call → Prop
  | .act thread (.cacheGet scope key _) _ => thread = i ∧ InMemoryIdempotencyCache.key scope key = slot
  | _ => False

def executes (slot : String) : Event Answer Call → Bool
  | .act _ (.execute frame context) _ => frame.slot context.agentNid = some slot
  | _ => false

def executions (slot : String) (history : History) : Nat := history.countP (executes slot)

theorem executions_append (history : History) (event : Event Answer Call) :
    executions slot (history ++ [event]) =
      executions slot history + if executes slot event then 1 else 0 := by
  rw [executions, List.countP_append, List.countP_singleton]
  rfl

/-- Where a slot is looked up, it holds an outcome that has not expired, or it has never been looked
up before. -/
def Remembered (s : Requests × History) : Event Answer Call → Prop
  | .act _ (.cacheGet scope key now) _ =>
    s.1.shared.idempotency.Live now (InMemoryIdempotencyCache.key scope key) ∨
      ∀ i, ∀ event ∈ s.2, ¬ LooksUp (InMemoryIdempotencyCache.key scope key) i event
  | _ => True

structure Untouched (opt : ActionNodeOptions) (slot : String) (s : Requests × History) : Prop where
  unseen : ∀ i, ∀ event ∈ s.2, ¬ LooksUp slot i event
  unrun : executions slot s.2 = 0
  threads : ∀ (i : Nat) call p, s.1.threads[i]? = some (call, p) →
    Waiting opt slot call p ∨ Only (Op.Avoids slot) p

/-- What is left of the requests executes at most once for the slot, and for these parameters. -/
structure Orderly (opt : ActionNodeOptions) (slot hash : String) (s : Requests × History) : Prop where
  threads : ∀ (i : Nat) call p, s.1.threads[i]? = some (call, p) →
    Waiting opt slot call p ∨ Bound slot hash p
  single : ∀ (i j : Nat) one other p q, s.1.threads[i]? = some (one, p) →
    s.1.threads[j]? = some (other, q) → Engaged slot hash p → Engaged slot hash q → i = j
  ran : executions slot s.2 ≤ 1
  spent : 0 < executions slot s.2 → ∀ (i : Nat) call p, s.1.threads[i]? = some (call, p) →
    ¬ Engaged slot hash p
  params : ∀ i frame context answer, .act i (.execute frame context) answer ∈ s.2 →
    frame.slot context.agentNid = some slot → hashParams frame.params = hash
  past : ∀ i, ∀ event ∈ s.2, LooksUp slot i event → i < s.1.threads.length
  told : ∀ (i : Nat) req frame p, s.1.threads[i]? = some (.request req, p) → req.frame = .ok frame →
    (∃ event ∈ s.2, LooksUp slot i event) →
    hashParams frame.params = hash ∨ p = done (some idempotencyConflict)

/-- The slot belongs to the parameters of the request that looked it up first. -/
structure Held (opt : ActionNodeOptions) (slot hash : String) (s : Requests × History) : Prop
    extends Orderly opt slot hash s where
  seen : ∃ i, ∃ event ∈ s.2, LooksUp slot i event
  cache : s.1.shared.idempotency.Keyed slot hash

variable {s : Requests × History}

theorem Untouched.idle (untouched : Untouched opt slot s) {i : Nat} {call : Call}
    (found : s.1.threads[i]? = some (call, p)) : ¬ Engaged slot hash p := by
  rcases untouched.threads i call p found with waiting | avoids
  · exact waiting.not_engaged
  · exact fun engaged => not_runner_of_avoids avoids engaged.2

theorem Untouched.orderly (untouched : Untouched opt slot s) : Orderly opt slot hash s := by
  constructor
  · intro i call p found
    exact (untouched.threads i call p found).imp_right .of_avoids
  · intro i j one other p q first second engaged
    exact absurd engaged (untouched.idle first)
  · rw [untouched.unrun]
    exact Nat.zero_le 1
  · intro some_
    rw [untouched.unrun] at some_
    cases some_
  · intro i frame context answer member here
    have counted : 0 < executions slot s.2 :=
      List.countP_pos_iff.mpr ⟨_, member, decide_eq_true here⟩
    rw [untouched.unrun] at counted
    cases counted
  · intro i event member looks
    exact absurd looks (untouched.unseen i event member)
  · rintro i req frame p found parsed ⟨event, member, looks⟩
    exact absurd looks (untouched.unseen i event member)

/-- What an operation of a request does for the slot. The first lookup finds it untouched. -/
structure Acted (opt : ActionNodeOptions) (slot hash : String) (s : Requests × History) (call : Call)
    (op : Op) (next : Answer op → Program (Option ActionResponse)) (answer : Answer op) : Prop where
  goes : Waiting opt slot call (next answer) ∨ Bound slot hash (next answer)
  keeps : op.Keeps slot hash ∨ ∃ scope key now, op = .cacheGet scope key now
  engaged : Engaged slot hash (next answer) →
    ¬ op.RunsAt slot ∧ (Engaged slot hash (.call op next) ∨ Untouched opt slot s)
  runs : op.RunsAt slot → Engaged slot hash (.call op next)
  told : ∀ scope key now req frame, op = .cacheGet scope key now →
    InMemoryIdempotencyCache.key scope key = slot → call = .request req → req.frame = .ok frame →
    hashParams frame.params = hash ∨ next answer = done (some idempotencyConflict)

section Acting
variable {call : Call} {op : Op} {next : Answer op → Program (Option ActionResponse)}
  {answer : Answer op}

theorem Acted.of_bound (bound : Bound slot hash (.call op next)) :
    Acted opt slot hash s call op next answer := by
  obtain ⟨keeps, once⟩ := bound
  constructor
  · exact .inr ⟨keeps.2 answer, (once answer).1⟩
  · exact .inl keeps.1
  · intro engaged
    exact ⟨fun runs => engaged.2 ((once answer).2 runs), .inl ⟨keeps, engaged.2.before⟩⟩
  · exact fun runs => ⟨keeps, fun only => only.1 runs⟩
  · rintro scope key now req frame rfl here - -
    exact absurd here keeps.1

theorem Acted.of_waiting (idle : op.Idle) (waiting : Waiting opt slot call (next answer)) :
    Acted opt slot hash s call op next answer := by
  constructor
  · exact .inl waiting
  · exact .inl (idle.avoids.keeps)
  · exact fun engaged => absurd engaged waiting.not_engaged
  · exact fun runs => absurd runs (Op.Avoids.not_runsAt op idle.avoids)
  · rintro scope key now req frame rfl
    exact False.elim idle

end Acting

/-- A lookup that finds an outcome for these parameters. -/
theorem Acted.of_hit {req : InvokeRequest} {scope key : String} {now : OffsetDateTime}
    {context : ActionContext} {next : Option IdempotentEntry → Program (Option ActionResponse)}
    {cached : IdempotentEntry} (parsed : req.frame = .ok frame)
    (goes : next (some cached) = some <$> replay opt frame context cached)
    (agrees : cached.paramsHash = hash) :
    Acted opt slot hash s (.request req) (.cacheGet scope key now) next (some cached) := by
  have avoids : Only (Op.Avoids slot) (next (some cached)) := by
    rw [goes]
    exact only_some ((replay_idle cached).mono Op.Idle.avoids)
  constructor
  · exact .inr (.of_avoids avoids)
  · exact .inr ⟨scope, key, now, rfl⟩
  · exact fun engaged => absurd engaged.2 (not_runner_of_avoids avoids)
  · exact False.elim
  · intro scope' key' now' req' frame' same here call parsed'
    cases call
    cases parsed.symm.trans parsed'
    by_cases equal : hashParams frame.params = hash
    · exact .inl equal
    · right
      rw [goes, replay, if_pos (fun same => equal (same.symm.trans agrees))]
      rfl

/-- The first lookup, when it finds nothing. -/
theorem Acted.of_miss {req : InvokeRequest} {scope key : String} {now : OffsetDateTime}
    {context : ActionContext} {next : Option IdempotentEntry → Program (Option ActionResponse)}
    (parsed : req.frame = .ok frame) (goes : next none = some <$> perform opt frame context)
    (untouched : Untouched opt slot s) :
    Acted opt slot (hashParams frame.params) s (.request req) (.cacheGet scope key now) next none := by
  constructor
  · right
    rw [goes]
    exact .of_own (only_some perform_of) (once_some perform_once)
  · exact .inr ⟨scope, key, now, rfl⟩
  · exact fun _ => ⟨not_false, .inr untouched⟩
  · exact False.elim
  · intro scope' key' now' req' frame' same here call parsed'
    cases call
    cases parsed.symm.trans parsed'
    exact .inl rfl

theorem executes_runs {i : Nat} {op : Op} {answer : Answer op}
    (event : executes slot (.act i op answer) = true) :
    op.RunsAt slot ∧ ∀ work, op ≠ .spawn work := by
  cases op with
  | execute frame context =>
    have here : frame.slot context.agentNid = some slot := of_decide_eq_true event
    exact ⟨here, fun work => by simp⟩
  | _ => cases event

theorem exec_keyed {op : Op} {answer : Answer op} {world next : World}
    (exec : exec op world answer next)
    (keeps : op.Keeps slot hash ∨ ∃ scope key now, op = .cacheGet scope key now)
    (keyed : world.idempotency.Keyed slot hash) : next.idempotency.Keyed slot hash := by
  cases op with
  | cacheGet scope key now =>
    obtain ⟨-, rfl⟩ := exec
    exact keyed.get
  | tryStore scope key entry now =>
    obtain ⟨-, rfl⟩ := exec
    rcases keeps with keeps | ⟨scope', key', now', same⟩
    · exact keyed.tryStore keeps
    · cases same
  | taskGet taskId => exact exec.2 ▸ keyed
  | tryTransition now taskId expected new => exact exec.2 ▸ keyed
  | newCancellation => exact exec.2 ▸ keyed
  | isCancelled token => exact exec.2 ▸ keyed
  | getCancellation taskId => exact exec.2 ▸ keyed
  | genHex bytes => exact exec.2 ▸ keyed
  | _ => exact (show next = _ from exec) ▸ keyed

section Steps
variable [Formats]

theorem spawned {op : Op} {call : Call}
    (member : (call, p) ∈ ((node opt).spawns op).map fun call => (call, (node opt).program call)) :
    ∃ work, op = .spawn work ∧ call = .task work ∧ p = (fun _ => none) <$> runAsyncTask work := by
  cases op with
  | spawn work =>
    cases List.mem_singleton.mp member
    exact ⟨work, rfl, rfl, rfl⟩
  | _ => cases member

theorem spawns_few (opt : ActionNodeOptions) (op : Op) : ((node opt).spawns op).length ≤ 1 := by
  cases op <;> simp [node]

def after (opt : ActionNodeOptions) (s : Requests × History) (shared : World) (i : Nat) (call : Call)
    (op : Op) (next : Answer op → Program (Option ActionResponse)) (answer : Answer op) :
    Requests × History :=
  (⟨shared, s.1.threads.set i (call, next answer) ++
      ((node opt).spawns op).map fun call => (call, (node opt).program call)⟩,
    s.2 ++ [.act i op answer])

section Act
variable {i : Nat} {call : Call} {op : Op} {next : Answer op → Program (Option ActionResponse)}
  {answer : Answer op} {shared : World}

theorem engaged_after {j : Nat} {other : Call} {q : Program (Option ActionResponse)}
    (there : (after opt s shared i call op next answer).1.threads[j]? = some (other, q))
    (engaged : Engaged slot hash q) :
    (j ≠ i ∧ s.1.threads[j]? = some (other, q)) ∨ (j = i ∧ Engaged slot hash (next answer)) ∨
      (j = s.1.threads.length ∧ op.RunsAt slot ∧ ∃ work, op = .spawn work) := by
  rcases getElem?_set_append there with old | ⟨same, self⟩ | ⟨low, high, new⟩
  · exact .inl old
  · cases self
    exact .inr (.inl ⟨same, engaged⟩)
  · obtain ⟨work, rfl, rfl, rfl⟩ := spawned new
    have few := spawns_few opt (.spawn work)
    rw [List.length_map] at high
    exact .inr (.inr ⟨by omega, task_runner engaged.2, work, rfl⟩)

theorem Orderly.act (orderly : Orderly opt slot hash s)
    (found : s.1.threads[i]? = some (call, .call op next))
    (acted : Acted opt slot hash s call op next answer) :
    Orderly opt slot hash (after opt s shared i call op next answer) := by
  have bound : i < s.1.threads.length := (List.getElem?_eq_some_iff.mp found).1
  -- no other request may execute once this one may, or starts to
  have starts : op.RunsAt slot → ∀ j ≠ i, ∀ other q, s.1.threads[j]? = some (other, q) →
      ¬ Engaged slot hash q := by
    intro runs j different other q there engaged
    exact different (orderly.single j i other call q _ there found engaged (acted.runs runs))
  have alone : Engaged slot hash (next answer) → ∀ j ≠ i, ∀ other q,
      s.1.threads[j]? = some (other, q) → ¬ Engaged slot hash q := by
    intro own j different other q there engaged
    rcases (acted.engaged own).2 with before | untouched
    · exact different (orderly.single j i other call q _ there found engaged before)
    · exact untouched.idle there engaged
  have unrun : op.RunsAt slot → executions slot s.2 = 0 := by
    intro runs
    by_contra some_
    exact orderly.spent (Nat.pos_of_ne_zero some_) i call _ found (acted.runs runs)
  constructor
  · intro j other q there
    rcases getElem?_set_append there with ⟨-, old⟩ | ⟨rfl, self⟩ | ⟨-, -, new⟩
    · exact orderly.threads j other q old
    · cases self
      exact acted.goes
    · obtain ⟨work, rfl, rfl, rfl⟩ := spawned new
      rcases acted.keeps with keeps | ⟨scope, key, now, same⟩
      · exact .inr (task_bound work keeps)
      · cases same
  · intro j k one other q r first second engaged engaged'
    rcases engaged_after first engaged with ⟨away, old⟩ | ⟨rfl, own⟩ | ⟨rfl, runs, -⟩
    · rcases engaged_after second engaged' with ⟨-, old'⟩ | ⟨rfl, own⟩ | ⟨rfl, runs, -⟩
      · exact orderly.single j k one other q r old old' engaged engaged'
      · exact absurd engaged (alone own j away one q old)
      · exact absurd engaged (starts runs j away one q old)
    · rcases engaged_after second engaged' with ⟨away, old'⟩ | ⟨rfl, -⟩ | ⟨rfl, runs, -⟩
      · exact absurd engaged' (alone own k away other r old')
      · rfl
      · exact absurd runs (acted.engaged own).1
    · rcases engaged_after second engaged' with ⟨away, old'⟩ | ⟨rfl, own⟩ | ⟨rfl, -, -⟩
      · exact absurd engaged' (starts runs k away other r old')
      · exact absurd runs (acted.engaged own).1
      · rfl
  · change executions slot (s.2 ++ [.act i op answer]) ≤ 1
    rw [executions_append]
    split
    · rename_i event
      rw [unrun (executes_runs event).1]
    · exact orderly.ran
  · intro some_ j other q there engaged
    change 0 < executions slot (s.2 ++ [.act i op answer]) at some_
    rw [executions_append] at some_
    cases event : executes slot (.act i op answer) with
    | true =>
      obtain ⟨runs, unspawned⟩ := executes_runs event
      rcases engaged_after there engaged with ⟨away, old⟩ | ⟨rfl, own⟩ | ⟨-, -, work, same⟩
      · exact starts runs j away other q old engaged
      · exact (acted.engaged own).1 runs
      · exact unspawned work same
    | false =>
      rw [event] at some_
      rcases engaged_after there engaged with ⟨-, old⟩ | ⟨rfl, own⟩ | ⟨-, runs, -⟩
      · exact orderly.spent some_ j other q old engaged
      · rcases (acted.engaged own).2 with before | untouched
        · exact orderly.spent some_ j call _ found before
        · rw [untouched.unrun] at some_
          cases some_
      · exact orderly.spent some_ i call _ found (acted.runs runs)
  · intro j frame context answer' member here
    rcases List.mem_append.mp member with old | new
    · exact orderly.params j frame context answer' old here
    · cases List.mem_singleton.mp new
      rcases acted.keeps with keeps | ⟨scope, key, now, same⟩
      · exact keeps here
      · cases same
  · intro j event member looks
    have longer : s.1.threads.length ≤ (after opt s shared i call op next answer).1.threads.length := by
      simp [after]
    rcases List.mem_append.mp member with old | new
    · exact (orderly.past j event old looks).trans_le longer
    · cases List.mem_singleton.mp new
      cases op with
      | cacheGet scope key now =>
        obtain ⟨rfl, -⟩ := looks
        exact bound.trans_le longer
      | _ => exact False.elim looks
  · rintro j req frame q there parsed ⟨event, member, looks⟩
    rcases getElem?_set_append there with ⟨away, old⟩ | ⟨rfl, self⟩ | ⟨-, -, new⟩
    · rcases List.mem_append.mp member with earlier | now
      · exact orderly.told j req frame q old parsed ⟨event, earlier, looks⟩
      · cases List.mem_singleton.mp now
        cases op with
        | cacheGet scope key now => exact absurd looks.1.symm away
        | _ => exact False.elim looks
    · cases self
      rcases List.mem_append.mp member with earlier | now
      · rcases orderly.told j req frame _ found parsed ⟨event, earlier, looks⟩ with same | same
        · exact .inl same
        · cases same
      · cases List.mem_singleton.mp now
        cases op with
        | cacheGet scope key time => exact acted.told scope key time req frame rfl looks.2 rfl parsed
        | _ => exact False.elim looks
    · obtain ⟨work, -, same, -⟩ := spawned new
      cases same

end Act

theorem start_request {after_ : Requests} {event : Event Answer Call}
    (step : NodeStep opt s.1 event after_) :
    (∃ req, event = .start (.request req) ∧ after_ = { s.1 with
      threads := s.1.threads ++ [(.request req, some <$> handleInvoke opt req)] }) ∨
    ∃ i call op next answer shared, event = .act i op answer ∧
      s.1.threads[i]? = some (call, .call op next) ∧ exec op s.1.shared answer shared ∧
      (after_, s.2 ++ [event]) = after opt s shared i call op next answer := by
  obtain ⟨outside, step⟩ := step
  cases step with
  | start call =>
    cases call with
    | request req => exact .inl ⟨req, rfl, rfl⟩
    | task work => exact False.elim outside
  | act found exec => exact .inr ⟨_, _, _, _, _, _, rfl, found, exec, rfl⟩

section Start
variable {req : InvokeRequest}

def started (opt : ActionNodeOptions) (s : Requests × History) (req : InvokeRequest) :
    Requests × History :=
  ({ s.1 with threads := s.1.threads ++ [(.request req, some <$> handleInvoke opt req)] },
    s.2 ++ [.start (.request req)])

theorem request_idle : ¬ Engaged slot hash (some <$> handleInvoke opt req) := by
  rcases request_fresh req with waiting | avoids
  · exact waiting.not_engaged
  · exact fun engaged => not_runner_of_avoids avoids engaged.2

theorem Orderly.start (orderly : Orderly opt slot hash s) :
    Orderly opt slot hash (started opt s req) := by
  have quiet : executions slot (started opt s req).2 = executions slot s.2 := executions_append _ _
  constructor
  · intro i call p found
    rcases getElem?_concat found with old | ⟨-, new⟩
    · exact orderly.threads i call p old
    · cases new
      exact (request_fresh req).imp_right .of_avoids
  · intro i j one other p q first second engaged engaged'
    rcases getElem?_concat first with old | ⟨-, new⟩
    · rcases getElem?_concat second with old' | ⟨-, new⟩
      · exact orderly.single i j one other p q old old' engaged engaged'
      · cases new
        exact absurd engaged' request_idle
    · cases new
      exact absurd engaged request_idle
  · rw [quiet]
    exact orderly.ran
  · intro some_ i call p found
    rw [quiet] at some_
    rcases getElem?_concat found with old | ⟨-, new⟩
    · exact orderly.spent some_ i call p old
    · cases new
      exact request_idle
  · intro i frame context answer member here
    rcases List.mem_append.mp member with old | new
    · exact orderly.params i frame context answer old here
    · cases List.mem_singleton.mp new
  · intro i event member looks
    rcases List.mem_append.mp member with old | new
    · have longer : s.1.threads.length ≤ (started opt s req).1.threads.length := by simp [started]
      exact (orderly.past i event old looks).trans_le longer
    · cases List.mem_singleton.mp new
      exact False.elim looks
  · rintro i other frame p found parsed ⟨event, member, looks⟩
    rcases List.mem_append.mp member with earlier | new
    · rcases getElem?_concat found with old | ⟨rfl, -⟩
      · exact orderly.told i other frame p old parsed ⟨event, earlier, looks⟩
      · exact absurd (orderly.past _ event earlier looks) (Nat.lt_irrefl _)
    · cases List.mem_singleton.mp new
      exact False.elim looks

theorem Untouched.start (untouched : Untouched opt slot s) :
    Untouched opt slot (started opt s req) := by
  constructor
  · intro i event member
    rcases List.mem_append.mp member with old | new
    · exact untouched.unseen i event old
    · cases List.mem_singleton.mp new
      exact False.elim
  · exact (executions_append _ _).trans untouched.unrun
  · intro i call p found
    rcases getElem?_concat found with old | ⟨-, new⟩
    · exact untouched.threads i call p old
    · cases new
      exact request_fresh req

end Start

section Whole
variable {t : Requests × History} {event : Event Answer Call}

theorem Held.step (held : Held opt slot hash s)
    (step : Transition.Guarded Remembered (Transition.Recorded (NodeStep opt)) s event t) :
    Held opt slot hash t := by
  obtain ⟨remembered, step, grown⟩ := step
  obtain ⟨i, known, member, looks⟩ := held.seen
  have seen : ∃ i, ∃ event ∈ t.2, LooksUp slot i event := by
    rw [grown]
    exact ⟨i, known, List.mem_append_left _ member, looks⟩
  rcases start_request step with ⟨req, rfl, same⟩ | ⟨k, call, op, next, answer, shared, rfl, found, exec, same⟩
  · have whole : t = started opt s req := Prod.ext same grown
    subst whole
    exact ⟨held.toOrderly.start, seen, held.cache⟩
  · have whole : t = after opt s shared k call op next answer := by
      rw [← same, ← grown]
    subst whole
    have acted : Acted opt slot hash s call op next answer := by
      rcases held.threads k call _ found with ⟨req, frame, rfl, parsed, own, until_⟩ | bound
      · rcases until_ answer with ⟨idle, later⟩ | consulted
        · exact .of_waiting idle ⟨req, frame, rfl, parsed, own, later⟩
        · obtain ⟨scope, name, now, rfl, here⟩ := consulted.op
          cases Option.some.inj (here.symm.trans own)
          obtain ⟨-, -, context, -, goes⟩ := consulted
          obtain ⟨given, -⟩ := exec
          rcases get_spec with ⟨entry, hit, stored⟩ | ⟨-, gone⟩
          · rw [hit] at given
            subst given
            exact .of_hit parsed goes (held.cache entry stored)
          · rcases remembered with live | never
            · exact absurd live gone
            · exact absurd looks (never i known member)
      · exact .of_bound bound
    exact ⟨held.toOrderly.act found acted, seen, exec_keyed exec acted.keeps held.cache⟩

theorem Untouched.act {i : Nat} {call : Call} {op : Op}
    {next : Answer op → Program (Option ActionResponse)} {answer : Answer op} {shared : World}
    (untouched : Untouched opt slot s) (avoids : op.Avoids slot)
    (goes : Waiting opt slot call (next answer) ∨ Only (Op.Avoids slot) (next answer)) :
    Untouched opt slot (after opt s shared i call op next answer) := by
  constructor
  · intro j event member looks
    rcases List.mem_append.mp member with old | new
    · exact untouched.unseen j event old looks
    · cases List.mem_singleton.mp new
      cases op with
      | cacheGet scope name now => exact avoids looks.2
      | _ => exact False.elim looks
  · change executions slot (s.2 ++ [.act i op answer]) = 0
    rw [executions_append, untouched.unrun]
    split
    · rename_i event
      exact absurd (executes_runs event).1 (Op.Avoids.not_runsAt op avoids)
    · rfl
  · intro j other q there
    rcases getElem?_set_append there with ⟨-, old⟩ | ⟨rfl, self⟩ | ⟨-, -, new⟩
    · exact untouched.threads j other q old
    · cases self
      exact goes
    · obtain ⟨work, rfl, rfl, rfl⟩ := spawned new
      have own : Only (Op.Of work.frame work.context.agentNid)
          ((fun _ => (none : Option ActionResponse)) <$> runAsyncTask work) :=
        (runAsyncTask_of work).bind fun _ => trivial
      exact .inr (own.mono (Op.Of.avoids · avoids))

/-- Until the slot is looked up nothing happens to it; then it belongs to the parameters of the
outcome that was found, or of the request that found none. -/
theorem Untouched.step (untouched : Untouched opt slot s)
    (step : Transition.Guarded Remembered (Transition.Recorded (NodeStep opt)) s event t) :
    Untouched opt slot t ∨ ∃ hash, Held opt slot hash t := by
  obtain ⟨-, step, grown⟩ := step
  rcases start_request step with ⟨req, rfl, same⟩ | ⟨i, call, op, next, answer, shared, rfl, found, exec, same⟩
  · have whole : t = started opt s req := Prod.ext same grown
    subst whole
    exact .inl untouched.start
  · have whole : t = after opt s shared i call op next answer := by
      rw [← same, ← grown]
    subst whole
    rcases untouched.threads i call _ found with ⟨req, frame, rfl, parsed, own, until_⟩ | avoids
    · rcases until_ answer with ⟨idle, later⟩ | consulted
      · exact .inl (untouched.act idle.avoids (.inl ⟨req, frame, rfl, parsed, own, later⟩))
      · obtain ⟨scope, name, now, rfl, here⟩ := consulted.op
        cases Option.some.inj (here.symm.trans own)
        obtain ⟨-, -, context, -, goes⟩ := consulted
        obtain ⟨given, rfl⟩ := exec
        have seen : ∃ j, ∃ event ∈ s.2 ++ [.act i (.cacheGet scope name now) answer],
            LooksUp (key scope name) j event :=
          ⟨i, _, List.mem_append_right _ (List.mem_singleton_self _), rfl, rfl⟩
        right
        rcases get_spec with ⟨entry, hit, stored⟩ | ⟨missed, -⟩
        · rw [hit] at given
          subst given
          have acted : Acted opt (key scope name) entry.paramsHash s _ _ next _ :=
            .of_hit parsed goes rfl
          refine ⟨entry.paramsHash, untouched.orderly.act found acted, seen, ?_⟩
          intro other there
          change (s.1.shared.idempotency.get now scope name).2.lookup _ = _ at there
          rw [hit, stored] at there
          cases there
          rfl
        · rw [missed] at given
          subst given
          have acted : Acted opt (key scope name) (hashParams frame.params) s _ _ next _ :=
            .of_miss parsed goes untouched
          refine ⟨hashParams frame.params, untouched.orderly.act found acted, seen, ?_⟩
          intro other there
          cases (get_missed missed).symm.trans there
    · exact .inl (untouched.act avoids.1 (.inr (avoids.2 answer)))

end Whole

def Executed (frame : ParsedActionFrame) (agentNid : Option String) (history : History) : Prop :=
  ∃ i context answer, .act i (.execute frame context) answer ∈ history ∧ context.agentNid = agentNid

/-- Requests for one slot are executed at most once, and one that has other parameters than the
executed request is answered with a conflict once it has looked the slot up. -/
structure Idempotent (s : Requests × History) : Prop where
  once : ∀ slot, executions slot s.2 ≤ 1
  conflict : ∀ (slot : String) (j : Nat) (one other : InvokeRequest) f g answer,
    one.frame = .ok f → f.slot one.agentNid = some slot → Executed f one.agentNid s.2 →
    s.1.threads[j]? = some (.request other, .done answer) → other.frame = .ok g →
    (∃ event ∈ s.2, LooksUp slot j event) → hashParams f.params ≠ hashParams g.params →
    answer = some idempotencyConflict

theorem run_held {world : World} {events : History} {t : Requests × History}
    (run : Transition.Run (Transition.Guarded Remembered (Transition.Recorded (NodeStep opt)))
      (⟨world, []⟩, []) events t) (slot : String) :
    Untouched opt slot t ∨ ∃ hash, Held opt slot hash t := by
  have fresh : Untouched opt slot (⟨world, []⟩, []) := by
    constructor
    · intro i event member
      cases member
    · rfl
    · intro i call p found
      cases found
  refine run.invariant (P := fun t => Untouched opt slot t ∨ ∃ hash, Held opt slot hash t)
    (fun known step => ?_) (.inl fresh)
  rcases known with untouched | ⟨hash, held⟩
  · exact untouched.step step
  · exact .inr ⟨hash, held.step step⟩

/-- A request is executed once for its key, as long as every later lookup of the key finds an
outcome that has not expired. -/
theorem executed_once {world : World} {events : History} {t : Requests × History}
    (run : Transition.Run (Transition.Guarded Remembered (Transition.Recorded (NodeStep opt)))
      (⟨world, []⟩, []) events t) : Idempotent t := by
  constructor
  · intro slot
    rcases run_held run slot with untouched | ⟨hash, held⟩
    · rw [untouched.unrun]
      exact Nat.zero_le 1
    · exact held.ran
  · rintro slot j one other f g answer parsed own ⟨k, context, done_, member, caller⟩ found parsed' looked differ
    have belongs : f.slot context.agentNid = some slot := by rw [caller, own]
    rcases run_held run slot with untouched | ⟨hash, held⟩
    · obtain ⟨event, there, looks⟩ := looked
      exact absurd looks (untouched.unseen j event there)
    · have executed := held.params k f context done_ member belongs
      rcases held.told j other g _ found parsed' looked with same | told
      · exact absurd (executed.trans same.symm) differ
      · cases told
        rfl

end Steps
end Law

namespace Twice

scoped instance formats : Formats := ⟨fun _ => "", fun _ => .null⟩

def opt : ActionNodeOptions where
  actions := AList.singleton "buy" {}
  pathPrefix := "/node"

def request (item : String) : InvokeRequest where
  headers := ∅
  body := .ok (.object [("action_id", .string "buy"), ("idempotency_key", .string "k"),
    ("params", .string item)])
  wireInputBytes := 0

/-- A provider that executes every action at once, and clocks that stand still. -/
def handler : (op : Op) → World → Answer op × World
  | .authorize _ _, s => (.ok (), s)
  | .execute _ _, s => ((), s)
  | .receive _, s => (.outcome (.ok {}), s)
  | .nowUtc, s => ((0 : Int), s)
  | .pastDeadline, s => (false, s)
  | .genHex bytes, s => (hexOf bytes 0 s.counter, { s with counter := (s.counter + 1) % 2 ^ 64 })
  | .cacheGet scope key now, s =>
    ((s.idempotency.get now scope key).1,
      { s with idempotency := (s.idempotency.get now scope key).2 })
  | .tryStore scope key entry now, s =>
    ((s.idempotency.tryStore now scope key entry).1,
      { s with idempotency := (s.idempotency.tryStore now scope key entry).2 })
  | .taskGet taskId, s => (s.taskStore.get taskId, s)
  | .tryTransition now taskId expected new, s =>
    ((s.taskStore.tryTransition now taskId expected new).1,
      { s with taskStore := (s.taskStore.tryTransition now taskId expected new).2 })
  | .task now op, s => ((), { s with taskStore := op.apply s.taskStore now })
  | .newCancellation, s => (s.tokens, { s with tokens := s.tokens + 1 })
  | .isCancelled token, s =>
    (decide (token ∈ s.cancelled),
      { s with cancelled := if decide (token ∈ s.cancelled) then token :: s.cancelled else s.cancelled })
  | .cancel token, s => ((), { s with cancelled := token :: s.cancelled })
  | .putCancellation taskId token, s =>
    ((), { s with taskCancellations := s.taskCancellations.insert taskId token })
  | .getCancellation taskId, s => (s.taskCancellations.lookup taskId, s)
  | .removeCancellation taskId, s =>
    ((), { s with taskCancellations := s.taskCancellations.erase taskId })
  | .spawn _, s => ((), s)

theorem handler_faithful (op : Op) (world : World) :
    exec op world (handler op world).1 (handler op world).2 := by
  cases op with
  | cacheGet scope key now => exact ⟨rfl, rfl⟩
  | tryStore scope key entry now => exact ⟨rfl, rfl⟩
  | taskGet taskId => exact ⟨rfl, rfl⟩
  | tryTransition now taskId expected new => exact ⟨rfl, rfl⟩
  | newCancellation => exact ⟨rfl, rfl⟩
  | isCancelled token => exact ⟨fun cancelled => decide_eq_true cancelled, rfl⟩
  | getCancellation taskId => exact ⟨rfl, rfl⟩
  | genHex bytes => exact ⟨⟨0, by decide, rfl⟩, rfl⟩
  | _ => rfl

def outside : Event Answer Call → Bool
  | .start (.task _) => false
  | _ => true

def looking : Event Answer Call → Bool
  | .act _ (.cacheGet _ _ _) _ => true
  | _ => false

theorem fromOutside {event : Event Answer Call} (out : outside event = true) (pool : Requests) :
    FromOutside pool event := by
  cases event with
  | start call =>
    cases call with
    | request req => trivial
    | task work => cases out
  | act i op answer => trivial

theorem remembered {event : Event Answer Call} (quiet : looking event = false)
    (s : Requests × History) : Remembered s event := by
  cases event with
  | start call => trivial
  | act i op answer =>
    cases op with
    | cacheGet scope key now => cases quiet
    | _ => trivial

theorem looking_of_looks {slot : String} {i : Nat} {event : Event Answer Call}
    (looks : LooksUp slot i event) : looking event = true := by
  cases event with
  | start call => exact False.elim looks
  | act thread op answer =>
    cases op with
    | cacheGet scope key now => rfl
    | _ => exact False.elim looks

/-- A script in which no task comes from outside is one run of the node. -/
theorem plays (moves : List (Move Call)) (pool : Requests) (history : History)
    (out : ((node opt).play handler moves pool).1.all outside = true) :
    Transition.Run (Transition.Recorded (NodeStep opt)) (pool, history)
      ((node opt).play handler moves pool).1
      (((node opt).play handler moves pool).2, history ++ ((node opt).play handler moves pool).1) :=
  ((System.run_play handler_faithful moves pool).guarded fun event member =>
    fromOutside (List.all_eq_true.mp out event member)).recorded history

/-- A part of a script in which nothing is looked up. -/
theorem quietly (moves : List (Move Call)) (pool : Requests) (history : History)
    (quiet : ((node opt).play handler moves pool).1.all (fun e => outside e && !looking e) = true) :
    Transition.Run (Transition.Guarded Remembered (Transition.Recorded (NodeStep opt))) (pool, history)
      ((node opt).play handler moves pool).1
      (((node opt).play handler moves pool).2, history ++ ((node opt).play handler moves pool).1) := by
  have each : ∀ event ∈ ((node opt).play handler moves pool).1,
      outside event = true ∧ looking event = false := by
    intro event member
    have both := List.all_eq_true.mp quiet event member
    exact ⟨(Bool.and_eq_true_iff.mp both).1, (Bool.not_eq_true' _).mp (Bool.and_eq_true_iff.mp both).2⟩
  have out : ((node opt).play handler moves pool).1.all outside = true :=
    List.all_eq_true.mpr fun event member => (each event member).1
  exact (plays moves pool history out).guarded fun event member =>
    remembered (each event member).2

/-- The first request up to its lookup, the lookup, the rest of it with the second request up to
its lookup, and that lookup. -/
def parts : List (List (Move Call)) :=
  [[.start (.request (request "a")), .run 0 3], [.run 0 1],
    [.run 0 20, .start (.request (request "b")), .run 1 3], [.run 1 1]]

def partAt (index : Nat) (pool : Requests) : History × Requests :=
  (node opt).play handler (parts.getD index []) pool

def first := partAt 0 ⟨{}, []⟩
def asked := partAt 1 first.2
def served := partAt 2 asked.2
def askedAgain := partAt 3 served.2

/-- The second request finds the outcome of the first one and is told of the conflict. -/
theorem conflict_told : ∃ events t answer,
    Transition.Run (Transition.Guarded Remembered (Transition.Recorded (NodeStep opt)))
      (⟨{}, []⟩, []) events t ∧ executions "buy\x1f\x1fk" t.2 ≤ 1 ∧
    t.1.threads[1]? = some (.request (request "b"), done answer) ∧
    answer = some idempotencyConflict := by
  have one := quietly (parts.getD 0 []) ⟨{}, []⟩ [] rfl
  have two : Transition.Run (Transition.Guarded Remembered (Transition.Recorded (NodeStep opt)))
      (first.2, first.1) asked.1 (asked.2, first.1 ++ asked.1) := by
    have run := plays (parts.getD 1 []) first.2 first.1 rfl
    refine .single ⟨.inr ?_, run.of_single⟩
    have none_ : first.1.all (!looking ·) = true := rfl
    intro i event member looks
    have quiet := List.all_eq_true.mp none_ event member
    rw [looking_of_looks looks] at quiet
    cases quiet
  have three := quietly (parts.getD 2 []) asked.2 (first.1 ++ asked.1) rfl
  have four : Transition.Run (Transition.Guarded Remembered (Transition.Recorded (NodeStep opt)))
      (served.2, first.1 ++ asked.1 ++ served.1) askedAgain.1
      (askedAgain.2, first.1 ++ asked.1 ++ served.1 ++ askedAgain.1) := by
    have run := plays (parts.getD 3 []) served.2 (first.1 ++ asked.1 ++ served.1) rfl
    exact .single ⟨.inl ⟨_, rfl, by decide⟩, run.of_single⟩
  have run := one.trans (two.trans (three.trans four))
  have law := executed_once run
  refine ⟨_, _, _, run, law.once _, rfl, ?_⟩
  refine law.conflict "buy\x1f\x1fk" 1 (request "a") (request "b") _ _ _ rfl rfl ?_ rfl rfl ?_ ?_
  · exact ⟨0, _, _, List.mem_of_getElem? (i := 5) rfl, rfl⟩
  · exact ⟨_, List.mem_of_getElem? (i := 14) rfl, rfl, rfl⟩
  · decide

/-- The second request runs between the lookup of the first one and its execution. -/
def script : List (Move Call) :=
  [.start (.request (request "a")), .run 0 4, .start (.request (request "b")), .run 1 20, .run 0 20]

/-- Both requests are executed and neither is told of the other one. -/
theorem executed_twice : ∃ events t f g,
    Transition.Run (Transition.Recorded (NodeStep opt)) (⟨{}, []⟩, []) events t ∧
    (request "a").frame = .ok f ∧ (request "b").frame = .ok g ∧
    f.slot none = some "buy\x1f\x1fk" ∧ g.slot none = some "buy\x1f\x1fk" ∧
    f.params ≠ g.params ∧ executions "buy\x1f\x1fk" t.2 = 2 ∧
    t.1.threads.map (fun thread => thread.2.map (Option.map ActionResponse.status)) =
      [done (some 200), done (some 200)] := by
  refine ⟨_, _, _, _, plays script ⟨{}, []⟩ [] rfl, rfl, rfl, rfl, rfl, fun same => ?_, rfl, rfl⟩
  have texts : some (Json.Value.string "a") = some (.string "b") := same
  simp at texts

end Twice
end Nps.Nwp.ActionServer
