import NpsSdk.Lib.Assoc
import NpsSdk.Nip.Frames
import NpsSdk.Nip.Reputation.LogEntry

/-! The evaluator of reputation policies: minimum assurance, the ban cache, the entries of the
log, then the rules of the policy. Clocks count whole seconds. -/
namespace Nps.Nwp
open Nip (AssuranceLevel TimeText)
open Nip.Reputation

structure ReputationRule where
  incident : String := "*"
  severity : String := ">=minor"
  withinDays : Option Nat := none
  count : Nat := 1

structure ReputationPolicy where
  enabled : Bool := true
  logSources : List String := []
  minAssuranceLevel : String := "anonymous"
  cacheTtlSeconds : Nat := 300
  banTtlSeconds : Nat := 3600
  onLogUnavailable : String := "allow"
  throttleOn : List ReputationRule := []
  rejectOn : List ReputationRule := []
  banOn : List ReputationRule := []

inductive RepOutcome where
  | accept | throttle | reject | ban
deriving DecidableEq

/-- From the mildest to the hardest. -/
def RepOutcome.rank : RepOutcome → Nat
  | accept => 0
  | throttle => 1
  | reject => 2
  | ban => 3

theorem RepOutcome.rank_le_ban (outcome : RepOutcome) : outcome.rank ≤ ban.rank := by
  cases outcome <;> decide

structure ReputationDecision where
  outcome : RepOutcome
  matchedRule : Option ReputationRule
  errorCode : Option String

def ReputationDecision.accept : ReputationDecision := ⟨.accept, none, none⟩

def decision (outcome : RepOutcome) (matchedRule : Option ReputationRule) (code : String) :
    ReputationDecision := ⟨outcome, matchedRule, some code⟩

def reject (code : String) : ReputationDecision := decision .reject none code

def severityFromWire (s : String) : Option Severity :=
  [Severity.info, .minor, .moderate, .major, .critical].find? fun level =>
    level.toWire == Text.lowerAscii s

def ReputationRule.needed (rule : ReputationRule) : Nat := if rule.count = 0 then 1 else rule.count

theorem ReputationRule.needed_pos (rule : ReputationRule) : 0 < rule.needed := by
  unfold needed
  split <;> omega

section
variable [TimeText]

/-- The instants of the platform count nanoseconds. -/
def withinDays (days : Nat) (entry : ReputationLogEntry) (nowUnix : Int) : Bool :=
  match TimeText.parse entry.timestamp with
  | none => false
  | some t => decide (nowUnix - t / 1000000000 ≤ days * 86400)

def ruleMatches (rule : ReputationRule) (entry : ReputationLogEntry) (nowUnix : Int) : Bool :=
  if rule.incident ≠ "*" ∧
      Text.lowerAscii (incidentWire entry) ≠ Text.lowerAscii rule.incident then false
  else
    let s := Text.trim rule.severity
    let (atLeast, levelStr) := match Text.stripPrefix? ">=" s with
      | some rest => (true, Text.trim rest)
      | none => (false, s)
    match severityFromWire levelStr with
    | none => false
    | some threshold =>
      if atLeast ∧ entry.severity.rank < threshold.rank then false
      else if ¬atLeast ∧ entry.severity ≠ threshold then false
      else match rule.withinDays with
        | none => true
        | some days => withinDays days entry nowUnix

/-- One pass over the entries, which stops at the match that reaches the count. -/
def reaches (rule : ReputationRule) (needed : Nat) (now : Int) :
    (matched : Nat) → List ReputationLogEntry → Bool
  | _, [] => false
  | matched, entry :: entries =>
    if !ruleMatches rule entry now then reaches rule needed now matched entries
    else if needed ≤ matched + 1 then true
    else reaches rule needed now (matched + 1) entries

def firstMatchingRule (rules : List ReputationRule) (entries : List ReputationLogEntry)
    (now : Int) : Option ReputationRule :=
  rules.find? fun rule => reaches rule rule.needed now 0 entries

end

structure DefaultReputationPolicyEvaluator where
  queryCache : Assoc String (List ReputationLogEntry × Int) := ∅
  banCache : Assoc String Int := ∅

/-- What each source answers about each NID; no entries are not the same as no answer. -/
abbrev LogSources := (source nid : String) → Option (List ReputationLogEntry)

structure Evaluation where
  requesterNid : String
  assurance : AssuranceLevel
  policy : ReputationPolicy
  now : Int
  log : LogSources

namespace DefaultReputationPolicyEvaluator

def primeCache (evaluator : DefaultReputationPolicyEvaluator) (nid : String)
    (entries : List ReputationLogEntry) (ttlSeconds now : Int) : DefaultReputationPolicyEvaluator :=
  { evaluator with queryCache := evaluator.queryCache.insert nid (entries, now + ttlSeconds) }

/-- An answer that is still fresh, when the policy caches at all. -/
def fresh (evaluator : DefaultReputationPolicyEvaluator) (call : Evaluation) :
    Option (List ReputationLogEntry) :=
  if 0 < call.policy.cacheTtlSeconds then
    match evaluator.queryCache.lookup call.requesterNid with
    | some (entries, expiry) => if expiry > call.now then some entries else none
    | none => none
  else none

/-- Whether the log was available, its entries, and the evaluator with its answer cached. -/
def fetchEntries (evaluator : DefaultReputationPolicyEvaluator) (call : Evaluation) :
    Bool × List ReputationLogEntry × DefaultReputationPolicyEvaluator :=
  match evaluator.fresh call with
  | some entries => (true, entries, evaluator)
  | none =>
    match call.policy.logSources.findSome? fun source => call.log source call.requesterNid with
    | some results =>
      (true, results, if 0 < call.policy.cacheTtlSeconds then
        evaluator.primeCache call.requesterNid results call.policy.cacheTtlSeconds call.now
      else evaluator)
    | none =>
      match evaluator.queryCache.lookup call.requesterNid with
      | some (entries, _) => (false, entries, evaluator)
      | none => (false, [], evaluator)

/-- A ban that has not run out. -/
def banned (evaluator : DefaultReputationPolicyEvaluator) (nid : String) (now : Int) : Bool :=
  match evaluator.banCache.lookup nid with
  | some expiry => decide (expiry > now)
  | none => false

end DefaultReputationPolicyEvaluator

def Evaluation.sufficient (call : Evaluation) : Bool :=
  call.assurance.meetsOrExceeds
    ((AssuranceLevel.fromWire call.policy.minAssuranceLevel).getD .anonymous)

section
variable [TimeText]
open DefaultReputationPolicyEvaluator

def DefaultReputationPolicyEvaluator.evaluate (evaluator : DefaultReputationPolicyEvaluator)
    (call : Evaluation) : ReputationDecision × DefaultReputationPolicyEvaluator :=
  if !call.policy.enabled then (.accept, evaluator)
  else if !call.sufficient then (reject "NWP-AUTH-ASSURANCE-TOO-LOW", evaluator)
  else if evaluator.banned call.requesterNid call.now then
    (decision .ban none "NWP-REPUTATION-BANNED", evaluator)
  else
    let (available, entries, evaluator) := evaluator.fetchEntries call
    if !available ∧ Text.lowerAscii call.policy.onLogUnavailable = "deny" then
      (reject "NWP-NODE-UNAVAILABLE", evaluator)
    else match firstMatchingRule call.policy.banOn entries call.now with
      | some rule =>
        let expiry := call.now + call.policy.banTtlSeconds
        (decision .ban (some rule) "NWP-REPUTATION-BANNED",
          { evaluator with banCache := evaluator.banCache.insert call.requesterNid expiry })
      | none => match firstMatchingRule call.policy.rejectOn entries call.now with
        | some rule => (decision .reject (some rule) "NWP-REPUTATION-REJECTED", evaluator)
        | none => match firstMatchingRule call.policy.throttleOn entries call.now with
          | some rule => (decision .throttle (some rule) "NWP-REPUTATION-THROTTLED", evaluator)
          | none => (.accept, evaluator)

variable {rule : ReputationRule} {rules : List ReputationRule} {now : Int}
  {entries entries' : List ReputationLogEntry}

/-- However the pass stops early, it only counts. -/
theorem reaches_iff {needed matched : Nat} (open_ : matched < needed) :
    reaches rule needed now matched entries = true ↔
      needed ≤ matched + entries.countP (ruleMatches rule · now) := by
  induction entries generalizing matched with
  | nil => simpa [reaches] using open_
  | cons entry rest ih =>
    rw [reaches, List.countP_cons]
    cases hit : ruleMatches rule entry now with
    | false => simpa using ih open_
    | true =>
      simp only [Bool.not_true, Bool.false_eq_true, if_false, if_true]
      split_ifs with full
      · simp only [true_iff]
        omega
      · rw [ih (by omega)]
        omega

theorem reaches_rule : reaches rule rule.needed now 0 entries = true ↔
    rule.needed ≤ entries.countP (ruleMatches rule · now) := by
  rw [reaches_iff rule.needed_pos, Nat.zero_add]

theorem firstMatchingRule_perm (same : entries.Perm entries') :
    firstMatchingRule rules entries now = firstMatchingRule rules entries' now := by
  unfold firstMatchingRule
  congr 1
  funext rule
  rw [Bool.eq_iff_iff, reaches_rule, reaches_rule, same.countP_eq]

/-- Fewer entries match no rule that more entries do not. -/
theorem firstMatchingRule_none (more : entries.Subperm entries')
    (none_ : firstMatchingRule rules entries' now = none) :
    firstMatchingRule rules entries now = none := by
  simp only [firstMatchingRule, List.find?_eq_none, reaches_rule] at none_ ⊢
  intro rule listed reached
  exact none_ rule listed (reached.trans (more.countP_le _))

end

theorem related_or_none {α β : Type} {r : α → β → Prop} {a : Option α} {b : Option β}
    (related : Option.Rel r a b) :
    (a = none ∧ b = none) ∨ ∃ x y, a = some x ∧ b = some y ∧ r x y := by
  cases related with
  | none => exact .inl ⟨rfl, rfl⟩
  | some related => exact .inr ⟨_, _, rfl, rfl, related⟩

section
variable {R : List ReputationLogEntry → List ReputationLogEntry → Prop}

/-- Sources that answer alike, with entries related by `R`. -/
def LogSources.Alike (R : List ReputationLogEntry → List ReputationLogEntry → Prop)
    (log log' : LogSources) : Prop :=
  ∀ source nid, Option.Rel R (log source nid) (log' source nid)

theorem LogSources.Alike.findSome? {log log' : LogSources} (alike : log.Alike R log') (nid : String)
    (sources : List String) : Option.Rel R (sources.findSome? fun source => log source nid)
      (sources.findSome? fun source => log' source nid) := by
  induction sources with
  | nil => exact .none
  | cons source rest ih =>
    rw [List.findSome?_cons, List.findSome?_cons]
    rcases related_or_none (alike source nid) with
      ⟨silent, silent'⟩ | ⟨entries, entries', told, told', related⟩
    · rw [silent, silent']
      exact ih
    · rw [told, told']
      exact .some related

namespace DefaultReputationPolicyEvaluator

/-- The same bans, and caches of entries related by `R` that expire alike. -/
structure Alike (R : List ReputationLogEntry → List ReputationLogEntry → Prop)
    (evaluator evaluator' : DefaultReputationPolicyEvaluator) : Prop where
  bans : evaluator.banCache = evaluator'.banCache
  queries : ∀ nid, Option.Rel (fun cached cached' => R cached.1 cached'.1 ∧ cached.2 = cached'.2)
    (evaluator.queryCache.lookup nid) (evaluator'.queryCache.lookup nid)

variable {evaluator evaluator' : DefaultReputationPolicyEvaluator} {call : Evaluation}
  {log' : LogSources}

theorem Alike.refl (reflexive : ∀ entries, R entries entries)
    (evaluator : DefaultReputationPolicyEvaluator) : Alike R evaluator evaluator where
  bans := rfl
  queries nid := by
    cases evaluator.queryCache.lookup nid with
    | none => exact .none
    | some cached => exact .some ⟨reflexive _, rfl⟩

theorem Alike.primeCache (alike : Alike R evaluator evaluator')
    {entries entries' : List ReputationLogEntry} (related : R entries entries') {nid : String}
    {ttlSeconds now : Int} : Alike R (evaluator.primeCache nid entries ttlSeconds now)
      (evaluator'.primeCache nid entries' ttlSeconds now) where
  bans := alike.bans
  queries other := by
    simp only [DefaultReputationPolicyEvaluator.primeCache, AList.lookup_insert_if]
    split
    · exact .some ⟨related, rfl⟩
    · exact alike.queries other

theorem Alike.fresh (alike : Alike R evaluator evaluator') (call : Evaluation)
    (log' : LogSources) :
    Option.Rel R (evaluator.fresh call) (evaluator'.fresh { call with log := log' }) := by
  unfold DefaultReputationPolicyEvaluator.fresh
  split
  · rcases related_or_none (alike.queries call.requesterNid) with
      ⟨missing, missing'⟩ | ⟨cached, cached', found, found', related, expiry⟩
    · rw [missing, missing']
      exact .none
    · rw [found, found']
      simp only [expiry]
      split
      · exact .some related
      · exact .none
  · exact .none

/-- Whatever is fetched is related, and leaves related evaluators. -/
theorem Alike.fetchEntries (alike : Alike R evaluator evaluator') (empty : R [] [])
    (sources : call.log.Alike R log') :
    let fetched := evaluator.fetchEntries call
    let fetched' := evaluator'.fetchEntries { call with log := log' }
    fetched.1 = fetched'.1 ∧ R fetched.2.1 fetched'.2.1 ∧ Alike R fetched.2.2 fetched'.2.2 := by
  simp only [DefaultReputationPolicyEvaluator.fetchEntries]
  rcases related_or_none (alike.fresh call log') with
    ⟨stale, stale'⟩ | ⟨entries, entries', kept, kept', related⟩
  · rw [stale, stale']
    rcases related_or_none (sources.findSome? call.requesterNid call.policy.logSources) with
      ⟨silent, silent'⟩ | ⟨entries, entries', told, told', related⟩
    · rw [silent, silent']
      rcases related_or_none (alike.queries call.requesterNid) with
        ⟨missing, missing'⟩ | ⟨cached, cached', found, found', related, expiry⟩
      · rw [missing, missing']
        exact ⟨rfl, empty, alike⟩
      · rw [found, found']
        exact ⟨rfl, related, alike⟩
    · rw [told, told']
      refine ⟨rfl, related, ?_⟩
      simp only
      split
      · exact alike.primeCache related
      · exact alike
  · rw [kept, kept']
    exact ⟨rfl, related, alike⟩

/-- Only a ban by a rule is recorded. -/
def record (evaluator : DefaultReputationPolicyEvaluator) (call : Evaluation)
    (outcome : RepOutcome) : DefaultReputationPolicyEvaluator :=
  if outcome = .ban then
    { evaluator with
      banCache := evaluator.banCache.insert call.requesterNid
        (call.now + call.policy.banTtlSeconds) }
  else evaluator

theorem Alike.record (alike : Alike R evaluator evaluator') (call : Evaluation) (log' : LogSources)
    (outcome : RepOutcome) :
    Alike R (evaluator.record call outcome)
      (evaluator'.record { call with log := log' } outcome) := by
  unfold DefaultReputationPolicyEvaluator.record
  split
  · exact ⟨by rw [alike.bans], alike.queries⟩
  · exact alike

theorem Alike.banned (alike : Alike R evaluator evaluator') (nid : String) (now : Int) :
    evaluator.banned nid now = evaluator'.banned nid now := by
  rw [DefaultReputationPolicyEvaluator.banned, DefaultReputationPolicyEvaluator.banned, alike.bans]

theorem banned_iff {nid : String} {now : Int} : evaluator.banned nid now = true ↔
    ∃ expiry, evaluator.banCache.lookup nid = some expiry ∧ now < expiry := by
  unfold banned
  cases evaluator.banCache.lookup nid with
  | none => simp
  | some expiry => simp

theorem fetchEntries_banCache :
    (evaluator.fetchEntries call).2.2.banCache = evaluator.banCache := by
  unfold fetchEntries
  cases evaluator.fresh call with
  | some entries => rfl
  | none =>
    cases call.policy.logSources.findSome? fun source => call.log source call.requesterNid with
    | some results =>
      simp only
      split <;> rfl
    | none => cases evaluator.queryCache.lookup call.requesterNid <;> rfl

variable [TimeText]

/-- What the rules make of the entries. -/
def verdict (policy : ReputationPolicy) (available : Bool) (entries : List ReputationLogEntry)
    (now : Int) : ReputationDecision :=
  if !available ∧ Text.lowerAscii policy.onLogUnavailable = "deny" then
    reject "NWP-NODE-UNAVAILABLE"
  else match firstMatchingRule policy.banOn entries now with
    | some rule => decision .ban (some rule) "NWP-REPUTATION-BANNED"
    | none => match firstMatchingRule policy.rejectOn entries now with
      | some rule => decision .reject (some rule) "NWP-REPUTATION-REJECTED"
      | none => match firstMatchingRule policy.throttleOn entries now with
        | some rule => decision .throttle (some rule) "NWP-REPUTATION-THROTTLED"
        | none => .accept

theorem evaluate_eq : evaluator.evaluate call =
    if !call.policy.enabled then (.accept, evaluator)
    else if !call.sufficient then (reject "NWP-AUTH-ASSURANCE-TOO-LOW", evaluator)
    else if evaluator.banned call.requesterNid call.now then
      (decision .ban none "NWP-REPUTATION-BANNED", evaluator)
    else
      let (available, entries, evaluator) := evaluator.fetchEntries call
      let decided := verdict call.policy available entries call.now
      (decided, evaluator.record call decided.outcome) := by
  unfold evaluate verdict record
  congr 3
  obtain ⟨available, entries, after⟩ := evaluator.fetchEntries call
  simp only
  split
  · rfl
  cases firstMatchingRule call.policy.banOn entries call.now with
  | some rule => rfl
  | none =>
    cases firstMatchingRule call.policy.rejectOn entries call.now with
    | some rule => rfl
    | none => cases firstMatchingRule call.policy.throttleOn entries call.now <;> rfl

theorem verdict_perm {policy : ReputationPolicy} {available : Bool} {now : Int}
    {entries entries' : List ReputationLogEntry} (same : entries.Perm entries') :
    verdict policy available entries now = verdict policy available entries' now := by
  unfold verdict
  rw [firstMatchingRule_perm same, firstMatchingRule_perm same, firstMatchingRule_perm same]

/-- More entries can only move the verdict up. -/
theorem verdict_mono {policy : ReputationPolicy} {available : Bool} {now : Int}
    {entries entries' : List ReputationLogEntry} (more : entries.Subperm entries') :
    (verdict policy available entries now).outcome.rank ≤
      (verdict policy available entries' now).outcome.rank := by
  unfold verdict
  split
  · exact le_rfl
  cases ban : firstMatchingRule policy.banOn entries' now with
  | some rule => exact RepOutcome.rank_le_ban _
  | none =>
    rw [firstMatchingRule_none more ban]
    cases reject : firstMatchingRule policy.rejectOn entries' now with
    | some rule =>
      cases firstMatchingRule policy.rejectOn entries now with
      | some rule => exact le_rfl
      | none =>
        cases firstMatchingRule policy.throttleOn entries now <;>
          simp [decision, ReputationDecision.accept, RepOutcome.rank]
    | none =>
      rw [firstMatchingRule_none more reject]
      cases throttle : firstMatchingRule policy.throttleOn entries' now with
      | some rule =>
        cases firstMatchingRule policy.throttleOn entries now <;>
          simp [decision, ReputationDecision.accept, RepOutcome.rank]
      | none => rw [firstMatchingRule_none more throttle]

/-- The order of the entries shows neither in the decision nor later. -/
theorem evaluate_perm (alike : Alike List.Perm evaluator evaluator')
    (sources : call.log.Alike List.Perm log') :
    (evaluator.evaluate call).1 = (evaluator'.evaluate { call with log := log' }).1 ∧
      Alike List.Perm (evaluator.evaluate call).2
        (evaluator'.evaluate { call with log := log' }).2 := by
  obtain ⟨available, related, after⟩ := alike.fetchEntries .nil sources
  rw [evaluate_eq, evaluate_eq, ← alike.banned]
  simp only [Evaluation.sufficient]
  split_ifs
  · exact ⟨rfl, alike⟩
  · exact ⟨rfl, alike⟩
  · exact ⟨rfl, alike⟩
  · simp only [← available, ← verdict_perm related]
    exact ⟨trivial, after.record call log' _⟩

theorem evaluate_mono (alike : Alike List.Subperm evaluator evaluator')
    (sources : call.log.Alike List.Subperm log') :
    (evaluator.evaluate call).1.outcome.rank ≤
      (evaluator'.evaluate { call with log := log' }).1.outcome.rank := by
  obtain ⟨available, related, _⟩ := alike.fetchEntries (.refl []) sources
  rw [evaluate_eq, evaluate_eq, ← alike.banned]
  simp only [Evaluation.sufficient]
  split_ifs
  · exact le_rfl
  · exact le_rfl
  · exact le_rfl
  · simp only [← available]
    exact verdict_mono related

/-- A ban counts for at least as long as it was pronounced for. -/
def BannedUntil (evaluator : DefaultReputationPolicyEvaluator) (nid : String) (expiry : Int) :
    Prop :=
  ∃ recorded, evaluator.banCache.lookup nid = some recorded ∧ expiry ≤ recorded

/-- A ban is only replaced after it has run out, and then by one that ends later. -/
theorem BannedUntil.evaluate {nid : String} {expiry : Int}
    (until_ : evaluator.BannedUntil nid expiry) :
    (evaluator.evaluate call).2.BannedUntil nid expiry := by
  rw [evaluate_eq]
  split_ifs with disabled low banned
  · exact until_
  · exact until_
  · exact until_
  have kept : (evaluator.fetchEntries call).2.2.BannedUntil nid expiry := by
    rw [BannedUntil, fetchEntries_banCache]
    exact until_
  simp only [record]
  split
  · obtain ⟨recorded, found, late⟩ := until_
    by_cases same : nid = call.requesterNid
    · refine ⟨call.now + call.policy.banTtlSeconds, by rw [same, AList.lookup_insert], ?_⟩
      have expired : ¬call.now < recorded := by
        intro early
        exact banned (banned_iff.mpr ⟨recorded, same ▸ found, early⟩)
      omega
    · refine ⟨recorded, ?_, late⟩
      rw [AList.lookup_insert_ne same, fetchEntries_banCache]
      exact found
  · exact kept

inductive Event where
  | evaluate (call : Evaluation)
  | primeCache (nid : String) (entries : List ReputationLogEntry) (ttlSeconds now : Int)

def step (evaluator : DefaultReputationPolicyEvaluator) : Event → DefaultReputationPolicyEvaluator
  | .evaluate call => (evaluator.evaluate call).2
  | .primeCache nid entries ttlSeconds now => evaluator.primeCache nid entries ttlSeconds now

theorem BannedUntil.step {nid : String} {expiry : Int} (until_ : evaluator.BannedUntil nid expiry)
    (event : Event) : (evaluator.step event).BannedUntil nid expiry := by
  cases event with
  | evaluate call => exact until_.evaluate
  | primeCache _ _ _ _ => exact until_

def run (evaluator : DefaultReputationPolicyEvaluator) (events : List Event) :
    DefaultReputationPolicyEvaluator := events.foldl step evaluator

theorem BannedUntil.run {nid : String} {expiry : Int} (until_ : evaluator.BannedUntil nid expiry)
    (events : List Event) : (evaluator.run events).BannedUntil nid expiry := by
  induction events generalizing evaluator with
  | nil => exact until_
  | cons event rest ih => exact ih (until_.step event)

theorem BannedUntil.bans {expiry : Int} (until_ : evaluator.BannedUntil call.requesterNid expiry)
    (enabled : call.policy.enabled) (sufficient : call.sufficient) (early : call.now < expiry) :
    (evaluator.evaluate call).1 = decision .ban none "NWP-REPUTATION-BANNED" := by
  obtain ⟨recorded, found, late⟩ := until_
  have banned : evaluator.banned call.requesterNid call.now = true :=
    banned_iff.mpr ⟨recorded, found, early.trans_le late⟩
  simp [evaluate_eq, enabled, sufficient, banned]

/-- A decision to ban is on record: it was already, or it is from now on. -/
theorem evaluate_ban (ban : (evaluator.evaluate call).1.outcome = .ban) :
    ∃ expiry, (evaluator.evaluate call).2.banCache.lookup call.requesterNid = some expiry ∧
      (call.now < expiry ∨ expiry = call.now + call.policy.banTtlSeconds) := by
  rw [evaluate_eq] at ban ⊢
  split_ifs at ban ⊢ with disabled low banned
  · cases ban
  · cases ban
  · obtain ⟨expiry, found, early⟩ := banned_iff.mp banned
    exact ⟨expiry, found, .inl early⟩
  · simp only at ban
    refine ⟨_, ?_, .inr rfl⟩
    simp only [record, ban, if_true]
    exact AList.lookup_insert _

end DefaultReputationPolicyEvaluator
end

section
variable [TimeText]
open DefaultReputationPolicyEvaluator

/-- The order of the entries changes nothing, more entries make no outcome milder, and a
recorded ban holds until it runs out, whatever is evaluated or cached in the meantime. -/
theorem evaluation_law :
    (∀ (evaluator evaluator' : DefaultReputationPolicyEvaluator) (call : Evaluation)
      (log' : LogSources), Alike List.Perm evaluator evaluator' →
      call.log.Alike List.Perm log' →
      (evaluator.evaluate call).1 = (evaluator'.evaluate { call with log := log' }).1 ∧
        Alike List.Perm (evaluator.evaluate call).2
          (evaluator'.evaluate { call with log := log' }).2) ∧
    (∀ (evaluator evaluator' : DefaultReputationPolicyEvaluator) (call : Evaluation)
      (log' : LogSources), Alike List.Subperm evaluator evaluator' →
      call.log.Alike List.Subperm log' →
      (evaluator.evaluate call).1.outcome.rank ≤
        (evaluator'.evaluate { call with log := log' }).1.outcome.rank) ∧
    (∀ (evaluator : DefaultReputationPolicyEvaluator) (call : Evaluation),
      (evaluator.evaluate call).1.outcome = .ban →
      ∃ expiry, (evaluator.evaluate call).2.banCache.lookup call.requesterNid = some expiry ∧
        (call.now < expiry ∨ expiry = call.now + call.policy.banTtlSeconds)) ∧
    (∀ (evaluator : DefaultReputationPolicyEvaluator) (nid : String) (expiry : Int),
      evaluator.banCache.lookup nid = some expiry →
      ∀ (events : List Event) (call : Evaluation), call.requesterNid = nid →
        call.policy.enabled → call.sufficient → call.now < expiry →
        ((evaluator.run events).evaluate call).1.outcome = .ban) := by
  refine ⟨?_, ?_, ?_, ?_⟩
  · intro evaluator evaluator' call log' alike sources
    exact evaluate_perm alike sources
  · intro evaluator evaluator' call log' alike sources
    exact evaluate_mono alike sources
  · intro evaluator call ban
    exact evaluate_ban ban
  · intro evaluator nid expiry found events call same enabled sufficient early
    subst same
    have until_ : (evaluator.run events).BannedUntil call.requesterNid expiry :=
      BannedUntil.run ⟨expiry, found, le_rfl⟩ events
    rw [until_.bans enabled sufficient early]
    rfl

end

namespace Gate
open DefaultReputationPolicyEvaluator

scoped instance times : TimeText := .table []

def entry (seq : Nat) : ReputationLogEntry where
  v := 1
  logId := "log"
  seq := seq
  timestamp := "2026-01-01T00:00:00Z"
  subjectNid := "a"
  incident := .certRevoked
  severity := .critical
  issuerNid := "b"
  signature := ""

/-- Two revocations ban; they are only asked for when the clock stands at 0. -/
def call (now : Int) (entries : List ReputationLogEntry) : Evaluation where
  requesterNid := "a"
  assurance := .anonymous
  policy := { logSources := ["log"], banOn := [{ count := 2 }] }
  now := now
  log _ _ := some entries

theorem law_applies :
    (evaluate {} (call 0 [entry 1, entry 2])).1 = (evaluate {} (call 0 [entry 2, entry 1])).1 ∧
    (evaluate {} (call 0 [entry 1])).1.outcome.rank ≤
      (evaluate {} (call 0 [entry 2, entry 1])).1.outcome.rank ∧
    (∃ expiry, (evaluate {} (call 0 [entry 1, entry 2])).2.banCache.lookup "a" = some expiry ∧
      ((0 : Int) < expiry ∨ expiry = 0 + 3600)) ∧
    ((run { banCache := AList.singleton "a" 9 } []).evaluate (call 8 [])).1.outcome = .ban := by
  obtain ⟨perm, mono, record, persist⟩ := evaluation_law
  refine ⟨?_, ?_, ?_, ?_⟩
  · exact (perm {} {} (call 0 [entry 1, entry 2]) _ (.refl (fun _ => .refl _) _)
      fun _ _ => .some (.swap _ _ [])).1
  · refine mono {} {} (call 0 [entry 1]) _ (.refl (fun _ => .refl _) _) fun _ _ => .some ?_
    exact List.singleton_subperm_iff.mpr (by simp)
  · exact record {} (call 0 [entry 1, entry 2]) (by decide +kernel)
  · exact persist _ "a" 9 rfl [] (call 8 []) rfl rfl (by decide) (by decide)

end Gate
end Nps.Nwp
