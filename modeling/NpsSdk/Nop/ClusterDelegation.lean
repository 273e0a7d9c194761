import NpsSdk.Lib.Interaction
import NpsSdk.Lib.Json

/-! Resolving a delegation to the active anchor of a cluster, with a cache that anchor
failovers update while lookups are under way. -/
namespace Nps.Nop.ClusterDelegation
open Interaction Interaction.Prog Transition

structure DelegateFrame where
  taskId : String
  subtaskId : String
  action : String
  targetNid : String
  inputs : Option Json.Value
  config : Option Json.Value
  idempotencyKey : Option String
  targetClusterAnchor : Option String

structure ClusterAnchorInfo where
  activeNid : String
  clusterEpoch : UInt64
deriving DecidableEq

/-- The cached active anchor of each cluster. -/
abbrev Cache := List (String × ClusterAnchorInfo)

/-- The sections under the lock and the registry lookup, which takes no lock. -/
inductive ResolverOp where
  | get (cluster : String)
  | resolveCluster (cluster : String)
  | insert (cluster : String) (info : ClusterAnchorInfo)
  | compareThenSet (cluster successorNid : String) (epoch : UInt64)

def ResolverOp.Answer : ResolverOp → Type
  | get _ => Option ClusterAnchorInfo
  | resolveCluster _ => Option ClusterAnchorInfo
  | insert _ _ => Unit
  | compareThenSet _ _ _ => Bool

inductive Reply where
  | active (info : Option ClusterAnchorInfo)
  | target (nid : Option String)
  | accepted (forward : Bool)

abbrev Resolver := Prog ResolverOp.Answer

/-- The second half of `resolve_active`: a positive answer of the registry is cached as it is. -/
def resolveFresh (cluster : String) : Resolver (Option ClusterAnchorInfo) :=
  .call (.resolveCluster cluster) fun
    | none => .done none
    | some fresh => .call (.insert cluster fresh) fun _ => .done (some fresh)

def resolveActive (cluster : String) : Resolver (Option ClusterAnchorInfo) :=
  if cluster = "" then .done none
  else .call (.get cluster) fun
    | some hit => .done (some hit)
    | none => resolveFresh cluster

def resolveDelegateTarget (frame : DelegateFrame) : Resolver (Option String) :=
  match frame.targetClusterAnchor with
  | none => .done (some frame.targetNid)
  | some cluster =>
    if cluster = "" then .done (some frame.targetNid)
    else (resolveActive cluster).map fun info => info.map ClusterAnchorInfo.activeNid

def onAnchorFailover (cluster successorNid : String) (epoch : UInt64) : Resolver Bool :=
  if cluster = "" ∨ successorNid = "" then .done false
  else .call (.compareThenSet cluster successorNid epoch) .done

/-- Stale news leaves the cache as it is. -/
def Cache.compareThenSet (cache : Cache) (cluster successorNid : String) (epoch : UInt64) :
    Bool × Cache :=
  match Json.get cluster cache with
  | some current =>
    if epoch ≤ current.clusterEpoch then (false, cache)
    else (true, Json.insert cluster ⟨successorNid, epoch⟩ cache)
  | none => (true, Json.insert cluster ⟨successorNid, epoch⟩ cache)

inductive Call where
  | resolveActive (cluster : String)
  | resolveDelegateTarget (frame : DelegateFrame)
  | onAnchorFailover (cluster successorNid : String) (epoch : UInt64)

def Call.program : Call → Resolver Reply
  | resolveActive cluster => (ClusterDelegation.resolveActive cluster).map .active
  | resolveDelegateTarget frame => (ClusterDelegation.resolveDelegateTarget frame).map .target
  | onAnchorFailover cluster successorNid epoch =>
    (ClusterDelegation.onAnchorFailover cluster successorNid epoch).map .accepted

/-- The registry may answer anything, however old. -/
def exec : (op : ResolverOp) → Cache → op.Answer → Cache → Prop
  | .get cluster, cache, answer, after => answer = Json.get cluster cache ∧ after = cache
  | .resolveCluster _, cache, _, after => after = cache
  | .insert cluster info, cache, _, after => after = Json.insert cluster info cache
  | .compareThenSet cluster successorNid epoch, cache, answer, after =>
    (answer, after) = cache.compareThenSet cluster successorNid epoch

/-- Any number of calls side by side; each section under the lock is one step. -/
def resolver : System ResolverOp.Answer Cache Call Reply where
  program := Call.program
  exec := exec

abbrev ResolverPool := Pool ResolverOp.Answer Cache Call Reply

/-- No cluster is forgotten or falls back to an older anchor. -/
def Forward (cache later : Cache) : Prop :=
  ∀ cluster known, Json.get cluster cache = some known →
    ∃ info, Json.get cluster later = some info ∧ known.clusterEpoch ≤ info.clusterEpoch

/-- What is inserted is no older than what the cache holds. -/
def Current (cache : Cache) : ResolverOp → Prop
  | .insert cluster fresh => ∀ known, Json.get cluster cache = some known →
      known.clusterEpoch ≤ fresh.clusterEpoch
  | _ => True

def Holds {α : Type} (cluster : String) (fresh : ClusterAnchorInfo) (rest : Resolver α) : Prop :=
  ∃ next, rest = .call (.insert cluster fresh) next

/-- No call but the one that acts is about to insert an anchor of the cluster older than this. -/
def Undercut (pool : ResolverPool) (thread : Nat) (cluster : String) (epoch : UInt64) : Prop :=
  ∀ (i : Nat) call rest fresh, i ≠ thread → pool.threads[i]? = some (call, rest) →
    Holds cluster fresh rest → epoch ≤ fresh.clusterEpoch

/-- The registry answers with nothing older than the cache holds by then, and between its answer and
the insertion nobody else caches a newer anchor of the cluster. -/
def Undisturbed (pool : ResolverPool) : Event ResolverOp.Answer Call → Prop
  | .act _ (.resolveCluster cluster) answer => ∀ fresh known, answer = some fresh →
      Json.get cluster pool.shared = some known → known.clusterEpoch ≤ fresh.clusterEpoch
  | .act thread (.compareThenSet cluster _ epoch) _ => Undercut pool thread cluster epoch
  | .act thread (.insert cluster info) _ => Undercut pool thread cluster info.clusterEpoch
  | _ => True

/-- The cluster a call resolves, when its answer comes from the cache or the registry. -/
def Call.cluster : Call → Option String
  | resolveActive cluster => some cluster
  | resolveDelegateTarget frame => frame.targetClusterAnchor.filter (· ≠ "")
  | onAnchorFailover _ _ _ => none

def Reply.Names (reply : Reply) (info : ClusterAnchorInfo) : Prop :=
  reply = .active (some info) ∨ reply = .target (some info.activeNid)

/-- A reply that names an anchor. -/
def Reply.Routes : Reply → Prop
  | active info => info.isSome
  | target nid => nid.isSome
  | accepted _ => False

/-- Between the two pools this thread gives its reply. -/
def Replies (pool after : ResolverPool) (call : Call) (reply : Reply) : Prop :=
  ∃ (thread : Nat) (op : ResolverOp) (next : op.Answer → Resolver Reply),
    pool.threads[thread]? = some (call, .call op next) ∧
      after.threads[thread]? = some (call, .done reply)

section Caches
variable {cache middle later : Cache} {op : ResolverOp} {answer : op.Answer}

theorem Forward.refl (cache : Cache) : Forward cache cache :=
  fun _ known found => ⟨known, found, UInt64.le_refl _⟩

theorem Forward.trans (first : Forward cache middle) (second : Forward middle later) :
    Forward cache later := by
  intro cluster known found
  obtain ⟨info, held, newer⟩ := first cluster known found
  obtain ⟨last, kept, newest⟩ := second cluster info held
  exact ⟨last, kept, UInt64.le_trans newer newest⟩

theorem forward_insert_iff {cluster : String} {fresh : ClusterAnchorInfo} :
    Forward cache (Json.insert cluster fresh cache) ↔
      ∀ known, Json.get cluster cache = some known → known.clusterEpoch ≤ fresh.clusterEpoch := by
  constructor
  · intro forward known found
    obtain ⟨info, held, newer⟩ := forward cluster known found
    rw [Json.get_insert_self] at held
    cases held
    exact newer
  · intro bounded other known found
    by_cases same : other = cluster
    · subst same
      exact ⟨fresh, Json.get_insert_self _ _ _, bounded known found⟩
    · exact ⟨known, (Json.get_insert_ne same _ _).trans found, UInt64.le_refl _⟩

theorem forward_compareThenSet (cluster successorNid : String) (epoch : UInt64) :
    Forward cache (cache.compareThenSet cluster successorNid epoch).2 := by
  unfold Cache.compareThenSet
  split
  · rename_i current held
    split
    · exact .refl cache
    · rename_i newer
      refine forward_insert_iff.mpr fun known found => ?_
      cases held.symm.trans found
      exact UInt64.le_of_lt (UInt64.not_le.mp newer)
  · rename_i free
    refine forward_insert_iff.mpr fun known found => ?_
    cases free.symm.trans found

/-- A section keeps the cache moving forward exactly when what it inserts is current. -/
theorem exec_forward_iff (step : exec op cache answer later) :
    Forward cache later ↔ Current cache op := by
  cases op with
  | get cluster =>
    rw [step.2]
    exact iff_of_true (.refl cache) trivial
  | resolveCluster cluster =>
    cases step
    exact iff_of_true (.refl cache) trivial
  | insert cluster fresh =>
    cases step
    exact forward_insert_iff
  | compareThenSet cluster successorNid epoch =>
    have same : later = (cache.compareThenSet cluster successorNid epoch).2 := congrArg Prod.snd step
    rw [same]
    exact iff_of_true (forward_compareThenSet cluster successorNid epoch) trivial

end Caches

/-- The section read this anchor from the cache or put it there. -/
def Touches (cluster : String) (info : ClusterAnchorInfo) : (op : ResolverOp) → op.Answer → Prop
  | .get asked, answer => asked = cluster ∧ answer = some info
  | .insert asked fresh, _ => asked = cluster ∧ fresh = info
  | _, _ => False

theorem resolveActive_touches (cluster : String) :
    ReturnsBy (fun op answer result => ∃ info, result = some info ∧ Touches cluster info op answer)
      (fun result => result.isSome) (resolveActive cluster) := by
  unfold resolveActive
  split
  · exact nofun
  · rintro (_ | hit)
    · refine .inr ?_
      rintro (_ | fresh)
      · exact .inl ⟨none, rfl, nofun⟩
      · exact .inr fun _ => .inl ⟨some fresh, rfl, fun _ => ⟨fresh, rfl, rfl, rfl⟩⟩
    · exact .inl ⟨some hit, rfl, fun _ => ⟨hit, rfl, rfl, rfl⟩⟩

/-- A call that resolves a cluster names the anchor its last section touched. -/
theorem program_touches {call : Call} {cluster : String} (resolves : call.cluster = some cluster) :
    ReturnsBy (fun op answer reply => ∃ info, reply.Names info ∧ Touches cluster info op answer)
      Reply.Routes call.program := by
  cases call with
  | resolveActive asked =>
    cases resolves
    refine (resolveActive_touches cluster).map (fun _ => id) ?_
    rintro op answer _ ⟨info, rfl, touches⟩
    exact ⟨info, .inl rfl, touches⟩
  | resolveDelegateTarget frame =>
    obtain ⟨present, nonempty⟩ := Option.filter_eq_some_iff.mp resolves
    have program : resolveDelegateTarget frame =
        (resolveActive cluster).map fun info => info.map ClusterAnchorInfo.activeNid := by
      simp only [resolveDelegateTarget, present]
      exact if_neg (of_decide_eq_true nonempty)
    change ReturnsBy _ _ ((resolveDelegateTarget frame).map Reply.target)
    rw [program]
    have named : ReturnsBy
        (fun op answer nid => ∃ info, nid = some info.activeNid ∧ Touches cluster info op answer)
        (fun nid => nid.isSome)
        ((resolveActive cluster).map fun info => info.map ClusterAnchorInfo.activeNid) := by
      refine (resolveActive_touches cluster).map (fun result some => ?_) ?_
      · simpa using some
      · rintro op answer _ ⟨info, rfl, touches⟩
        exact ⟨info, rfl, touches⟩
    refine named.map (fun _ => id) ?_
    rintro op answer _ ⟨info, rfl, touches⟩
    exact ⟨info, .inr rfl, touches⟩
  | onAnchorFailover asked successorNid epoch => cases resolves

theorem Touches.cached {cluster : String} {info : ClusterAnchorInfo} {op : ResolverOp}
    {answer : op.Answer} {cache later : Cache} (touches : Touches cluster info op answer)
    (step : exec op cache answer later) : Json.get cluster later = some info := by
  cases op with
  | get asked =>
    obtain ⟨rfl, rfl⟩ := touches
    obtain ⟨same, rfl⟩ := step
    exact same.symm
  | insert asked fresh =>
    obtain ⟨rfl, rfl⟩ := touches
    cases step
    exact Json.get_insert_self _ _ _
  | resolveCluster asked => cases touches
  | compareThenSet asked successorNid epoch => cases touches

abbrev UndisturbedStep := Guarded Undisturbed resolver.Step

/-- An anchor is inserted right after the registry has answered with it; this one is in hand. -/
def Inserts {α : Type} : (hand : Option (String × ClusterAnchorInfo)) → Resolver α → Prop
  | _, .done _ => True
  | hand, .call (.insert cluster fresh) next =>
    hand = some (cluster, fresh) ∧ ∀ answer, Inserts none (next answer)
  | _, .call (.resolveCluster cluster) next =>
    ∀ answer, Inserts (Option.map (cluster, ·) answer) (next answer)
  | _, .call _ next => ∀ answer, Inserts none (next answer)

theorem Inserts.map {α β : Type} {f : α → β} {hand : Option (String × ClusterAnchorInfo)}
    {p : Resolver α} (inserts : Inserts hand p) : Inserts hand (p.map f) := by
  induction p generalizing hand with
  | done result => trivial
  | call op next ih =>
    cases op with
    | insert cluster fresh => exact ⟨inserts.1, fun answer => ih answer (inserts.2 answer)⟩
    | _ => exact fun answer => ih answer (inserts answer)

theorem inserts_resolveActive (cluster : String) : Inserts none (resolveActive cluster) := by
  unfold resolveActive
  split
  · trivial
  · rintro (_ | hit)
    · rintro (_ | fresh)
      · trivial
      · exact ⟨rfl, fun _ => trivial⟩
    · trivial

theorem inserts_program (call : Call) : Inserts none call.program := by
  cases call with
  | resolveActive cluster => exact (inserts_resolveActive cluster).map
  | resolveDelegateTarget frame =>
    refine Inserts.map ?_
    unfold resolveDelegateTarget
    split
    · trivial
    split
    · trivial
    · exact (inserts_resolveActive _).map
  | onAnchorFailover cluster successorNid epoch =>
    refine Inserts.map ?_
    unfold onAnchorFailover
    split
    · trivial
    · exact fun _ => trivial

theorem Inserts.holds {α : Type} {hand : Option (String × ClusterAnchorInfo)} {rest : Resolver α}
    {cluster : String} {fresh : ClusterAnchorInfo} (inserts : Inserts hand rest)
    (holds : Holds cluster fresh rest) : hand = some (cluster, fresh) := by
  obtain ⟨next, rfl⟩ := holds
  exact inserts.1

/-- What is left of a call: its reply is still owed by a section to come, or given. -/
def Unanswered (call : Call) (rest : Resolver Reply) : Prop :=
  ∀ cluster, call.cluster = some cluster → (∃ reply, rest = .done reply) ∨
    ReturnsBy (fun op answer reply => ∃ info, reply.Names info ∧ Touches cluster info op answer)
      Reply.Routes rest

section Runs
variable {pool middle after : ResolverPool} {event : Event ResolverOp.Answer Call}
  {events : List (Event ResolverOp.Answer Call)}

/-- What every call has still to do: its reply is owed, it inserts what it was answered, and what it
is about to insert is no older than what the cache holds. -/
structure Resolving (pool : ResolverPool) : Prop where
  unanswered : ∀ (i : Nat) call rest, pool.threads[i]? = some (call, rest) → Unanswered call rest
  inserts : ∀ (i : Nat) call rest, pool.threads[i]? = some (call, rest) →
    ∃ hand, Inserts hand rest
  current : ∀ (i : Nat) call rest cluster fresh, pool.threads[i]? = some (call, rest) →
    Holds cluster fresh rest → Current pool.shared (.insert cluster fresh)

theorem Resolving.unanswered_step (resolving : Resolving pool) (step : resolver.Step pool event after)
    (i : Nat) (call : Call) (rest : Resolver Reply) (found : after.threads[i]? = some (call, rest)) :
    Unanswered call rest := by
  rcases step.threadAt found with old | ⟨op, next, answer, -, acted, -, rfl⟩ | ⟨-, rfl⟩
  · exact resolving.unanswered i call rest old
  · intro cluster resolves
    rcases resolving.unanswered i call _ acted cluster resolves with ⟨reply, finished⟩ | owes
    · cases finished
    · exact (owes answer).imp_left fun ⟨reply, finished, _⟩ => ⟨reply, finished⟩
  · exact fun cluster resolves => .inr (program_touches resolves)

/-- What others are about to insert stays current, as the step does not disturb them. -/
theorem Resolving.waits (resolving : Resolving pool) {thread : Nat} {op : ResolverOp}
    {answer : op.Answer} (undisturbed : Undisturbed pool (.act thread op answer)) {later : Cache}
    (exec : exec op pool.shared answer later) {i : Nat} {call : Call} {rest : Resolver Reply}
    {cluster : String} {fresh : ClusterAnchorInfo} (other : i ≠ thread)
    (found : pool.threads[i]? = some (call, rest)) (holds : Holds cluster fresh rest) :
    Current later (.insert cluster fresh) := by
  have before := resolving.current i call rest cluster fresh found holds
  have insert (asked : String) (info : ClusterAnchorInfo)
      (under : Undercut pool thread asked info.clusterEpoch) :
      Current (Json.insert asked info pool.shared) (.insert cluster fresh) := by
    intro known held
    by_cases same : cluster = asked
    · subst same
      rw [Json.get_insert_self] at held
      cases held
      exact under i call rest fresh other found holds
    · exact before known ((Json.get_insert_ne same _ _).symm.trans held)
  cases op with
  | get asked =>
    rw [exec.2]
    exact before
  | resolveCluster asked =>
    cases exec
    exact before
  | insert asked info =>
    cases exec
    exact insert asked info undisturbed
  | compareThenSet asked successorNid epoch =>
    have same : later = (pool.shared.compareThenSet asked successorNid epoch).2 :=
      congrArg Prod.snd exec
    rw [same, Cache.compareThenSet]
    split
    · split
      · exact before
      · exact insert asked ⟨successorNid, epoch⟩ undisturbed
    · exact insert asked ⟨successorNid, epoch⟩ undisturbed

theorem Resolving.step (resolving : Resolving pool) (step : UndisturbedStep pool event after) :
    Resolving after := by
  obtain ⟨undisturbed, step⟩ := step
  refine ⟨resolving.unanswered_step step, ?inserts, ?current⟩
  case inserts =>
    intro i call rest found
    rcases step.threadAt found with old | ⟨op, next, answer, -, acted, -, rfl⟩ | ⟨-, rfl⟩
    · exact resolving.inserts i call rest old
    · obtain ⟨hand, inserts⟩ := resolving.inserts i call _ acted
      cases op with
      | insert cluster fresh => exact ⟨none, inserts.2 answer⟩
      | _ => exact ⟨_, inserts answer⟩
    · exact ⟨none, inserts_program call⟩
  case current =>
    intro i call rest cluster fresh found holds
    cases step with
    | start fresh =>
      rcases getElem?_concat found with old | ⟨-, same⟩
      · exact resolving.current i call rest cluster _ old holds
      · cases same
        cases (inserts_program call).holds holds
    | @act thread caller op next answer shared acted exec =>
      rcases getElem?_set_append found with ⟨other, old⟩ | ⟨rfl, same⟩ | ⟨-, -, new⟩
      · exact resolving.waits undisturbed exec other old holds
      · cases same
        obtain ⟨hand, inserts⟩ := resolving.inserts i call _ acted
        cases op with
        | resolveCluster asked =>
          obtain ⟨found, rfl, same⟩ := Option.map_eq_some_iff.mp ((inserts answer).holds holds)
          cases same
          cases exec
          exact fun known held => undisturbed fresh known rfl held
        | insert asked info => cases (inserts.2 answer).holds holds
        | _ => cases (inserts answer).holds holds
      · cases new

theorem Resolving.forward (resolving : Resolving pool) (step : UndisturbedStep pool event after) :
    Forward pool.shared after.shared := by
  obtain ⟨-, step⟩ := step
  cases step with
  | start call => exact .refl _
  | @act thread caller op next answer shared acted exec =>
    refine (exec_forward_iff exec).mpr ?_
    cases op with
    | insert cluster fresh =>
      exact resolving.current thread caller _ cluster fresh acted ⟨next, rfl⟩
    | _ => trivial

theorem Resolving.routed (resolving : Resolving pool) (step : resolver.Step pool event after)
    {call : Call} {reply : Reply} {cluster : String} (replies : Replies pool after call reply)
    (resolves : call.cluster = some cluster) (routes : reply.Routes) :
    ∃ info, reply.Names info ∧ Json.get cluster after.shared = some info := by
  obtain ⟨thread, op, next, before, done⟩ := replies
  rcases step.threadAt done with old | ⟨acted, follow, answer, -, found, exec, result⟩ | ⟨fresh, -⟩
  · cases before.symm.trans old
  · cases before.symm.trans found
    rcases resolving.unanswered thread call _ before cluster resolves with ⟨other, finished⟩ | owes
    · cases finished
    · rcases owes answer with ⟨claimed, last, justified⟩ | owes
      · cases result.trans last
        obtain ⟨info, names, touches⟩ := justified routes
        exact ⟨info, names, touches.cached exec⟩
      · rw [← result] at owes
        exact absurd routes owes
  · exact absurd (List.getElem?_eq_some_iff.mp before).1 (Nat.not_lt.mpr fresh)

/-- As long as nobody comes between a look-up and its insertion, no step of any interleaving takes
the cache back, and whoever resolves a cluster is sent to an anchor at least as new as any that was
ever cached for it. -/
theorem moves_forward {start : Cache} {earlier later : List (Event ResolverOp.Answer Call)}
    {first last : ResolverPool} (before : Run UndisturbedStep ⟨start, []⟩ earlier first)
    (between : Run UndisturbedStep first later last) (step : UndisturbedStep last event after) :
    Forward first.shared after.shared ∧
      ∀ call reply cluster, Replies last after call reply → call.cluster = some cluster →
        reply.Routes → ∃ info, reply.Names info ∧
          ∀ known, Json.get cluster first.shared = some known →
            known.clusterEpoch ≤ info.clusterEpoch := by
  have initial : Resolving ⟨start, []⟩ := ⟨nofun, nofun, nofun⟩
  have here : Resolving first := before.invariant (fun resolving next => resolving.step next) initial
  obtain ⟨there, onward⟩ : Resolving last ∧ Forward first.shared last.shared :=
    between.invariant (P := fun pool => Resolving pool ∧ Forward first.shared pool.shared)
      (fun held next => ⟨held.1.step next, held.2.trans (held.1.forward next)⟩) ⟨here, .refl _⟩
  have forward := onward.trans (there.forward step)
  refine ⟨forward, fun call reply cluster replies resolves routes => ?_⟩
  obtain ⟨info, names, held⟩ := there.routed step.2 replies resolves routes
  refine ⟨info, names, fun known found => ?_⟩
  obtain ⟨cached, present, newer⟩ := forward cluster known found
  cases held.symm.trans present
  exact newer

end Runs

namespace Overtaken

def old : ClusterAnchorInfo := ⟨"a", 1⟩
def new : ClusterAnchorInfo := ⟨"b", 5⟩

def resolve : Call := .resolveActive "c"
def failover : Call := .onAnchorFailover "c" "b" 5

def looking : Resolver Reply := (resolveFresh "c").map .active

def holding (fresh : ClusterAnchorInfo) : Resolver Reply :=
  .call (.insert "c" fresh) fun _ => .done (.active (some fresh))

def newest : ClusterAnchorInfo := ⟨"d", 7⟩

def second : Call := .onAnchorFailover "c" "e" 6

/-- The failover arrives while the registry is asked. -/
def failedOver : ResolverPool :=
  ⟨[("c", new)], [(resolve, looking), (failover, .done (.accepted true))]⟩

/-- The registry has answered, and a failover to something older than its answer has arrived. -/
def answered : ResolverPool :=
  ⟨[("c", ⟨"e", 6⟩)], [(resolve, holding newest), (failover, .done (.accepted true)),
    (second, .done (.accepted true))]⟩

def inserted : ResolverPool :=
  ⟨[("c", newest)], [(resolve, .done (.active (some newest))), (failover, .done (.accepted true)),
    (second, .done (.accepted true))]⟩

theorem undercut_first {first : Resolver Reply} {others : List (Call × Resolver Reply)}
    {cache : Cache} {thread : Nat} {epoch : UInt64}
    (held : ∀ fresh, Holds "c" fresh first → thread = 0 ∨ epoch ≤ fresh.clusterEpoch)
    (none : ∀ other ∈ others, ∀ fresh, ¬ Holds "c" fresh other.2) :
    Undercut ⟨cache, (resolve, first) :: others⟩ thread "c" epoch := by
  intro i call rest fresh other found holds
  cases i with
  | zero =>
    cases found
    exact (held fresh holds).resolve_left fun same => other same.symm
  | succ i => exact absurd holds (none _ (List.mem_of_getElem? found) fresh)

theorem not_holds_done (reply : Reply) (fresh : ClusterAnchorInfo) :
    ¬ Holds "c" fresh (.done reply : Resolver Reply) := fun ⟨_, same⟩ => by cases same

theorem moves_forward_inserted : Forward failedOver.shared inserted.shared ∧
    ∃ info, Reply.Names (.active (some newest)) info ∧ new.clusterEpoch ≤ info.clusterEpoch := by
  have missed : UndisturbedStep ⟨[], [(resolve, resolve.program)]⟩ (.act 0 (.get "c") none)
      ⟨[], [(resolve, looking)]⟩ := ⟨trivial, .acts rfl ⟨rfl, rfl⟩ rfl⟩
  have failed : UndisturbedStep ⟨[], [(resolve, looking), (failover, failover.program)]⟩
      (.act 1 (.compareThenSet "c" "b" 5) true) failedOver := by
    refine ⟨undercut_first (fun fresh ⟨_, same⟩ => by cases same) ?_, .acts rfl rfl rfl⟩
    exact List.forall_mem_singleton.mpr fun fresh holds => by
      cases (inserts_program failover).holds holds
  have looked : UndisturbedStep failedOver (.act 0 (.resolveCluster "c") (some newest))
      ⟨[("c", new)], [(resolve, holding newest), (failover, .done (.accepted true))]⟩ := by
    refine ⟨?_, .acts rfl rfl rfl⟩
    rintro fresh known same held
    cases same
    cases held
    decide
  have again : UndisturbedStep
      ⟨[("c", new)], [(resolve, holding newest), (failover, .done (.accepted true)),
        (second, second.program)]⟩
      (.act 2 (.compareThenSet "c" "e" 6) true) answered := by
    refine ⟨undercut_first ?_ ?_, .acts rfl rfl rfl⟩
    · rintro fresh ⟨_, same⟩
      cases same
      exact .inr (by decide)
    · exact List.forall_mem_cons.mpr ⟨not_holds_done _,
        List.forall_mem_singleton.mpr fun fresh holds => by
        cases (inserts_program second).holds holds⟩
  have inserts : UndisturbedStep answered (.act 0 (.insert "c" newest) ()) inserted := by
    refine ⟨undercut_first (fun _ _ => .inl rfl) ?_, .acts rfl rfl rfl⟩
    exact List.forall_mem_cons.mpr ⟨not_holds_done _,
      List.forall_mem_singleton.mpr (not_holds_done _)⟩
  have starts (pool : ResolverPool) (call : Call) : UndisturbedStep pool (.start call)
      ⟨pool.shared, pool.threads ++ [(call, call.program)]⟩ := ⟨trivial, .start pool call⟩
  have before := (Run.single (starts ⟨[], []⟩ resolve)).trans
    (.next missed (.next (starts _ failover) (.single failed)))
  have between := Run.next looked (.next (starts _ second) (.single again))
  obtain ⟨forward, routed⟩ := moves_forward before between inserts
  obtain ⟨info, names, bounded⟩ :=
    routed resolve (.active (some newest)) "c" ⟨0, _, _, rfl, rfl⟩ rfl rfl
  exact ⟨forward, info, names, bounded new rfl⟩

/-- The failover arrives between the resolver's lookup and its insertion. -/
theorem failed_over : ∃ events, Run resolver.Step ⟨[], []⟩ events
    ⟨[("c", new)], [(resolve, holding old), (failover, .done (.accepted true))]⟩ := by
  have missed : resolver.Step ⟨[], [(resolve, resolve.program)]⟩ (.act 0 (.get "c") none)
      ⟨[], [(resolve, looking)]⟩ := .acts rfl ⟨rfl, rfl⟩ rfl
  have answered : resolver.Step ⟨[], [(resolve, looking)]⟩ (.act 0 (.resolveCluster "c") (some old))
      ⟨[], [(resolve, holding old)]⟩ := .acts rfl rfl rfl
  have accepted : resolver.Step ⟨[], [(resolve, holding old), (failover, failover.program)]⟩
      (.act 1 (.compareThenSet "c" "b" 5) true)
      ⟨[("c", new)], [(resolve, holding old), (failover, .done (.accepted true))]⟩ := .acts rfl rfl rfl
  exact ⟨_, .next (.start _ _) (.next missed (.next answered (.next (.start _ _) (.single accepted))))⟩

theorem inserted_late : resolver.Step
    ⟨[("c", new)], [(resolve, holding old), (failover, .done (.accepted true))]⟩
    (.act 0 (.insert "c" old) ())
    ⟨[("c", old)], [(resolve, .done (.active (some old))), (failover, .done (.accepted true))]⟩ :=
  .acts rfl rfl rfl

/-- The cache falls back to the anchor that the failover had replaced. -/
theorem falls_back : ¬ ∀ earlier later (first last : ResolverPool),
    Run resolver.Step ⟨[], []⟩ earlier first → Run resolver.Step first later last →
    Forward first.shared last.shared := by
  intro forward
  obtain ⟨events, before⟩ := failed_over
  obtain ⟨info, held, newer⟩ := forward _ _ _ _ before (.single inserted_late) "c" new rfl
  cases held
  exact absurd newer (by decide)

end Overtaken
end Nps.Nop.ClusterDelegation
