import NpsSdk.Lib.Election
import NpsSdk.Ndp.Frames
import NpsSdk.Ndp.RegistryAdmission

/-! Who leads a cluster: the rule of the registry profile over what it has stored, and the rule that
every other registry has over its parsed announcements. -/
namespace Nps.Ndp
open Nps.Core Json Transition Election

structure NdpClusterSelection where
  nid : Option String
  epoch : Option Nat
  errorCode : Option String
deriving DecidableEq

def Entry.epochIn (entry : Entry) (clusterAnchor : String) : Option Nat := do
  let frame ← entry.frame.asObject
  if stringValue frame "cluster_anchor" ≠ some clusterAnchor ||
      !(strings frame "node_roles").contains "anchor" then none
  else some ((numberValue frame "cluster_epoch").getD 1)

def Entry.announced (entry : Entry) : Option AnnounceFrame := do
  let object ← entry.frame.asObject
  (AnnounceFrame.fromDict object).toOption

namespace NdpRegistryProfile

def live (registry : NdpRegistryProfile) (now : Int) : List ((_ : String) × Entry) :=
  registry.entries.entries.filter fun entry => entry.2.expiresAt > now

def members (registry : NdpRegistryProfile) (clusterAnchor : String) (now : Int) : List (String × Nat) :=
  (registry.live now).filterMap fun entry =>
    (entry.2.epochIn clusterAnchor).map fun epoch => (entry.1, epoch)

def resolveCluster (registry : NdpRegistryProfile) (clusterAnchor : String) (now : Int) :
    NdpClusterSelection :=
  let members := registry.members clusterAnchor now
  match (members.map Prod.snd).max? with
  | none => { nid := none, epoch := none, errorCode := none }
  | some top =>
    let leaders := (members.filter fun member => member.2 = top).map Prod.fst
    match leaders.mergeSort fun a b => !keyLess b a with
    | [leader] => { nid := some leader, epoch := some top, errorCode := none }
    | _ => { nid := none, epoch := none, errorCode := some clusterSplit }

def liveFrames (registry : NdpRegistryProfile) (now : Int) : List AnnounceFrame :=
  (registry.live now).filterMap fun entry => entry.2.announced

end NdpRegistryProfile

structure NdpClusterSplitError where
  clusterAnchor : String
  epoch : UInt64

namespace NdpClusterResolution

/-- The live announcements that name the cluster, whatever their roles. -/
def members (liveFrames : List AnnounceFrame) (clusterAnchor : String) : List AnnounceFrame :=
  liveFrames.filter fun frame => frame.clusterAnchor = some clusterAnchor

def resolveCluster (liveFrames : List AnnounceFrame) (clusterAnchor : String) :
    Except NdpClusterSplitError (Option AnnounceFrame) :=
  if clusterAnchor.isEmpty then .ok none
  else
    let members := members liveFrames clusterAnchor
    if members.isEmpty then .ok none
    else
      let top := (members.map AnnounceFrame.effectiveClusterEpoch).max?.getD
        AnnounceFrame.defaultClusterEpoch
      let leaders := members.filter fun frame => frame.effectiveClusterEpoch = top
      if leaders.length > 1 then .error ⟨clusterAnchor, top⟩ else .ok leaders.head?

end NdpClusterResolution

def AnnounceFrame.rank (frame : AnnounceFrame) : Nat := frame.effectiveClusterEpoch.toNat

def AnnounceFrame.isAnchor (frame : AnnounceFrame) : Bool := (frame.nodeRoles.getD []).contains "anchor"

/-- The answer of one rule in the words of the other. -/
def selectionOf : Except NdpClusterSplitError (Option AnnounceFrame) → NdpClusterSelection
  | .ok none => { nid := none, epoch := none, errorCode := none }
  | .ok (some frame) => { nid := some frame.nid, epoch := some frame.rank, errorCode := none }
  | .error _ => { nid := none, epoch := none, errorCode := some clusterSplit }

def selection : Election.Result AnnounceFrame → NdpClusterSelection
  | .none => { nid := none, epoch := none, errorCode := none }
  | .leader frame => { nid := some frame.nid, epoch := some frame.rank, errorCode := none }
  | .split => { nid := none, epoch := none, errorCode := some clusterSplit }

attribute [local simp] selectionOf selection

theorem max?_map_toNat (epochs : List UInt64) :
    (epochs.map UInt64.toNat).max? = epochs.max?.map UInt64.toNat := by
  have greater (a b : UInt64) : (max a b).toNat = max a.toNat b.toNat := by
    change (if a ≤ b then b else a).toNat = max a.toNat b.toNat
    split
    · rename_i below
      exact (max_eq_right (UInt64.le_iff_toNat_le.mp below)).symm
    · rename_i above
      exact (max_eq_left (le_of_not_ge fun below => above (UInt64.le_iff_toNat_le.mpr below))).symm
  have folded (first : UInt64) : ∀ rest : List UInt64,
      (rest.map UInt64.toNat).foldl max first.toNat = (rest.foldl max first).toNat := by
    intro rest
    induction rest generalizing first with
    | nil => rfl
    | cons next rest ih => rw [List.map_cons, List.foldl_cons, List.foldl_cons, ← greater, ih]
  cases epochs with
  | nil => rfl
  | cons first rest => exact congrArg some (folded first rest)

namespace NdpClusterResolution

/-- The rule elects among the members of a cluster that has a name. -/
theorem resolveCluster_elect (frames : List AnnounceFrame) {clusterAnchor : String}
    (named : clusterAnchor ≠ "") :
    selectionOf (resolveCluster frames clusterAnchor) =
      selection (elect AnnounceFrame.rank (members frames clusterAnchor)) ∧
    ((∃ fault, resolveCluster frames clusterAnchor = .error fault) ↔
      elect AnnounceFrame.rank (members frames clusterAnchor) = .split) := by
  have some_ : clusterAnchor.isEmpty ≠ true := fun empty => named (String.isEmpty_iff.mp empty)
  rw [resolveCluster, if_neg some_]
  generalize members frames clusterAnchor = members
  have ranks : (members.map AnnounceFrame.rank).max? =
      (members.map AnnounceFrame.effectiveClusterEpoch).max?.map UInt64.toNat := by
    rw [← max?_map_toNat, List.map_map]
    rfl
  cases highest : (members.map AnnounceFrame.effectiveClusterEpoch).max? with
  | none =>
    have empty := List.map_eq_nil_iff.mp (List.max?_eq_none_iff.mp highest)
    subst empty
    simp [elect]
  | some top =>
    have inhabited : members.isEmpty ≠ true := by
      intro empty
      rw [List.isEmpty_iff.mp empty] at highest
      cases highest
    have same (frame : AnnounceFrame) :
        decide (frame.rank = top.toNat) = decide (frame.effectiveClusterEpoch = top) :=
      decide_eq_decide.mpr UInt64.toNat_inj
    rw [highest] at ranks
    obtain ⟨reached, -⟩ := List.max?_eq_some_iff.mp ranks
    obtain ⟨best, inside, high⟩ := List.mem_map.mp reached
    have among : best ∈ members.filter fun frame => frame.effectiveClusterEpoch = top :=
      List.mem_filter.mpr ⟨inside, (same best).symm.trans (decide_eq_true high)⟩
    simp only [elect, ranks, Option.map_some, same, if_neg inhabited, highest, Option.getD_some]
    generalize (members.filter fun frame => frame.effectiveClusterEpoch = top) = leaders at among ⊢
    cases leaders with
    | nil => cases among
    | cons leader rest =>
      cases rest with
      | nil => simp
      | cons second rest => simp

end NdpClusterResolution

/-- What the two rules read in an announcement. -/
structure Reads (object : Fields) (nid : String) (frame : AnnounceFrame) : Prop where
  parsed : AnnounceFrame.fromDict object = .ok frame
  nid : frame.nid = nid
  cluster : stringValue object "cluster_anchor" = frame.clusterAnchor
  roles : strings object "node_roles" = frame.nodeRoles.getD []
  epoch : (numberValue object "cluster_epoch").getD 1 = frame.rank

theorem Reads.announced {entry : Entry} {object : Fields} {nid : String} {frame : AnnounceFrame}
    (reads : Reads object nid frame) (isObject : entry.frame.asObject = some object) :
    entry.announced = some frame := by
  rw [Entry.announced, isObject]
  exact congrArg Except.toOption reads.parsed

theorem Reads.epochIn {entry : Entry} {object : Fields} {nid : String} {frame : AnnounceFrame}
    (reads : Reads object nid frame) (isObject : entry.frame.asObject = some object)
    (clusterAnchor : String) : entry.epochIn clusterAnchor =
      if frame.clusterAnchor = some clusterAnchor ∧ frame.isAnchor = true then some frame.rank
      else none := by
  rw [Entry.epochIn, isObject]
  simp only [Option.bind_eq_bind, Option.bind_some, reads.cluster, reads.roles, reads.epoch,
    AnnounceFrame.isAnchor]
  by_cases named : frame.clusterAnchor = some clusterAnchor
  · simp [named]
  · simp [named]

theorem asU64_lt {value : Value} {n : Nat} (counted : value.asU64 = some n) : n < 2 ^ 64 := by
  unfold Value.asU64 Number.asU64 at counted
  split at counted
  · split at counted
    · split at counted
      · cases counted
        assumption
      · cases counted
    · cases counted
  · cases counted

theorem optU64_toNat (object : Fields) (key : String) :
    (Ncp.optU64 object key).map UInt64.toNat = numberValue object key := by
  rw [Ncp.optU64, Option.map_map]
  change _ = (get key object).bind Value.asU64
  cases held : (get key object).bind Value.asU64 with
  | none => rfl
  | some n =>
    obtain ⟨value, -, counted⟩ := Option.bind_eq_some_iff.mp held
    exact congrArg some (Nat.mod_eq_of_lt (asU64_lt counted))

theorem reads_of_fields {object : Fields} {nid timestamp : String}
    (named : stringValue object "nid" = some nid)
    (timed : stringValue object "timestamp" = some timestamp) : ∃ frame, Reads object nid frame := by
  have nid' : Nip.getStr object "nid" = .ok nid := by
    rw [Nip.getStr]
    rw [stringValue] at named
    rw [named]
  have timestamp' : Nip.getStr object "timestamp" = .ok timestamp := by
    rw [Nip.getStr]
    rw [stringValue] at timed
    rw [timed]
  refine ⟨_, by rw [AnnounceFrame.fromDict, nid', timestamp']; rfl, rfl, rfl, rfl, ?_⟩
  rw [← optU64_toNat]
  change _ = ((Ncp.optU64 object "cluster_epoch").getD 1).toNat
  cases Ncp.optU64 object "cluster_epoch" <;> rfl

namespace NdpRegistryProfile
variable {registry : NdpRegistryProfile} {clusterAnchor : String} {now : Int}

def Readable (registry : NdpRegistryProfile) : Prop :=
  ∀ entry ∈ registry.entries.entries, ∃ object frame,
    entry.2.frame.asObject = some object ∧ Reads object entry.1 frame

theorem readable_live (readable : registry.Readable) : ∀ entry ∈ registry.live now, ∃ object frame,
    entry.2.frame.asObject = some object ∧ Reads object entry.1 frame :=
  fun entry member => readable entry (List.mem_of_mem_filter member)

theorem liveFrames_nids (readable : registry.Readable) :
    (registry.liveFrames now).map AnnounceFrame.nid = (registry.live now).map Sigma.fst := by
  unfold liveFrames
  have readable' : ∀ entry ∈ registry.live now, _ := readable_live readable
  generalize registry.live now = live at readable' ⊢
  induction live with
  | nil => rfl
  | cons entry rest ih =>
    obtain ⟨object, frame, isObject, reads⟩ := readable' entry List.mem_cons_self
    have later := ih fun entry member => readable' entry (List.mem_cons_of_mem _ member)
    simp only [List.filterMap_cons, reads.announced isObject, List.map_cons, reads.nid, later]

theorem liveFrames_distinct (readable : registry.Readable) :
    ((registry.liveFrames now).map AnnounceFrame.nid).Nodup := by
  rw [liveFrames_nids readable]
  exact registry.entries.nodupKeys.sublist List.filter_sublist

/-- The profile's members are the anchors among the members of the other rule. -/
theorem members_eq (readable : registry.Readable) :
    registry.members clusterAnchor now =
      ((NdpClusterResolution.members (registry.liveFrames now) clusterAnchor).filter
        AnnounceFrame.isAnchor).map fun frame => (frame.nid, frame.rank) := by
  unfold members liveFrames NdpClusterResolution.members
  have readable' : ∀ entry ∈ registry.live now, _ := readable_live readable
  generalize registry.live now = live at readable' ⊢
  induction live with
  | nil => rfl
  | cons entry rest ih =>
    obtain ⟨object, frame, isObject, reads⟩ := readable' entry List.mem_cons_self
    have later := ih fun entry member => readable' entry (List.mem_cons_of_mem _ member)
    have epoch := reads.epochIn isObject clusterAnchor
    by_cases member : frame.clusterAnchor = some clusterAnchor ∧ frame.isAnchor = true
    · rw [if_pos member] at epoch
      simp only [List.filterMap_cons, epoch, reads.announced isObject, Option.map_some, later,
        List.filter_cons, decide_eq_true member.1, member.2, if_true, List.map_cons, reads.nid]
    · rw [if_neg member] at epoch
      simp only [List.filterMap_cons, epoch, reads.announced isObject, Option.map_none, later,
        List.filter_cons]
      split
      · rename_i named
        rw [List.filter_cons_of_neg fun anchor => member ⟨of_decide_eq_true named, anchor⟩]
      · rfl

/-- The profile elects among the anchors. -/
theorem resolveCluster_elect (readable : registry.Readable) :
    registry.resolveCluster clusterAnchor now = selection (elect AnnounceFrame.rank
      ((NdpClusterResolution.members (registry.liveFrames now) clusterAnchor).filter
        AnnounceFrame.isAnchor)) := by
  rw [resolveCluster, members_eq readable]
  generalize (NdpClusterResolution.members (registry.liveFrames now) clusterAnchor).filter
    AnnounceFrame.isAnchor = anchors
  have ranks : (anchors.map fun frame => (frame.nid, frame.rank)).map Prod.snd =
      anchors.map AnnounceFrame.rank := by
    rw [List.map_map]
    rfl
  simp only [ranks, elect]
  cases (anchors.map AnnounceFrame.rank).max? with
  | none => rfl
  | some top =>
    have named : (((anchors.map fun frame => (frame.nid, frame.rank)).filter fun member =>
        member.2 = top).map Prod.fst) =
        (anchors.filter fun frame => frame.rank = top).map AnnounceFrame.nid := by
      rw [List.filter_map, List.map_map]
      rfl
    have shared (frame : AnnounceFrame) (kept : frame ∈ anchors.filter fun frame => frame.rank = top) :
        frame.rank = top := of_decide_eq_true (List.mem_filter.mp kept).2
    dsimp only
    rw [named]
    generalize (anchors.filter fun frame => frame.rank = top) = leaders at shared ⊢
    cases leaders with
    | nil => simp
    | cons leader rest =>
      cases rest with
      | nil =>
        rw [List.map_singleton, List.mergeSort_singleton]
        simp [shared leader List.mem_cons_self]
      | cons second rest =>
        have several := (List.mergeSort_perm
          ((leader :: second :: rest).map AnnounceFrame.nid) fun a b => !keyLess b a).length_eq
        split
        · rename_i only
          rw [only] at several
          simp at several
        · rfl

end NdpRegistryProfile

section
variable [Nip.TimeText] [Nip.Sha256]

theorem entry_reads {securityProfile : String} {events : List Event} {registry : NdpRegistryProfile}
    (run : Run NdpRegistryProfile.Step (.new securityProfile) events registry) {nid : String}
    {entry : Entry} (found : registry.entries.lookup nid = some entry) :
    ∃ object frame, entry.frame.asObject = some object ∧ Reads object nid frame := by
  obtain ⟨event, -, -, announced, digest, sound, named, -, fresh⟩ := stored_run run nid entry found
  obtain ⟨isObject, hasNid, hasTime, -⟩ := readAnnounce_spec sound.read
  obtain ⟨timestamp, text, -⟩ := Option.bind_eq_some_iff.mp hasTime
  obtain ⟨frame, reads⟩ := reads_of_fields hasNid text
  exact ⟨announced.object, frame, fresh.2.2.1 ▸ isObject, named ▸ reads⟩

/-- The entries of every registry that announcements have made can be read by both rules. -/
theorem readable_run {securityProfile : String} {events : List Event} {registry : NdpRegistryProfile}
    (run : Run NdpRegistryProfile.Step (.new securityProfile) events registry) : registry.Readable :=
  fun _ member => entry_reads run (AList.mem_lookup_iff.mpr member)

end

/-- Both rules give one answer, and it is a split exactly when two live members of the cluster share the
highest epoch. -/
def SameAnswer (registry : NdpRegistryProfile) (now : Int) (frames : List AnnounceFrame)
    (clusterAnchor : String) : Prop :=
  registry.resolveCluster clusterAnchor now =
    selectionOf (NdpClusterResolution.resolveCluster frames clusterAnchor) ∧
  ((∃ fault, NdpClusterResolution.resolveCluster frames clusterAnchor = .error fault) ↔
    Tied AnnounceFrame.rank AnnounceFrame.nid (NdpClusterResolution.members frames clusterAnchor))

/-- A cluster without a name has no anchor and no tie. In any other, nobody is a member, or the member
above all others is an anchor, or there is a tie among the members and one among the anchors. -/
def OneRule (frames : List AnnounceFrame) (clusterAnchor : String) : Prop :=
  let members := NdpClusterResolution.members frames clusterAnchor
  let anchors := members.filter AnnounceFrame.isAnchor
  if clusterAnchor = "" then
    anchors = [] ∧ ¬ Tied AnnounceFrame.rank AnnounceFrame.nid members
  else
    members = [] ∨
    (∃ leader, Leads AnnounceFrame.rank AnnounceFrame.nid members leader ∧ leader.isAnchor = true) ∨
    Tied AnnounceFrame.rank AnnounceFrame.nid members ∧
      Tied AnnounceFrame.rank AnnounceFrame.nid anchors

section
variable {members : List AnnounceFrame}

theorem anchors_distinct (distinct : (members.map AnnounceFrame.nid).Nodup) :
    ((members.filter AnnounceFrame.isAnchor).map AnnounceFrame.nid).Nodup :=
  distinct.sublist (List.filter_sublist.map _)

/-- When one member leads, the anchors elect the same exactly when it is an anchor. -/
theorem selection_leader (distinct : (members.map AnnounceFrame.nid).Nodup) {leader : AnnounceFrame}
    (leads : Leads AnnounceFrame.rank AnnounceFrame.nid members leader) :
    selection (elect AnnounceFrame.rank (members.filter AnnounceFrame.isAnchor)) =
      selection (.leader leader) ↔ leader.isAnchor = true := by
  constructor
  · intro same
    cases elected : elect AnnounceFrame.rank (members.filter AnnounceFrame.isAnchor) with
    | none => simp [elected] at same
    | split => simp [elected] at same
    | leader other =>
      have nids : other.nid = leader.nid := by
        rw [elected] at same
        exact Option.some.inj (congrArg NdpClusterSelection.nid same)
      have leads' : Leads AnnounceFrame.rank AnnounceFrame.nid _ other := leads_of_elect elected
      obtain ⟨inside, anchor⟩ := List.mem_filter.mp leads'.1
      rw [← List.inj_on_of_nodup_map distinct inside leads.1 nids]
      exact anchor
  · intro anchor
    rw [(elect_eq_leader (anchors_distinct distinct)).mpr]
    refine ⟨List.mem_filter.mpr ⟨leads.1, anchor⟩, fun other there => ?_⟩
    exact leads.2 other (List.mem_of_mem_filter there)

/-- The anchors elect as all members do. -/
theorem selection_anchors (distinct : (members.map AnnounceFrame.nid).Nodup) :
    selection (elect AnnounceFrame.rank (members.filter AnnounceFrame.isAnchor)) =
      selection (elect AnnounceFrame.rank members) ↔
    members = [] ∨
    (∃ leader, Leads AnnounceFrame.rank AnnounceFrame.nid members leader ∧ leader.isAnchor = true) ∨
    Tied AnnounceFrame.rank AnnounceFrame.nid members ∧
      Tied AnnounceFrame.rank AnnounceFrame.nid (members.filter AnnounceFrame.isAnchor) := by
  cases elected : elect AnnounceFrame.rank members with
  | none =>
    have empty := elect_eq_none.mp elected
    subst empty
    exact ⟨fun _ => .inl rfl, fun _ => rfl⟩
  | leader leader =>
    have leads : Leads AnnounceFrame.rank AnnounceFrame.nid members leader := leads_of_elect elected
    rw [selection_leader distinct leads]
    constructor
    · exact fun anchor => .inr (.inl ⟨leader, leads, anchor⟩)
    · rintro (empty | ⟨other, leads', anchor⟩ | ⟨tied, -⟩)
      · rw [empty] at elected
        cases elected
      · rwa [← leads.unique distinct leads']
      · exact absurd tied leads.not_tied
  | split =>
    have tied : Tied AnnounceFrame.rank AnnounceFrame.nid members := tied_of_elect distinct elected
    have split_ : selection (elect AnnounceFrame.rank (members.filter AnnounceFrame.isAnchor)) =
        selection .split ↔ elect AnnounceFrame.rank (members.filter AnnounceFrame.isAnchor) = .split := by
      cases elect AnnounceFrame.rank (members.filter AnnounceFrame.isAnchor) <;> simp
    rw [split_, elect_eq_split (anchors_distinct distinct)]
    constructor
    · exact fun among => .inr (.inr ⟨tied, among⟩)
    · rintro (empty | ⟨other, leads, -⟩ | ⟨-, among⟩)
      · rw [empty] at elected
        cases elected
      · exact absurd tied leads.not_tied
      · exact among

end

section
variable [Nip.TimeText] [Nip.Sha256]

/-- The profile agrees with the rule of the other registries, over the same live announcements in any
order, exactly on the clusters where it does not matter that it asks for a role. -/
theorem same_answer_iff {securityProfile : String} {events : List Event} {registry : NdpRegistryProfile}
    (run : Run NdpRegistryProfile.Step (.new securityProfile) events registry) {now : Int}
    {frames : List AnnounceFrame} (listed : frames.Perm (registry.liveFrames now))
    (clusterAnchor : String) :
    SameAnswer registry now frames clusterAnchor ↔ OneRule frames clusterAnchor := by
  have readable := readable_run run
  have distinct : ((NdpClusterResolution.members frames clusterAnchor).map AnnounceFrame.nid).Nodup :=
    ((listed.map _).nodup_iff.mpr (NdpRegistryProfile.liveFrames_distinct readable)).sublist
      (List.filter_sublist.map _)
  have perm : ((NdpClusterResolution.members frames clusterAnchor).filter AnnounceFrame.isAnchor).Perm
      ((NdpClusterResolution.members (registry.liveFrames now) clusterAnchor).filter
        AnnounceFrame.isAnchor) := (listed.filter _).filter _
  have anchors : registry.resolveCluster clusterAnchor now = _ :=
    NdpRegistryProfile.resolveCluster_elect readable
  rw [← elect_perm (anchors_distinct distinct) perm] at anchors
  rw [SameAnswer, anchors]
  by_cases named : clusterAnchor = ""
  · subst named
    have nobody : NdpClusterResolution.resolveCluster frames "" = .ok none := rfl
    have none_ : selection (elect AnnounceFrame.rank
        ((NdpClusterResolution.members frames "").filter AnnounceFrame.isAnchor)) = selection .none ↔
        (NdpClusterResolution.members frames "").filter AnnounceFrame.isAnchor = [] := by
      rw [← (elect_eq_none : elect AnnounceFrame.rank _ = _ ↔ _)]
      cases elect AnnounceFrame.rank
        ((NdpClusterResolution.members frames "").filter AnnounceFrame.isAnchor) <;> simp
    rw [OneRule, if_pos rfl, nobody, ← none_]
    simp
  · obtain ⟨answer, split_⟩ := NdpClusterResolution.resolveCluster_elect frames named
    rw [OneRule, if_neg named, answer, split_, elect_eq_split distinct, selection_anchors distinct]
    exact and_iff_left Iff.rfl

end

namespace WorkerMember

abbrev clock : Nip.TimeText := .table [(0, "1970-01-01T00:00:00Z")]

abbrev hash : Nip.Sha256 := ⟨fun _ => []⟩

def cluster : String := "urn:nps:cluster:example.com:c"

def announced (roles : List String) : Call :=
  ⟨.object [("cluster_anchor", .string cluster), ("graph_seq", integer 1),
    ("nid", .string "urn:nps:node:example.com:a"), ("node_roles", stringArray roles),
    ("timestamp", .string "1970-01-01T00:00:00Z"), ("ttl", integer 300)], true, 10⟩

def registryOf (roles : List String) : NdpRegistryProfile :=
  letI := clock
  letI := hash
  ((NdpRegistryProfile.new "production").next (announced roles)).2

def member (node : String) (epoch : Nat) (role : String) : Call :=
  ⟨.object [("cluster_anchor", .string cluster), ("cluster_epoch", integer epoch),
    ("graph_seq", integer 1), ("nid", .string node), ("node_roles", stringArray [role]),
    ("timestamp", .string "1970-01-01T00:00:00Z"), ("ttl", integer 300)], true, 10⟩

/-- An anchor, a worker of a smaller epoch and an anchor of the smallest. -/
def three : List Call :=
  [member "urn:nps:node:example.com:a" 5 "anchor", member "urn:nps:node:example.com:b" 4 "worker",
    member "urn:nps:node:example.com:c" 3 "anchor"]

def joined (calls : List Call) : NdpRegistryProfile :=
  letI := clock
  letI := hash
  calls.foldl (fun registry call => (registry.next call).2) (.new "production")

theorem anchors_agree :
    SameAnswer (joined three) 10 ((joined three).liveFrames 10) cluster ∧
      (joined three).resolveCluster cluster 10 =
        { nid := some "urn:nps:node:example.com:a", epoch := some 5, errorCode := none } := by
  let _ := clock
  let _ := hash
  have step (calls : List Call) (call : Call) (rest : List Call) (all : three = calls ++ call :: rest) :=
    NdpRegistryProfile.step_next (joined calls) call
  have run : Run NdpRegistryProfile.Step (.new "production") _ (joined three) :=
    .next (step [] _ _ rfl) (.next (step (three.take 1) _ _ rfl) (.single (step (three.take 2) _ _ rfl)))
  have read : ((joined three).liveFrames 10).map (fun frame => (frame.nid, frame.clusterAnchor,
      frame.rank, frame.isAnchor)) = [("urn:nps:node:example.com:c", some cluster, 3, true),
        ("urn:nps:node:example.com:b", some cluster, 4, false),
        ("urn:nps:node:example.com:a", some cluster, 5, true)] := by
    decide +kernel
  refine ⟨?_, by decide +kernel⟩
  refine (same_answer_iff run (.refl _) cluster).mpr (.inr (.inl ?_))
  generalize (joined three).liveFrames 10 = frames at read ⊢
  obtain ⟨c, others, rfl, third, read⟩ := List.map_eq_cons_iff.mp read
  obtain ⟨b, others, rfl, second, read⟩ := List.map_eq_cons_iff.mp read
  obtain ⟨a, rfl, first⟩ := List.map_eq_singleton_iff.mp read
  simp only [Prod.mk.injEq] at first second third
  have members : NdpClusterResolution.members [c, b, a] cluster = [c, b, a] := by
    simp [NdpClusterResolution.members, first, second, third]
  refine ⟨a, ⟨?_, fun other there different => ?_⟩, first.2.2.2⟩
  · rw [members]
    simp
  · rw [members] at there
    simp only [List.mem_cons, List.not_mem_nil, or_false] at there
    rcases there with rfl | rfl | rfl
    · omega
    · omega
    · exact absurd rfl different

theorem worker_differs : ¬ ∀ [Nip.TimeText] [Nip.Sha256] (securityProfile : String)
    (events : List Event) (registry : NdpRegistryProfile) (now : Int) (frames : List AnnounceFrame)
    (clusterAnchor : String), Run NdpRegistryProfile.Step (.new securityProfile) events registry →
    frames.Perm (registry.liveFrames now) → SameAnswer registry now frames clusterAnchor := by
  intro claimed
  let _ := clock
  let _ := hash
  have step := NdpRegistryProfile.step_next (.new "production") (announced ["worker"])
  have same := (claimed "production" _ (registryOf ["worker"]) 10 _ cluster (.single step) (.refl _)).1
  have differs : (registryOf ["worker"]).resolveCluster cluster 10 ≠
      selectionOf (NdpClusterResolution.resolveCluster ((registryOf ["worker"]).liveFrames 10) cluster) := by
    decide +kernel
  exact differs same

end WorkerMember
end Nps.Ndp
