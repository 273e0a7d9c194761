import NpsSdk.Lib.Json

/-! Ownership of a cluster by one of its anchors. Epochs are fencing tokens: an anchor
that has seen a higher one than its own stops writing until it takes a higher one still. -/
namespace Nps.Nwp
open Json

structure TopologyProtocolError where
  nwpErrorCode : String
  npsStatus : String
  message : String
deriving DecidableEq

def anchorNotLeader : String := "NWP-ANCHOR-NOT-LEADER"
def anchorEpochFenced : String := "NWP-ANCHOR-EPOCH-FENCED"

/-- Both codes of the fence are conflicts. -/
def TopologyProtocolError.new (nwpErrorCode message : String) : TopologyProtocolError :=
  { nwpErrorCode, npsStatus := "NPS-CLIENT-CONFLICT", message }

/-- The event an anchor publishes about its own state. -/
structure TopologyEvent where
  version : Nat
  field : String
  details : Value

namespace AnchorState

def reasonActiveLost : String := "active_lost"

def failoverWith (successorNid : String) (clusterEpoch : UInt64) (reason : String)
    (version : Nat) : TopologyEvent :=
  { version
    field := "anchor_failover"
    details := document [("successor_nid", .string successorNid),
      ("cluster_epoch", integer clusterEpoch.toNat), ("reason", .string reason)] }

def quorumLost (quorumSize available : UInt32) : TopologyEvent :=
  { version := 0
    field := "anchor_quorum_lost"
    details := document [("quorum_size", integer quorumSize.toNat),
      ("available", integer available.toNat)] }

end AnchorState

inductive AnchorRole where
  | active
  | standby
deriving DecidableEq

structure AnchorOwnership where
  anchorNid : String
  ownEpoch : UInt64
  role : AnchorRole
  degraded : Bool
  highestObservedEpoch : UInt64
  pendingEvents : List TopologyEvent
  streamsOpen : Bool

namespace AnchorOwnership

def new (anchorNid : String) : AnchorOwnership where
  anchorNid := anchorNid
  ownEpoch := 1
  role := .active
  degraded := false
  highestObservedEpoch := 1
  pendingEvents := []
  streamsOpen := true

/-- An anchor that has not been elected. Its streams are open all the same. -/
def newStandby (anchorNid : String) (ownEpoch : UInt64) : AnchorOwnership :=
  { new anchorNid with ownEpoch, highestObservedEpoch := ownEpoch, role := .standby }

def takePendingEvents (own : AnchorOwnership) : List TopologyEvent × AnchorOwnership :=
  (own.pendingEvents, { own with pendingEvents := [] })

/-- The gate for every inbound frame: the epoch fence first, then the leader check for writes. -/
def onInboundFrame (own : AnchorOwnership) (inboundEpoch : Option UInt64)
    (senderAnchorNid : Option String) (isTopologyWrite : Bool) :
    Except TopologyProtocolError Unit × AnchorOwnership :=
  let inbound := inboundEpoch.getD 1
  let own := { own with
    highestObservedEpoch :=
      if inbound > own.highestObservedEpoch then inbound else own.highestObservedEpoch }
  let current := own.ownEpoch
  if inbound > own.ownEpoch then
    (.error (.new anchorEpochFenced
        s!"inbound cluster_epoch {inbound} supersedes this Anchor's epoch {current}; this Anchor is fenced."),
      { own with
        role := .standby
        pendingEvents := own.pendingEvents ++
          [AnchorState.failoverWith (senderAnchorNid.getD "") inbound AnchorState.reasonActiveLost 0]
        streamsOpen := false })
  else if isTopologyWrite && (own.role ≠ .active || own.degraded) then
    let why :=
      if own.role ≠ .active then "this Anchor is a standby"
      else "this Anchor is read-only-degraded (quorum lost)"
    (.error (.new anchorNotLeader
        s!"topology writes are only accepted by the active cluster owner: {why}."), own)
  else (.ok (), own)

def onQuorumLost (own : AnchorOwnership) (quorumSize available : UInt32) :
    TopologyEvent × AnchorOwnership :=
  let event := AnchorState.quorumLost quorumSize available
  (event, { own with degraded := true, pendingEvents := own.pendingEvents ++ [event] })

def onQuorumRestored (own : AnchorOwnership) : AnchorOwnership :=
  { own with degraded := false }

def onTakeOwnership (own : AnchorOwnership) (newEpoch : UInt64) (reason : String) :
    Except TopologyProtocolError TopologyEvent × AnchorOwnership :=
  let highest := own.highestObservedEpoch
  if newEpoch ≤ highest then
    (.error (.new anchorEpochFenced
        s!"cluster_epoch must strictly increase: {newEpoch} does not exceed the highest observed epoch {highest}."),
      own)
  else
    let event := AnchorState.failoverWith own.anchorNid newEpoch reason 0
    (.ok event,
      { own with
        ownEpoch := newEpoch
        highestObservedEpoch := newEpoch
        role := .active
        degraded := false
        streamsOpen := true
        pendingEvents := own.pendingEvents ++ [event] })

end AnchorOwnership

inductive AnchorStart where
  | new (anchorNid : String)
  | standby (anchorNid : String) (ownEpoch : UInt64)

def AnchorStart.ownership : AnchorStart → AnchorOwnership
  | new anchorNid => .new anchorNid
  | standby anchorNid ownEpoch => .newStandby anchorNid ownEpoch

inductive AnchorOp where
  | inboundFrame (epoch : Option UInt64) (sender : Option String) (isTopologyWrite : Bool)
  | quorumLost (quorumSize available : UInt32)
  | quorumRestored
  | takeOwnership (newEpoch : UInt64) (reason : String)
  | takePendingEvents

namespace AnchorOp

def apply (own : AnchorOwnership) : AnchorOp → AnchorOwnership
  | inboundFrame epoch sender isTopologyWrite => (own.onInboundFrame epoch sender isTopologyWrite).2
  | quorumLost quorumSize available => (own.onQuorumLost quorumSize available).2
  | quorumRestored => own.onQuorumRestored
  | takeOwnership newEpoch reason => (own.onTakeOwnership newEpoch reason).2
  | takePendingEvents => own.takePendingEvents.2

def Takes (own : AnchorOwnership) (op : AnchorOp) : Prop :=
  ∃ newEpoch reason event, op = takeOwnership newEpoch reason ∧
    (own.onTakeOwnership newEpoch reason).1 = .ok event

def shows (own : AnchorOwnership) : AnchorOp → List UInt64
  | inboundFrame epoch _ _ => [epoch.getD 1]
  | takeOwnership newEpoch reason =>
    match (own.onTakeOwnership newEpoch reason).1 with
    | .ok _ => [newEpoch]
    | .error _ => []
  | _ => []

end AnchorOp

def runAnchor (own : AnchorOwnership) (ops : List AnchorOp) : AnchorOwnership :=
  ops.foldl AnchorOp.apply own

def shown : AnchorOwnership → List AnchorOp → List UInt64
  | _, [] => []
  | own, op :: rest => op.shows own ++ shown (op.apply own) rest

namespace AnchorStart

def after (start : AnchorStart) (ops : List AnchorOp) : AnchorOwnership :=
  runAnchor start.ownership ops

def observed (start : AnchorStart) (ops : List AnchorOp) : List UInt64 :=
  start.ownership.ownEpoch :: shown start.ownership ops

/-- The operation takes ownership with an epoch above all observed so far. -/
def Surpasses (start : AnchorStart) (ops : List AnchorOp) (op : AnchorOp) : Prop :=
  ∃ newEpoch reason, op = .takeOwnership newEpoch reason ∧
    ∀ epoch ∈ start.observed ops, epoch < newEpoch

end AnchorStart

/-- A standby with its streams closed, which accepts no write. -/
structure AnchorOwnership.Shut (own : AnchorOwnership) : Prop where
  standby : own.role = .standby
  closed : own.streamsOpen = false
  refuses : ∀ epoch sender, (own.onInboundFrame epoch sender true).1 ≠ .ok ()

/-- What keeps two anchors from writing at once, after any history. -/
structure SingleWriter (start : AnchorStart) (ops : List AnchorOp) : Prop where
  owner_current : (start.after ops).role = .active →
    (start.after ops).ownEpoch = (start.after ops).highestObservedEpoch ∧
      ∀ epoch ∈ start.observed ops, epoch ≤ (start.after ops).ownEpoch
  writer_owns : ∀ epoch sender, ((start.after ops).onInboundFrame epoch sender true).1 = .ok () →
    (start.after ops).role = .active ∧ (start.after ops).degraded = false ∧
      ∀ seen ∈ start.observed (ops ++ [.inboundFrame epoch sender true]),
        seen ≤ (start.after ops).ownEpoch
  fenced_shut : ∀ epoch sender write error,
    ((start.after ops).onInboundFrame epoch sender write).1 = .error error →
    error.nwpErrorCode = anchorEpochFenced →
    ∀ later, (∀ before op rest, later = before ++ op :: rest →
        ¬ start.Surpasses (ops ++ .inboundFrame epoch sender write :: before) op) →
      (start.after (ops ++ .inboundFrame epoch sender write :: later)).Shut
  epoch_rises : ∀ op, op.Takes (start.after ops) →
    (start.after ops).ownEpoch < (start.after (ops ++ [op])).ownEpoch
  epoch_stays : ∀ op, ¬ op.Takes (start.after ops) →
    (start.after (ops ++ [op])).ownEpoch = (start.after ops).ownEpoch

namespace AnchorOwnership
variable (own : AnchorOwnership)

/-- A frame from a newer leader closes the anchor; any other changes the high-water mark only
and is refused just when it writes and the anchor does not own. -/
theorem onInboundFrame_cases (epoch : Option UInt64) (sender : Option String) (write : Bool) :
    (own.ownEpoch < epoch.getD 1 ∧ ∃ error events,
      own.onInboundFrame epoch sender write = (.error error,
        { own with
          highestObservedEpoch :=
            if epoch.getD 1 > own.highestObservedEpoch then epoch.getD 1
            else own.highestObservedEpoch
          role := .standby, pendingEvents := events, streamsOpen := false }) ∧
      error.nwpErrorCode = anchorEpochFenced) ∨
    (epoch.getD 1 ≤ own.ownEpoch ∧ ∃ result,
      own.onInboundFrame epoch sender write = (result,
        { own with
          highestObservedEpoch :=
            if epoch.getD 1 > own.highestObservedEpoch then epoch.getD 1
            else own.highestObservedEpoch }) ∧
      (∀ error, result = .error error → error.nwpErrorCode = anchorNotLeader) ∧
      (result = .ok () → write = true → own.role = .active ∧ own.degraded = false)) := by
  unfold onInboundFrame
  extract_lets inbound bumped current why
  split
  · rename_i newer
    exact .inl ⟨newer, _, _, rfl, rfl⟩
  · rename_i older
    have bounded : inbound ≤ own.ownEpoch := UInt64.not_lt.mp older
    split
    · refine .inr ⟨bounded, _, rfl, ?_, fun ok => by cases ok⟩
      rintro error ⟨⟩
      rfl
    · rename_i allowed
      refine .inr ⟨bounded, _, rfl, nofun, ?_⟩
      rintro - rfl
      simpa [bumped] using allowed

theorem Shut.of_standby {own : AnchorOwnership} (standby : own.role = .standby)
    (closed : own.streamsOpen = false) : own.Shut := by
  refine ⟨standby, closed, fun epoch sender accepted => ?_⟩
  rcases own.onInboundFrame_cases epoch sender true
    with ⟨-, error, events, same, -⟩ | ⟨-, result, same, -, owner⟩
  · rw [same] at accepted
    cases accepted
  · rw [same] at accepted
    have active := (owner accepted rfl).1
    rw [standby] at active
    cases active

theorem onTakeOwnership_cases (newEpoch : UInt64) (reason : String) :
    (newEpoch ≤ own.highestObservedEpoch ∧
      ∃ error, own.onTakeOwnership newEpoch reason = (.error error, own)) ∨
    (own.highestObservedEpoch < newEpoch ∧ ∃ event events,
      own.onTakeOwnership newEpoch reason = (.ok event,
        { own with
          ownEpoch := newEpoch, highestObservedEpoch := newEpoch, role := .active
          degraded := false, streamsOpen := true, pendingEvents := events })) := by
  unfold onTakeOwnership
  extract_lets highest event
  split
  · rename_i low
    exact .inl ⟨low, _, rfl⟩
  · rename_i high
    exact .inr ⟨UInt64.not_le.mp high, _, _, rfl⟩

end AnchorOwnership

/-- The high-water mark is the greatest epoch observed; the anchor's own is no higher, and
equal while it owns. -/
structure Marked (own : AnchorOwnership) (seen : List UInt64) : Prop where
  greatest : ∀ epoch ∈ seen, epoch ≤ own.highestObservedEpoch
  observed : own.highestObservedEpoch ∈ seen
  below : own.ownEpoch ≤ own.highestObservedEpoch
  owner : own.role = .active → own.ownEpoch = own.highestObservedEpoch

namespace Marked
variable {own after : AnchorOwnership} {seen : List UInt64}

theorem same (marked : Marked own seen) (high : after.highestObservedEpoch = own.highestObservedEpoch)
    (low : after.ownEpoch = own.ownEpoch) (role : after.role = own.role) : Marked after seen where
  greatest := high ▸ marked.greatest
  observed := high ▸ marked.observed
  below := by
    rw [high, low]
    exact marked.below
  owner active := by
    rw [high, low]
    exact marked.owner (role ▸ active)

theorem frame (marked : Marked own seen) {inbound : UInt64}
    (high : after.highestObservedEpoch =
      if inbound > own.highestObservedEpoch then inbound else own.highestObservedEpoch)
    (low : after.ownEpoch = own.ownEpoch)
    (role : after.role = .active → own.role = .active ∧ inbound ≤ own.ownEpoch) :
    Marked after (seen ++ [inbound]) := by
  have raised : own.highestObservedEpoch ≤ after.highestObservedEpoch ∧
      inbound ≤ after.highestObservedEpoch := by
    rw [high]
    split
    · rename_i above
      exact ⟨UInt64.le_of_lt above, UInt64.le_refl _⟩
    · rename_i above
      exact ⟨UInt64.le_refl _, UInt64.not_lt.mp above⟩
  constructor
  · intro epoch member
    rcases List.mem_append.mp member with old | new
    · exact UInt64.le_trans (marked.greatest epoch old) raised.1
    · rw [List.mem_singleton.mp new]
      exact raised.2
  · rw [high]
    split
    · exact List.mem_append_right _ (List.mem_singleton_self _)
    · exact List.mem_append_left _ marked.observed
  · rw [low]
    exact UInt64.le_trans marked.below raised.1
  · intro active
    obtain ⟨before, bounded⟩ := role active
    have current := marked.owner before
    have unchanged : ¬ inbound > own.highestObservedEpoch := by
      rw [← current]
      exact UInt64.not_lt.mpr bounded
    rw [low, high, if_neg unchanged]
    exact current

/-- One operation keeps the marks, over what it shows as well. -/
theorem step (marked : Marked own seen) (op : AnchorOp) :
    Marked (op.apply own) (seen ++ op.shows own) := by
  cases op with
  | inboundFrame epoch sender write =>
    rcases own.onInboundFrame_cases epoch sender write
      with ⟨-, error, events, same, -⟩ | ⟨bounded, result, same, -, -⟩
    · simp only [AnchorOp.apply, AnchorOp.shows, same]
      exact marked.frame rfl rfl nofun
    · simp only [AnchorOp.apply, AnchorOp.shows, same]
      exact marked.frame rfl rfl fun active => ⟨active, bounded⟩
  | quorumLost quorumSize available =>
    change Marked _ (seen ++ [])
    rw [List.append_nil]
    exact marked.same rfl rfl rfl
  | quorumRestored =>
    change Marked _ (seen ++ [])
    rw [List.append_nil]
    exact marked.same rfl rfl rfl
  | takePendingEvents =>
    change Marked _ (seen ++ [])
    rw [List.append_nil]
    exact marked.same rfl rfl rfl
  | takeOwnership newEpoch reason =>
    rcases own.onTakeOwnership_cases newEpoch reason
      with ⟨-, error, same⟩ | ⟨above, event, events, same⟩
    · simp only [AnchorOp.apply, AnchorOp.shows, same, List.append_nil]
      exact marked
    · simp only [AnchorOp.apply, AnchorOp.shows, same]
      refine ⟨fun epoch member => ?_, List.mem_append_right _ (List.mem_singleton_self _),
        UInt64.le_refl _, fun _ => rfl⟩
      rcases List.mem_append.mp member with old | new
      · exact UInt64.le_trans (marked.greatest epoch old) (UInt64.le_of_lt above)
      · exact UInt64.le_of_eq (List.mem_singleton.mp new)

theorem run (marked : Marked own seen) (ops : List AnchorOp) :
    Marked (runAnchor own ops) (seen ++ shown own ops) := by
  induction ops generalizing own seen with
  | nil =>
    rw [shown, List.append_nil]
    exact marked
  | cons op rest ih =>
    rw [shown, ← List.append_assoc]
    exact ih (marked.step op)

end Marked

namespace AnchorStart
variable {start : AnchorStart} {ops : List AnchorOp}

theorem marked (start : AnchorStart) (ops : List AnchorOp) :
    Marked (start.after ops) (start.observed ops) := by
  have initial : Marked start.ownership [start.ownership.ownEpoch] := by
    cases start with
    | new anchorNid =>
      exact ⟨by simp [ownership, AnchorOwnership.new], List.mem_singleton_self _,
        UInt64.le_refl _, fun _ => rfl⟩
    | standby anchorNid ownEpoch =>
      exact ⟨by simp [ownership, AnchorOwnership.newStandby], List.mem_singleton_self _,
        UInt64.le_refl _, nofun⟩
  exact initial.run ops

theorem after_append (ops more : List AnchorOp) :
    start.after (ops ++ more) = runAnchor (start.after ops) more :=
  List.foldl_append

theorem after_snoc (ops : List AnchorOp) (op : AnchorOp) :
    start.after (ops ++ [op]) = op.apply (start.after ops) :=
  after_append ops [op]

end AnchorStart

theorem AnchorOp.takes_iff {own : AnchorOwnership} {op : AnchorOp} :
    op.Takes own ↔
      ∃ newEpoch reason, op = takeOwnership newEpoch reason ∧ own.highestObservedEpoch < newEpoch := by
  constructor
  · rintro ⟨newEpoch, reason, event, rfl, accepted⟩
    refine ⟨newEpoch, reason, rfl, ?_⟩
    rcases own.onTakeOwnership_cases newEpoch reason
      with ⟨-, error, same⟩ | ⟨above, -⟩
    · rw [same] at accepted
      cases accepted
    · exact above
  · rintro ⟨newEpoch, reason, rfl, above⟩
    rcases own.onTakeOwnership_cases newEpoch reason
      with ⟨low, -⟩ | ⟨-, event, events, same⟩
    · exact absurd above (UInt64.not_lt.mpr low)
    · exact ⟨newEpoch, reason, event, rfl, by rw [same]⟩

/-- Only a successful take-over changes the epoch, makes an anchor active or opens its streams. -/
theorem AnchorOp.apply_of_not_takes {own : AnchorOwnership} {op : AnchorOp} (none : ¬ op.Takes own) :
    (op.apply own).ownEpoch = own.ownEpoch ∧
      (own.role = .standby → (op.apply own).role = .standby) ∧
      (own.streamsOpen = false → (op.apply own).streamsOpen = false) := by
  cases op with
  | inboundFrame epoch sender write =>
    rcases own.onInboundFrame_cases epoch sender write
      with ⟨-, error, events, same, -⟩ | ⟨-, result, same, -, -⟩
    · simp [apply, same]
    · simp [apply, same]
  | quorumLost quorumSize available => exact ⟨rfl, id, id⟩
  | quorumRestored => exact ⟨rfl, id, id⟩
  | takePendingEvents => exact ⟨rfl, id, id⟩
  | takeOwnership newEpoch reason =>
    rcases own.onTakeOwnership_cases newEpoch reason
      with ⟨-, error, same⟩ | ⟨above, -⟩
    · simp [apply, same]
    · exact absurd (takes_iff.mpr ⟨newEpoch, reason, rfl, above⟩) none

/-- An anchor that is shut stays so while no take-over surpasses what it has observed. -/
theorem AnchorStart.stays_shut {start : AnchorStart} {ops later : List AnchorOp}
    (standby : (start.after ops).role = .standby) (closed : (start.after ops).streamsOpen = false)
    (none : ∀ before op rest, later = before ++ op :: rest → ¬ start.Surpasses (ops ++ before) op) :
    (start.after (ops ++ later)).Shut := by
  induction later generalizing ops with
  | nil =>
    rw [List.append_nil]
    exact .of_standby standby closed
  | cons op rest ih =>
    have refused : ¬ op.Takes (start.after ops) := by
      intro takes
      obtain ⟨newEpoch, reason, rfl, above⟩ := AnchorOp.takes_iff.mp takes
      refine none [] _ rest rfl ⟨newEpoch, reason, rfl, fun epoch member => ?_⟩
      rw [List.append_nil] at member
      exact UInt64.lt_of_le_of_lt ((start.marked ops).greatest epoch member) above
    obtain ⟨-, role, streams⟩ := AnchorOp.apply_of_not_takes refused
    have shift : ops ++ op :: rest = ops ++ [op] ++ rest := by rw [List.append_assoc]; rfl
    rw [shift]
    apply ih
    · rw [after_snoc]
      exact role standby
    · rw [after_snoc]
      exact streams closed
    · intro before next rest' same
      rw [List.append_assoc]
      exact none (op :: before) next rest' (congrArg (op :: ·) same)

theorem AnchorStart.fenced_shut {start : AnchorStart} {ops later : List AnchorOp}
    {epoch : Option UInt64} {sender : Option String} {write : Bool} {error : TopologyProtocolError}
    (failed : ((start.after ops).onInboundFrame epoch sender write).1 = .error error)
    (fence : error.nwpErrorCode = anchorEpochFenced)
    (none : ∀ before op rest, later = before ++ op :: rest →
      ¬ start.Surpasses (ops ++ .inboundFrame epoch sender write :: before) op) :
    (start.after (ops ++ .inboundFrame epoch sender write :: later)).Shut := by
  have shift : ∀ more, ops ++ .inboundFrame epoch sender write :: more =
      ops ++ [.inboundFrame epoch sender write] ++ more := fun more => by
    rw [List.append_assoc]
    rfl
  rcases (start.after ops).onInboundFrame_cases epoch sender write
    with ⟨-, _, events, same, -⟩ | ⟨-, result, same, leader, -⟩
  · rw [shift]
    apply stays_shut
    · rw [after_snoc, AnchorOp.apply, same]
    · rw [after_snoc, AnchorOp.apply, same]
    · intro before op rest position
      rw [← shift]
      exact none before op rest position
  · rw [same] at failed
    have code := leader error failed
    rw [fence] at code
    exact absurd code (by decide)

/-- After any history an anchor that owns has the highest epoch, writes are accepted by such
an anchor only, one that was fenced stays shut until it surpasses all it has seen, and its
epoch rises with each take-over and never else. -/
theorem single_writer (start : AnchorStart) (ops : List AnchorOp) : SingleWriter start ops := by
  have marked := start.marked ops
  constructor
  · intro active
    have current := marked.owner active
    exact ⟨current, current ▸ marked.greatest⟩
  · intro epoch sender accepted
    have later := start.marked (ops ++ [.inboundFrame epoch sender true])
    rcases (start.after ops).onInboundFrame_cases epoch sender true
      with ⟨-, error, events, same, -⟩ | ⟨-, result, same, -, owner⟩
    · rw [same] at accepted
      cases accepted
    · rw [same] at accepted
      obtain ⟨active, healthy⟩ := owner accepted rfl
      have applied : start.after (ops ++ [.inboundFrame epoch sender true]) =
          (AnchorOp.inboundFrame epoch sender true).apply (start.after ops) := start.after_snoc ops _
      rw [AnchorOp.apply, same] at applied
      have still : (start.after (ops ++ [.inboundFrame epoch sender true])).role = .active := by
        rw [applied]
        exact active
      have current := later.owner still
      refine ⟨active, healthy, fun seen member => ?_⟩
      have bounded := later.greatest seen member
      rw [← current, applied] at bounded
      exact bounded
  · intro epoch sender write error failed fence later none
    exact AnchorStart.fenced_shut failed fence none
  · intro op takes
    obtain ⟨newEpoch, reason, rfl, above⟩ := AnchorOp.takes_iff.mp takes
    rcases (start.after ops).onTakeOwnership_cases newEpoch reason
      with ⟨low, -⟩ | ⟨-, event, events, same⟩
    · exact absurd above (UInt64.not_lt.mpr low)
    · rw [AnchorStart.after_snoc, AnchorOp.apply, same]
      exact UInt64.lt_of_le_of_lt marked.below above
  · intro op none
    rw [AnchorStart.after_snoc]
    exact (AnchorOp.apply_of_not_takes none).1

end Nps.Nwp
