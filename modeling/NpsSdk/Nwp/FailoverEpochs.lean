import NpsSdk.Lib.JsonNumber
import NpsSdk.Nwp.AnchorFence

/-! The epochs that an anchor announces. A take-over must exceed every epoch that was observed; a
frame that fences must exceed the anchor's own only, which it does not raise. -/
namespace Nps.Nwp
open Json (Value)

def TopologyEvent.failoverEpoch (event : TopologyEvent) : Option Nat :=
  if event.field = "anchor_failover" then
    (event.details.asObject.bind (Json.get "cluster_epoch")).bind Value.asU64
  else none

namespace AnchorOp

/-- What an operation adds to the events that are still to be published. -/
def emits (own : AnchorOwnership) (op : AnchorOp) : List TopologyEvent :=
  (op.apply own).pendingEvents.drop own.pendingEvents.length

/-- If a frame fences the anchor, its epoch is above all that were observed before. -/
def FencesAnew (own : AnchorOwnership) : AnchorOp → Prop
  | inboundFrame epoch _ _ =>
    own.ownEpoch < epoch.getD 1 → own.highestObservedEpoch < epoch.getD 1
  | _ => True

end AnchorOp

/-- The epochs of the failovers that are announced, in order. -/
def failovers : AnchorOwnership → List AnchorOp → List Nat
  | _, [] => []
  | own, op :: rest =>
    (op.emits own).filterMap TopologyEvent.failoverEpoch ++ failovers (op.apply own) rest

/-- All frames that fence the anchor do so anew. -/
def FencedAnew : AnchorOwnership → List AnchorOp → Prop
  | _, [] => True
  | own, op :: rest => op.FencesAnew own ∧ FencedAnew (op.apply own) rest

/-- What a consumer acts on that discards the events whose epochs it has seen. -/
def actedOn : (seen : List Nat) → List Nat → List Nat
  | _, [] => []
  | seen, epoch :: rest =>
    if epoch ∈ seen then actedOn seen rest else epoch :: actedOn (epoch :: seen) rest

structure FailoversRise (start : AnchorStart) (ops : List AnchorOp) : Prop where
  rising : (failovers start.ownership ops).Pairwise (· < ·)
  consumed : actedOn [] (failovers start.ownership ops) = failovers start.ownership ops

section Operations
variable {own : AnchorOwnership}

theorem failoverEpoch_failoverWith (successorNid reason : String) (epoch : UInt64) (version : Nat) :
    (AnchorState.failoverWith successorNid epoch reason version).failoverEpoch = some epoch.toNat := by
  have small : Value.asU64 (Json.integer epoch.toNat) = some epoch.toNat := if_pos epoch.toNat_lt
  simp [TopologyEvent.failoverEpoch, AnchorState.failoverWith, Json.document, Value.asObject,
    Json.get, small]

variable {told : List Nat}

abbrev AnchorOp.epochs (own : AnchorOwnership) (op : AnchorOp) : List Nat :=
  (op.emits own).filterMap TopologyEvent.failoverEpoch

theorem inboundFrame_epochs (epoch : Option UInt64) (sender : Option String) (write : Bool) :
    (AnchorOp.inboundFrame epoch sender write).epochs own =
      if own.ownEpoch < epoch.getD 1 then [(epoch.getD 1).toNat] else [] := by
  unfold AnchorOp.epochs AnchorOp.emits AnchorOp.apply AnchorOwnership.onInboundFrame
  dsimp only
  split
  · rw [List.drop_left, List.filterMap_cons, failoverEpoch_failoverWith]
    rfl
  · split <;> simp

theorem takeOwnership_epochs (newEpoch : UInt64) (reason : String) :
    (AnchorOp.takeOwnership newEpoch reason).epochs own =
      if newEpoch ≤ own.highestObservedEpoch then [] else [newEpoch.toNat] := by
  unfold AnchorOp.epochs AnchorOp.emits AnchorOp.apply AnchorOwnership.onTakeOwnership
  dsimp only
  split
  · simp
  · rw [List.drop_left, List.filterMap_cons, failoverEpoch_failoverWith]
    rfl

theorem epochs_none {op : AnchorOp} (frame : ∀ epoch sender write, op ≠ .inboundFrame epoch sender write)
    (take : ∀ newEpoch reason, op ≠ .takeOwnership newEpoch reason) : op.epochs own = [] := by
  cases op with
  | inboundFrame epoch sender write => exact absurd rfl (frame epoch sender write)
  | takeOwnership newEpoch reason => exact absurd rfl (take newEpoch reason)
  | quorumLost quorumSize available =>
    change ((own.pendingEvents ++ [AnchorState.quorumLost quorumSize available]).drop
      own.pendingEvents.length).filterMap TopologyEvent.failoverEpoch = []
    rw [List.drop_left]
    rfl
  | quorumRestored =>
    change (own.pendingEvents.drop own.pendingEvents.length).filterMap _ = []
    rw [List.drop_length, List.filterMap_nil]
  | takePendingEvents =>
    change (List.drop own.pendingEvents.length []).filterMap _ = []
    rw [List.drop_nil, List.filterMap_nil]

/-- What has been announced is no higher than the high-water mark, and the mark itself was announced
if it is above the anchor's own epoch. -/
structure Told (own : AnchorOwnership) (told : List Nat) : Prop where
  below : ∀ epoch ∈ told, epoch ≤ own.highestObservedEpoch.toNat
  raised : own.ownEpoch < own.highestObservedEpoch → own.highestObservedEpoch.toNat ∈ told
  marked : own.ownEpoch ≤ own.highestObservedEpoch

theorem Told.same {after : AnchorOwnership} (told_ : Told own told)
    (high : after.highestObservedEpoch = own.highestObservedEpoch) (low : after.ownEpoch = own.ownEpoch) :
    Told after (told ++ []) := by
  rw [List.append_nil]
  refine ⟨?_, ?_, ?_⟩ <;> rw [high]
  · exact told_.below
  · rw [low]
    exact told_.raised
  · rw [low]
    exact told_.marked

theorem inboundFrame_marks (epoch : Option UInt64) (sender : Option String) (write : Bool) :
    ((AnchorOp.inboundFrame epoch sender write).apply own).highestObservedEpoch =
        (if epoch.getD 1 > own.highestObservedEpoch then epoch.getD 1 else own.highestObservedEpoch) ∧
      ((AnchorOp.inboundFrame epoch sender write).apply own).ownEpoch = own.ownEpoch := by
  rcases own.onInboundFrame_cases epoch sender write
    with ⟨-, error, events, same, -⟩ | ⟨-, result, same, -⟩
  · simp [AnchorOp.apply, same]
  · simp [AnchorOp.apply, same]

theorem Told.step (kept : Told own told) (op : AnchorOp) :
    Told (op.apply own) (told ++ op.epochs own) := by
  cases op with
  | quorumLost | quorumRestored | takePendingEvents =>
    rw [epochs_none (by rintro _ _ _ ⟨⟩) (by rintro _ _ ⟨⟩)]
    exact kept.same rfl rfl
  | takeOwnership newEpoch reason =>
    rw [takeOwnership_epochs]
    rcases own.onTakeOwnership_cases newEpoch reason with ⟨low, error, same⟩ | ⟨above, event, events, same⟩
    · rw [if_pos low]
      exact kept.same (by simp [AnchorOp.apply, same]) (by simp [AnchorOp.apply, same])
    · rw [if_neg (UInt64.not_le.mpr above)]
      simp only [AnchorOp.apply, same]
      refine ⟨fun epoch member => ?_, fun raised => absurd raised (UInt64.lt_irrefl _), UInt64.le_refl _⟩
      rcases List.mem_append.mp member with before | new
      · exact (kept.below epoch before).trans (UInt64.le_iff_toNat_le.mp (UInt64.le_of_lt above))
      · exact Nat.le_of_eq (List.mem_singleton.mp new)
  | inboundFrame epoch sender write =>
    have marks : ((AnchorOp.inboundFrame epoch sender write).apply own).highestObservedEpoch =
          (if epoch.getD 1 > own.highestObservedEpoch then epoch.getD 1 else own.highestObservedEpoch) ∧
        ((AnchorOp.inboundFrame epoch sender write).apply own).ownEpoch = own.ownEpoch :=
      inboundFrame_marks epoch sender write
    obtain ⟨high, low⟩ := marks
    rw [inboundFrame_epochs]
    by_cases higher : epoch.getD 1 > own.highestObservedEpoch
    · rw [if_pos higher] at high
      have newer : own.ownEpoch < epoch.getD 1 := UInt64.lt_of_le_of_lt kept.marked higher
      rw [if_pos newer]
      refine ⟨fun other member => ?_, fun _ => ?_, ?_⟩ <;> rw [high]
      · rcases List.mem_append.mp member with before | new
        · exact (kept.below other before).trans (UInt64.le_iff_toNat_le.mp (UInt64.le_of_lt higher))
        · exact Nat.le_of_eq (List.mem_singleton.mp new)
      · exact List.mem_append_right _ (List.mem_singleton_self _)
      · exact low ▸ UInt64.le_of_lt newer
    · rw [if_neg higher] at high
      refine ⟨fun other member => ?_, fun raised => ?_, ?_⟩
      · rw [high]
        rcases List.mem_append.mp member with before | new
        · exact kept.below other before
        · split at new
          · rw [List.mem_singleton.mp new]
            exact UInt64.le_iff_toNat_le.mp (UInt64.not_lt.mp higher)
          · cases new
      · rw [high] at raised ⊢
        rw [low] at raised
        exact List.mem_append_left _ (kept.raised raised)
      · rw [high, low]
        exact kept.marked

/-- An operation announces an epoch above all others so far exactly if it does not fence the anchor
with an epoch that was surpassed already. -/
theorem Told.rises_iff (kept : Told own told) (rising : told.Pairwise (· < ·)) (op : AnchorOp) :
    (told ++ op.epochs own).Pairwise (· < ·) ↔ op.FencesAnew own := by
  cases op with
  | quorumLost | quorumRestored | takePendingEvents =>
    rw [epochs_none (by rintro _ _ _ ⟨⟩) (by rintro _ _ ⟨⟩), List.append_nil]
    exact iff_of_true rising trivial
  | takeOwnership newEpoch reason =>
    rw [takeOwnership_epochs]
    refine iff_of_true ?_ trivial
    split
    · rwa [List.append_nil]
    · rename_i above
      refine List.pairwise_append.mpr ⟨rising, List.pairwise_singleton _ _, fun epoch member new last => ?_⟩
      rw [List.mem_singleton.mp last]
      exact Nat.lt_of_le_of_lt (kept.below epoch member)
        (UInt64.lt_iff_toNat_lt.mp (UInt64.not_le.mp above))
  | inboundFrame epoch sender write =>
    rw [inboundFrame_epochs]
    change _ ↔ (own.ownEpoch < epoch.getD 1 → own.highestObservedEpoch < epoch.getD 1)
    by_cases newer : own.ownEpoch < epoch.getD 1
    · rw [if_pos newer, List.pairwise_append]
      constructor
      · rintro ⟨-, -, above⟩ -
        by_contra low
        have marked : own.ownEpoch < own.highestObservedEpoch :=
          UInt64.lt_of_lt_of_le newer (UInt64.not_lt.mp low)
        have risen := above _ (kept.raised marked) _ (List.mem_singleton_self _)
        exact low (UInt64.lt_iff_toNat_lt.mpr risen)
      · intro anew
        refine ⟨rising, List.pairwise_singleton _ _, fun other member new last => ?_⟩
        rw [List.mem_singleton.mp last]
        exact Nat.lt_of_le_of_lt (kept.below other member) (UInt64.lt_iff_toNat_lt.mp (anew newer))
    · rw [if_neg newer, List.append_nil]
      exact iff_of_true rising fun other => absurd other newer

theorem Told.run_iff (kept : Told own told) (rising : told.Pairwise (· < ·)) (ops : List AnchorOp) :
    (told ++ failovers own ops).Pairwise (· < ·) ↔ FencedAnew own ops := by
  induction ops generalizing own told with
  | nil =>
    rw [failovers, List.append_nil]
    exact iff_of_true rising trivial
  | cons op rest ih =>
    rw [failovers, ← List.append_assoc]
    constructor
    · intro risen
      have first := risen.sublist (List.sublist_append_left _ _)
      exact ⟨(kept.rises_iff rising op).mp first, (ih (kept.step op) first).mp risen⟩
    · rintro ⟨anew, later⟩
      exact (ih (kept.step op) ((kept.rises_iff rising op).mpr anew)).mpr later

end Operations

theorem actedOn_rising {seen epochs : List Nat} (rising : epochs.Pairwise (· < ·))
    (new : ∀ epoch ∈ epochs, epoch ∉ seen) : actedOn seen epochs = epochs := by
  induction epochs generalizing seen with
  | nil => rfl
  | cons epoch rest ih =>
    obtain ⟨above, later⟩ := List.pairwise_cons.mp rising
    rw [actedOn, if_neg (new epoch List.mem_cons_self), ih later]
    intro other member there
    rcases List.mem_cons.mp there with rfl | before
    · exact absurd (above other member) (Nat.lt_irrefl other)
    · exact new other (List.mem_cons_of_mem _ member) before

theorem AnchorStart.told (start : AnchorStart) : Told start.ownership [] := by
  cases start with
  | new anchorNid => exact ⟨nofun, fun raised => absurd raised (UInt64.lt_irrefl _), UInt64.le_refl _⟩
  | standby anchorNid ownEpoch =>
    exact ⟨nofun, fun raised => absurd raised (UInt64.lt_irrefl _), UInt64.le_refl _⟩

/-- The epochs of the failovers that an anchor announces rise exactly if every frame that fences it
has an epoch above all that it has observed. -/
theorem failovers_rise_iff (start : AnchorStart) (ops : List AnchorOp) :
    FailoversRise start ops ↔ FencedAnew start.ownership ops := by
  have iff := start.told.run_iff List.Pairwise.nil ops
  rw [List.nil_append] at iff
  constructor
  · intro rise
    exact iff.mp rise.rising
  · intro anew
    have rising := iff.mpr anew
    exact ⟨rising, actedOn_rising rising fun _ _ => List.not_mem_nil⟩

/-- An anchor that was fenced at epoch 9 is fenced again by a frame of the epoch between. -/
theorem failover_repeated : ¬ ∀ start ops, FailoversRise start ops := by
  intro claimed
  have rise := claimed (.new "urn:nps:node:api.test:anchor-a")
    [.inboundFrame (some 9) (some "urn:nps:node:api.test:anchor-b") false,
      .inboundFrame (some 5) (some "urn:nps:node:api.test:anchor-c") false]
  have epochs := rise.rising
  exact absurd epochs (by decide)

end Nps.Nwp
