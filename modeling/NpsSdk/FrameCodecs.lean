import NpsSdk.Nop.Frames
import NpsSdk.Nwp.Frames

/-! What the dictionaries of frames lose: nothing of a frame, and of an integer that is read, only what its
field is too narrow for. -/
namespace Nps.FrameCodecs
open Nps.Core Json
open Nps.Ncp (AnchorFrame CapsFrame DiffFrame ErrorFrame HelloFrame StreamFrame optU64)
open Nps.Nip (getStr optStr)
open Nps.Nop.ClusterDelegation (DelegateFrame)
open Nps.Nop.Frames (AlignStreamFrame SyncFrame TaskFrame optI64)
open Nps.Nwp.Frames (ActionFrame QueryFrame)

/-- A kind of frame: its dictionaries, and the integers that it carries, each under the key that it is
read from. -/
structure FrameCodec (Frame : Type) where
  toDict : Frame → FrameDict
  fromDict : FrameDict → NpsResult Frame
  integers : List (String × (Frame → Option Int)) := []

def unsigned (dict : FrameDict) (key : String) : Option Nat := (get key dict).bind Value.asU64

/-- The dictionary is refused, or every unsigned integer under a known key is carried as it is. -/
def FrameCodec.Carries {Frame : Type} (codec : FrameCodec Frame) (dict : FrameDict) : Prop :=
  ∀ {frame}, codec.fromDict dict = .ok frame → ∀ entry ∈ codec.integers, ∀ n,
    unsigned dict entry.1 = some n → entry.2 frame = some n

inductive Kind where
  | hello
  | caps
  | anchor
  | diff
  | stream
  | error
  | query
  | action
  | task
  | delegate
  | sync
  | alignStream

namespace Kind

abbrev Frame : Kind → Type
  | hello => HelloFrame
  | caps => CapsFrame
  | anchor => AnchorFrame
  | diff => DiffFrame
  | stream => StreamFrame
  | error => ErrorFrame
  | query => QueryFrame
  | action => ActionFrame
  | task => TaskFrame
  | delegate => DelegateFrame
  | sync => SyncFrame
  | alignStream => AlignStreamFrame

def whole (field : Option UInt64) : Option Int := field.map fun value => (value.toNat : Int)

def codec : (kind : Kind) → FrameCodec kind.Frame
  | hello => {
      toDict := HelloFrame.toDict
      fromDict := HelloFrame.fromDict
      integers := [
        ("max_frame_payload", fun frame => whole frame.maxFramePayload),
        ("max_concurrent_streams", fun frame => whole frame.maxConcurrentStreams),
        ("ping_interval_ms", fun frame => whole frame.pingIntervalMs)] }
  | caps => {
      toDict := CapsFrame.toDict
      fromDict := CapsFrame.fromDict
      integers := [
        ("count", fun frame => whole frame.count),
        ("token_est", fun frame => whole frame.tokenEst),
        ("max_frame_payload", fun frame => whole frame.maxFramePayload),
        ("max_concurrent_streams", fun frame => whole frame.maxConcurrentStreams)] }
  | anchor => {
      toDict := AnchorFrame.toDict
      fromDict := AnchorFrame.fromDict
      integers := [("ttl", fun frame => whole frame.ttl)] }
  | diff => { toDict := DiffFrame.toDict, fromDict := DiffFrame.fromDict }
  | stream => {
      toDict := StreamFrame.toDict
      fromDict := StreamFrame.fromDict
      integers := [("seq", fun frame => whole frame.seq)] }
  | error => { toDict := ErrorFrame.toDict, fromDict := ErrorFrame.fromDict }
  | query => {
      toDict := QueryFrame.toDict
      fromDict := QueryFrame.fromDict
      integers := [
        ("token_budget", fun frame => whole frame.tokenBudget),
        ("limit", fun frame => whole frame.limit),
        ("offset", fun frame => whole frame.offset),
        ("depth", fun frame => whole frame.depth)] }
  | action => {
      toDict := ActionFrame.toDict
      fromDict := ActionFrame.fromDict
      integers := [("timeout_ms", fun frame => frame.timeoutMs.map fun value => (value.toNat : Int))] }
  | task => {
      toDict := TaskFrame.toDict
      fromDict := TaskFrame.fromDict
      integers := [
        ("timeout_ms", fun frame => whole frame.timeoutMs),
        ("depth", fun frame => frame.depth.map Int64.toInt),
        ("result_ttl_seconds", fun frame => whole frame.resultTtlSeconds)] }
  | delegate => {
      toDict := Nop.Frames.DelegateFrame.toDict
      fromDict := Nop.Frames.DelegateFrame.fromDict }
  | sync => {
      toDict := SyncFrame.toDict
      fromDict := SyncFrame.fromDict
      integers := [
        ("min_required", fun frame => some frame.minRequired.toInt),
        ("timeout_ms", fun frame => whole frame.timeoutMs)] }
  | alignStream => {
      toDict := AlignStreamFrame.toDict
      fromDict := AlignStreamFrame.fromDict
      integers := [
        ("seq", fun frame => whole frame.seq),
        ("window_size", fun frame => whole frame.windowSize),
        ("ack_seq", fun frame => whole frame.ackSeq),
        ("nak_seq", fun frame => whole frame.nakSeq)] }

/-- A frame of capabilities that has data says how much. -/
def Complete : (kind : Kind) → kind.Frame → Prop
  | caps, frame => frame.data ≠ [] → frame.count.isSome = true
  | _, _ => True

/-- The field that is narrower than what is read for it, where the kind has one, with its bound. -/
def narrow : Kind → Option (String × Nat)
  | action => some ("timeout_ms", 2 ^ 32)
  | task => some ("depth", 2 ^ 63)
  | sync => some ("min_required", 2 ^ 63)
  | _ => none

def Named : Kind → FrameDict → Prop
  | action, dict => (ActionFrame.actionOf dict).isSome = true
  | task, dict => (optStr dict "task_id").isSome = true
  | sync, dict => (optStr dict "task_id").isSome = true ∧ (optStr dict "sync_id").isSome = true
  | _, _ => True

/-- The dictionary lacks a text that is required, or its integer fits the narrow field. -/
def Fits (kind : Kind) (dict : FrameDict) : Prop :=
  ∀ key bound, kind.narrow = some (key, bound) → kind.Named dict → ∀ n, unsigned dict key = some n → n < bound

end Kind

section Integers
variable {dict : FrameDict} {key : String} {n : Nat}

theorem unsigned_lt (present : unsigned dict key = some n) : n < 2 ^ 64 := by
  obtain ⟨value, -, read⟩ := Option.bind_eq_some_iff.mp present
  unfold Value.asU64 Number.asU64 at read
  split at read
  · split at read
    · split at read
      · cases read
        assumption
      · cases read
    · cases read
  · cases read

theorem optU64_unsigned (present : unsigned dict key = some n) : optU64 dict key = some (.ofNat n) := by
  have read : (get key dict).bind Value.asU64 = some n := present
  rw [optU64, read, Option.map_some]

theorem whole_unsigned (present : unsigned dict key = some n) : Kind.whole (optU64 dict key) = some (n : Int) := by
  have exact_ : (UInt64.ofNat n).toNat = n := by
    rw [UInt64.toNat_ofNat', Nat.mod_eq_of_lt (unsigned_lt present)]
  simp only [optU64_unsigned present, Kind.whole, Option.map_some, exact_]

/-- A default does not matter where there is an integer. -/
theorem whole_getD (present : unsigned dict key = some n) (default : UInt64) :
    Kind.whole (some ((optU64 dict key).getD default)) = some (n : Int) := by
  have whole := whole_unsigned present
  rw [optU64_unsigned present] at whole ⊢
  exact whole

theorem optI64_unsigned (present : unsigned dict key = some n) :
    optI64 dict key = if n < 2 ^ 63 then some (.ofInt n) else none := by
  obtain ⟨value, there, read⟩ := Option.bind_eq_some_iff.mp present
  unfold Value.asU64 Number.asU64 at read
  split at read
  · split at read
    · split at read
      · cases read
        have signed : (Number.int (Int.ofNat n)).asI64 = if n < 2 ^ 63 then some (n : Int) else none := by
          have bounds : -2 ^ 63 ≤ (n : Int) ∧ (n : Int) < 2 ^ 63 ↔ n < 2 ^ 63 := by omega
          simp only [Number.asI64, Int.ofNat_eq_natCast, bounds]
        unfold optI64
        rw [there]
        dsimp only
        rw [signed]
        split <;> rfl
      · cases read
    · cases read
  · cases read

theorem toInt_ofInt_small (small : n < 2 ^ 63) : (Int64.ofInt n).toInt = n :=
  Int64.toInt_ofInt_of_le (by omega) (by omega)

end Integers

namespace Kind
variable {dict : FrameDict}

theorem fits_of_wide {kind : Kind} (wide : kind.narrow = none) : kind.Fits dict := by
  intro key bound same
  rw [wide] at same
  cases same

theorem fromDict_toDict (kind : Kind) {frame : kind.Frame} (complete : kind.Complete frame) :
    kind.codec.fromDict (kind.codec.toDict frame) = .ok frame := by
  cases kind with
  | hello => exact HelloFrame.fromDict_toDict frame
  | caps =>
    refine (CapsFrame.fromDict_toDict frame).trans ?_
    have counted : CapsFrame.counted frame = frame.count := by
      unfold CapsFrame.counted
      cases count : frame.count with
      | some n => simp
      | none =>
        have bare : frame.data = [] := by
          by_contra full
          have said := complete full
          rw [count] at said
          cases said
        simp [bare]
    rw [counted]
  | anchor => exact AnchorFrame.fromDict_toDict frame
  | diff => exact DiffFrame.fromDict_toDict frame
  | stream => exact StreamFrame.fromDict_toDict frame
  | error =>
    simp [codec, ErrorFrame.fromDict, ErrorFrame.toDict, getStr, get_insert_ne, get_insertSome_ne]
  | query => exact QueryFrame.fromDict_toDict frame
  | action => exact ActionFrame.fromDict_toDict frame
  | task => exact TaskFrame.fromDict_toDict frame
  | delegate => exact Nop.Frames.DelegateFrame.fromDict_toDict frame
  | sync => exact SyncFrame.fromDict_toDict frame
  | alignStream => exact AlignStreamFrame.fromDict_toDict frame

/-- A kind whose integers are all read with 64 bits carries every one. -/
theorem carries_of_wide {kind : Kind} (wide : kind.narrow = none) : kind.codec.Carries dict := by
  intro frame read
  cases kind with
  | action | task | sync => cases wide
  | hello =>
    simp only [codec, HelloFrame.fromDict, Outcome.bind_ok, Outcome.pure_eq, Except.ok.injEq] at read
    obtain ⟨_, -, rfl⟩ := read
    simp only [codec, List.forall_mem_cons, List.not_mem_nil]
    exact ⟨fun n present => whole_getD present _, fun n present => whole_getD present _,
      fun n present => whole_getD present _, fun _ => False.elim⟩
  | caps =>
    obtain rfl := Except.ok.inj read
    simp only [codec, List.forall_mem_cons, List.not_mem_nil]
    exact ⟨fun n => whole_unsigned, fun n => whole_unsigned, fun n => whole_unsigned,
      fun n => whole_unsigned, fun _ => False.elim⟩
  | anchor =>
    simp only [codec, AnchorFrame.fromDict, Outcome.bind_ok, Outcome.pure_eq, Except.ok.injEq] at read
    obtain ⟨_, -, rfl⟩ := read
    simp only [codec, List.forall_mem_cons, List.not_mem_nil]
    exact ⟨fun n present => whole_getD present _, fun _ => False.elim⟩
  | stream =>
    simp only [codec, StreamFrame.fromDict, Outcome.bind_ok, Outcome.pure_eq, Except.ok.injEq] at read
    obtain ⟨_, -, rfl⟩ := read
    simp only [codec, List.forall_mem_cons, List.not_mem_nil]
    exact ⟨fun n present => whole_getD present _, fun _ => False.elim⟩
  | query =>
    simp only [codec, QueryFrame.fromDict, Outcome.bind_ok, Outcome.pure_eq, Except.ok.injEq] at read
    obtain ⟨_, -, rfl⟩ := read
    simp only [codec, List.forall_mem_cons, List.not_mem_nil]
    exact ⟨fun n => whole_unsigned, fun n => whole_unsigned, fun n => whole_unsigned,
      fun n => whole_unsigned, fun _ => False.elim⟩
  | alignStream =>
    simp only [codec, AlignStreamFrame.fromDict, Outcome.bind_ok, Outcome.pure_eq, Except.ok.injEq] at read
    obtain ⟨_, -, _, -, _, -, rfl⟩ := read
    simp only [codec, List.forall_mem_cons, List.not_mem_nil]
    exact ⟨fun n present => whole_getD present _, fun n => whole_unsigned, fun n => whole_unsigned,
      fun n => whole_unsigned, fun _ => False.elim⟩
  | diff | error | delegate => exact fun _ member => absurd member List.not_mem_nil

theorem getStr_ok {key text : String} : getStr dict key = .ok text ↔ optStr dict key = some text := by
  unfold getStr optStr
  split <;> simp [*]

/-- A timeout is carried if 32 bits are enough for it. -/
theorem timeout_carried {n : Nat} (present : unsigned dict "timeout_ms" = some n) :
    ((optU64 dict "timeout_ms").map UInt64.toUInt32).map (fun value => (value.toNat : Int)) = some (n : Int) ↔
      n < 2 ^ 32 := by
  rw [optU64_unsigned present, Option.map_some, Option.map_some, Option.some.injEq, Nat.cast_inj]
  have low : (UInt64.ofNat n).toUInt32.toNat = n % 2 ^ 32 := by
    rw [UInt64.toNat_toUInt32, UInt64.toNat_ofNat', Nat.mod_eq_of_lt (unsigned_lt present)]
  rw [low]
  constructor
  · intro same
    rw [← same]
    exact Nat.mod_lt _ (by decide)
  · exact Nat.mod_eq_of_lt

theorem action_carries_iff : action.codec.Carries dict ↔ action.Fits dict := by
  constructor
  · intro carries key bound narrow named n present
    obtain ⟨rfl, rfl⟩ := Prod.mk.inj (Option.some.inj narrow)
    obtain ⟨text, names⟩ := Option.isSome_iff_exists.mp named
    obtain ⟨frame, read, timeout⟩ : ∃ frame, ActionFrame.fromDict dict = .ok frame ∧
        frame.timeoutMs = (optU64 dict "timeout_ms").map UInt64.toUInt32 := by
      unfold ActionFrame.fromDict
      rw [names]
      exact ⟨_, rfl, rfl⟩
    have carried := carries read _ List.mem_cons_self n present
    simp only [timeout] at carried
    exact (timeout_carried present).mp carried
  · intro fits frame read
    simp only [codec, ActionFrame.fromDict, Outcome.bind_ok, Outcome.elim_ok, Outcome.pure_eq,
      Except.ok.injEq] at read
    obtain ⟨text, names, rfl⟩ := read
    simp only [codec, List.forall_mem_cons, List.not_mem_nil]
    refine ⟨fun n present => (timeout_carried present).mpr ?_, fun _ => False.elim⟩
    exact fits _ _ rfl (Option.isSome_iff_exists.mpr ⟨text, names⟩) n present

/-- A depth is carried if it has a sign as well. -/
theorem depth_carried {key : String} {n : Nat} (present : unsigned dict key = some n) :
    (optI64 dict key).map Int64.toInt = some (n : Int) ↔ n < 2 ^ 63 := by
  rw [optI64_unsigned present]
  split
  · rename_i small
    exact iff_of_true (congrArg some (toInt_ofInt_small small)) small
  · rename_i large
    exact iff_of_false nofun large

theorem task_carries_iff : task.codec.Carries dict ↔ task.Fits dict := by
  constructor
  · intro carries key bound narrow named n present
    obtain ⟨rfl, rfl⟩ := Prod.mk.inj (Option.some.inj narrow)
    obtain ⟨text, names⟩ := Option.isSome_iff_exists.mp named
    obtain ⟨frame, read, depth⟩ : ∃ frame, TaskFrame.fromDict dict = .ok frame ∧
        frame.depth = optI64 dict "depth" := by
      unfold TaskFrame.fromDict
      rw [getStr_ok.mpr names]
      exact ⟨_, rfl, rfl⟩
    have carried := carries read _ (List.mem_cons_of_mem _ List.mem_cons_self) n present
    simp only [depth] at carried
    exact (depth_carried present).mp carried
  · intro fits frame read
    simp only [codec, TaskFrame.fromDict, Outcome.bind_ok, Outcome.pure_eq, Except.ok.injEq,
      getStr_ok] at read
    obtain ⟨text, names, rfl⟩ := read
    simp only [codec, List.forall_mem_cons, List.not_mem_nil]
    refine ⟨fun n => whole_unsigned, fun n present => (depth_carried present).mpr ?_,
      fun n present => whole_getD present _, nofun⟩
    exact fits _ _ rfl (Option.isSome_iff_exists.mpr ⟨text, names⟩) n present

/-- A least number that is too large is read as none at all, and so as zero. -/
theorem least_carried {key : String} {n : Nat} (present : unsigned dict key = some n) :
    some ((optI64 dict key).getD 0).toInt = some (n : Int) ↔ n < 2 ^ 63 := by
  rw [optI64_unsigned present]
  split
  · rename_i small
    exact iff_of_true (congrArg some (toInt_ofInt_small small)) small
  · rename_i large
    simp only [Option.getD_none, Option.some.injEq, large, iff_false]
    change ¬ (0 : Int) = n
    omega

theorem sync_carries_iff : sync.codec.Carries dict ↔ sync.Fits dict := by
  constructor
  · intro carries key bound narrow named n present
    obtain ⟨rfl, rfl⟩ := Prod.mk.inj (Option.some.inj narrow)
    obtain ⟨text, names⟩ := Option.isSome_iff_exists.mp named.1
    obtain ⟨other, syncs⟩ := Option.isSome_iff_exists.mp named.2
    obtain ⟨frame, read, least⟩ : ∃ frame, SyncFrame.fromDict dict = .ok frame ∧
        frame.minRequired = (optI64 dict "min_required").getD 0 := by
      unfold SyncFrame.fromDict
      rw [getStr_ok.mpr names, getStr_ok.mpr syncs]
      exact ⟨_, rfl, rfl⟩
    have carried := carries read _ List.mem_cons_self n present
    simp only [least] at carried
    exact (least_carried present).mp carried
  · intro fits frame read
    simp only [codec, SyncFrame.fromDict, Outcome.bind_ok, Outcome.pure_eq, Except.ok.injEq,
      getStr_ok] at read
    obtain ⟨text, names, other, syncs, rfl⟩ := read
    simp only [codec, List.forall_mem_cons, List.not_mem_nil]
    refine ⟨fun n present => (least_carried present).mpr ?_, fun n => whole_unsigned, nofun⟩
    exact fits _ _ rfl ⟨Option.isSome_iff_exists.mpr ⟨text, names⟩,
      Option.isSome_iff_exists.mpr ⟨other, syncs⟩⟩ n present

end Kind

/-- Every frame is read back as it was; and every unsigned integer under a known key is carried or refused
together with its dictionary, unless its field is too narrow for it. -/
theorem codecs_lossless_iff (kind : Kind) :
    (∀ frame : kind.Frame, kind.Complete frame →
      kind.codec.fromDict (kind.codec.toDict frame) = .ok frame) ∧
    ∀ dict, kind.codec.Carries dict ↔ kind.Fits dict := by
  refine ⟨fun frame => kind.fromDict_toDict, fun dict => ?_⟩
  cases kind with
  | action => exact Kind.action_carries_iff
  | task => exact Kind.task_carries_iff
  | sync => exact Kind.sync_carries_iff
  | _ => exact iff_of_true (Kind.carries_of_wide rfl) (Kind.fits_of_wide rfl)

/-- A timeout of 2^32 + 5 milliseconds is read as one of five. -/
theorem timeout_wraps : ¬ ∀ (kind : Kind) (dict : FrameDict), kind.codec.Carries dict := by
  intro claimed
  let dict : FrameDict := [("action_id", .string "a"), ("timeout_ms", .number (.int (2 ^ 32 + 5)))]
  have carried := claimed .action dict rfl ("timeout_ms", _) List.mem_cons_self (2 ^ 32 + 5) rfl
  cases carried

end Nps.FrameCodecs
