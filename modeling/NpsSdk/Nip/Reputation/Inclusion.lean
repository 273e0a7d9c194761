import NpsSdk.Lib.Merkle
import NpsSdk.Nip.Reputation.LogEntry

/-! What an accepted inclusion proof shows. The verifier takes the side of each step from the leaf
index alone; the tree takes it from the index and the number of leaves. -/
namespace Nps.Nip.Reputation
open Merkle
open Wire (Bytes)

def Names (auditPath : List String) (siblings : List Key32) : Prop :=
  auditPath.map base64urlDecode = siblings.map fun sibling => .ok sibling.1

def Readable (step : String) : Prop :=
  ∃ sibling, base64urlDecode step = .ok sibling ∧ sibling.length = 32

theorem names_nil {siblings : List Key32} : Names [] siblings ↔ siblings = [] := by
  cases siblings with
  | nil => simp [Names]
  | cons => simp [Names]

theorem names_cons {step : String} {rest : List String} {siblings : List Key32} :
    Names (step :: rest) siblings ↔ ∃ sibling others, siblings = sibling :: others ∧
      base64urlDecode step = .ok sibling.1 ∧ Names rest others := by
  cases siblings with
  | nil => simp [Names]
  | cons sibling others =>
    simp only [Names, List.map_cons, List.cons.injEq]
    constructor
    · rintro ⟨first, later⟩
      exact ⟨sibling, others, ⟨rfl, rfl⟩, first, later⟩
    · rintro ⟨_, _, ⟨rfl, rfl⟩, first, later⟩
      exact ⟨first, later⟩

theorem Names.unique {auditPath : List String} {siblings others : List Key32}
    (first : Names auditPath siblings) (second : Names auditPath others) : siblings = others := by
  have same := first.symm.trans second
  refine List.map_injective_iff.mpr ?_ same
  intro key key' equal
  exact Subtype.ext (Except.ok.inj equal)

theorem Names.length {auditPath : List String} {siblings : List Key32}
    (named : Names auditPath siblings) : auditPath.length = siblings.length := by
  have lengths := congrArg List.length named
  rwa [List.length_map, List.length_map] at lengths

theorem names_encode (siblings : List Key32) :
    Names (siblings.map fun sibling => Base64.encode .urlSafe .none sibling.1) siblings := by
  rw [Names, List.map_map]
  exact List.map_congr_left fun sibling _ => Base64.decode_encode _ _

/-- The sides that a leaf index stands for, from the root down. -/
def sides (leafIndex length : Nat) : List Side := ((List.range length).map leafIndex.testBit).reverse

def steps (leafIndex : Nat) (siblings : List Key32) : List (Side × Key32) :=
  (sides leafIndex siblings.length).zip siblings.reverse

theorem steps_reverse (leafIndex : Nat) (siblings : List Key32) :
    (steps leafIndex siblings).reverse =
      ((List.range' 0 siblings.length).map leafIndex.testBit).zip siblings := by
  rw [steps, sides, ← List.range_eq_range', List.zip_eq_zipWith, List.reverse_zipWith (by simp),
    List.reverse_reverse, List.reverse_reverse, ← List.zip_eq_zipWith]

theorem sides_length (index length : Nat) : (sides index length).length = length := by
  simp [sides]

def leafBytes (entry : ReputationLogEntry) : Bytes := Text.utf8 (leafCanonicalJson entry)

section
variable {entries : List ReputationLogEntry} {some_ : entries ≠ []}

/-- The tree of RFC 9162 over the entries. -/
def logTree (entries : List ReputationLogEntry) (some_ : entries ≠ []) : HashTree Bytes :=
  HashTree.ofList (entries.map leafBytes) fun none => some_ (List.map_eq_nil_iff.mp none)

theorem logTree_size : (logTree entries some_).size = entries.length := by
  rw [logTree, HashTree.ofList_size, List.length_map]

theorem logTree_leaves : (logTree entries some_).leaves = entries.map leafBytes :=
  HashTree.ofList_leaves _ _

end

section
variable [Sha256]

def Fixed : Prop := ∀ bytes, (Sha256.digest bytes).length = 32

def hashing (fixed : Fixed) : Hashing Bytes Bytes Key32 where
  leaf bytes := 0x00 :: bytes
  node left right := 0x01 :: (left.1 ++ right.1)
  digest bytes := ⟨Sha256.digest bytes, fixed bytes⟩
  leaf_inj same := (List.cons.inj same).2
  node_inj {left right left' right'} same := by
    obtain ⟨first, second⟩ := List.append_inj (List.cons.inj same).2 (left.2.trans left'.2.symm)
    exact ⟨Subtype.ext first, Subtype.ext second⟩
  apart _ _ _ same := absurd (List.cons.inj same).1 (by decide)

section Fold
variable {fixed : Fixed}

def foldStep (fixed : Fixed) (digest : Key32) (step : Side × Key32) : Key32 :=
  (hashing fixed).digest (beside (hashing fixed) step.1 step.2 digest)

theorem testBit_side (fixed : Fixed) (leafIndex level : Nat) (node sibling : Key32) :
    (if (leafIndex >>> level) &&& 1 = 0 then 0x01 :: (node.1 ++ sibling.1)
      else 0x01 :: (sibling.1 ++ node.1)) =
    beside (hashing fixed) (leafIndex.testBit level) sibling node := by
  rw [Nat.testBit, Nat.and_comm]
  cases bit : (1 &&& leafIndex >>> level) with
  | zero => rfl
  | succ n => rfl

/-- The loop comes to its end over siblings that can be read, and fewer levels than an index has bits. -/
theorem foldPath_iff (fixed : Fixed) {leafIndex level : Nat} {auditPath : List String} (node : Key32)
    {result : Bytes} :
    foldPath leafIndex level auditPath node.1 = .ok (some result) ↔
      ∃ siblings, Names auditPath siblings ∧ (siblings = [] ∨ level + siblings.length ≤ 64) ∧
        result = ((((List.range' level siblings.length).map leafIndex.testBit).zip siblings).foldl
          (foldStep fixed) node).1 := by
  induction auditPath generalizing level node with
  | nil =>
    simp only [foldPath, Except.ok.injEq, Option.some.injEq, names_nil]
    constructor
    · rintro rfl
      exact ⟨[], rfl, .inl rfl, rfl⟩
    · rintro ⟨_, rfl, -, rfl⟩
      rfl
  | cons step rest ih =>
    simp only [names_cons]
    constructor
    · intro folded
      unfold foldPath at folded
      split at folded
      · cases folded
      rename_i sibling decoded
      by_cases length : sibling.length = 32
      case neg =>
        rw [if_pos length] at folded
        cases folded
      by_cases deep : 64 ≤ level
      case pos =>
        rw [if_neg (not_not.mpr length), if_pos deep] at folded
        cases folded
      rw [if_neg (not_not.mpr length), if_neg deep,
        testBit_side fixed leafIndex level node ⟨sibling, length⟩] at folded
      have later : foldPath leafIndex (level + 1) rest
          (foldStep fixed node (leafIndex.testBit level, ⟨sibling, length⟩)).1 = .ok (some result) :=
        folded
      obtain ⟨others, named, room, rfl⟩ := (ih _).mp later
      refine ⟨⟨sibling, length⟩ :: others, ⟨_, _, rfl, decoded, named⟩, .inr ?_, rfl⟩
      rw [List.length_cons]
      rcases room with rfl | room
      · simp only [List.length_nil]
        omega
      · omega
    · rintro ⟨_, ⟨sibling, others, rfl, decoded, named⟩, room, rfl⟩
      have bound : level + (others.length + 1) ≤ 64 := by
        rcases room with none | room
        · cases none
        · exact room
      unfold foldPath
      rw [decoded]
      dsimp only
      rw [if_neg (not_not.mpr sibling.2), if_neg (by omega),
        testBit_side fixed leafIndex level node sibling]
      exact (ih (foldStep fixed node (leafIndex.testBit level, sibling))).mpr
        ⟨others, named, .inr (by omega), rfl⟩

theorem climb_eq_foldl (a : Bytes) (way : List (Side × Key32)) :
    climb (hashing fixed) a way =
      way.reverse.foldl (foldStep fixed) ((hashing fixed).digest ((hashing fixed).leaf a)) := by
  induction way with
  | nil => rfl
  | cons step way ih =>
    rw [List.reverse_cons, List.foldl_append, ← ih]
    rfl

def Folds (fixed : Fixed) (proof : InclusionProof) (sth : SignedTreeHead) (entry : ReputationLogEntry)
    (siblings : List Key32) : Prop :=
  base64urlDecode sth.sha256RootHash =
    .ok (climb (hashing fixed) (leafBytes entry) (steps proof.leafIndex.toNat siblings)).1

/-- The digest that the proof names is that of the entry's leaf. -/
def NamesLeaf (proof : InclusionProof) (entry : ReputationLogEntry) : Prop :=
  base64urlDecode proof.leafHash = .ok (Sha256.digest (0x00 :: leafBytes entry))

variable {proof : InclusionProof} {sth : SignedTreeHead} {entry : ReputationLogEntry}

theorem foldPath_leaf (fixed : Fixed) (entry : ReputationLogEntry) {result : Bytes} :
    foldPath proof.leafIndex.toNat 0 proof.auditPath (Sha256.digest (0x00 :: leafBytes entry)) =
        .ok (some result) ↔
      ∃ siblings, Names proof.auditPath siblings ∧ siblings.length ≤ 64 ∧
        result = (climb (hashing fixed) (leafBytes entry) (steps proof.leafIndex.toNat siblings)).1 := by
  refine (foldPath_iff fixed ((hashing fixed).digest ((hashing fixed).leaf (leafBytes entry)))).trans ?_
  simp only [climb_eq_foldl, steps_reverse, Nat.zero_add]
  constructor
  · rintro ⟨siblings, named, room, same⟩
    refine ⟨siblings, named, ?_, same⟩
    rcases room with rfl | room
    · exact Nat.zero_le 64
    · exact room
  · rintro ⟨siblings, named, room, same⟩
    exact ⟨siblings, named, .inr room, same⟩

theorem verifyInclusion_iff (fixed : Fixed) :
    verifyInclusion proof sth entry = .ok true ↔ NamesLeaf proof entry ∧
      ∃ siblings, Names proof.auditPath siblings ∧ siblings.length ≤ 64 ∧
        Folds fixed proof sth entry siblings := by
  constructor
  · intro accepted
    unfold verifyInclusion at accepted
    dsimp only at accepted
    split at accepted
    · cases accepted
    rename_i expected decoded
    by_cases leaf : Sha256.digest (0x00 :: Text.utf8 (leafCanonicalJson entry)) ≠ expected
    · rw [if_pos leaf] at accepted
      cases accepted
    rw [if_neg leaf] at accepted
    split at accepted
    · cases accepted
    · cases accepted
    rename_i node folded
    split at accepted
    · cases accepted
    rename_i root decodedRoot
    obtain ⟨siblings, named, room, rfl⟩ := (foldPath_leaf fixed entry).mp folded
    have same := of_decide_eq_true (Except.ok.inj accepted)
    exact ⟨decoded.trans (congrArg Except.ok (not_not.mp leaf).symm), siblings, named, room,
      decodedRoot.trans (congrArg Except.ok same.symm)⟩
  · rintro ⟨leaf, siblings, named, room, folds⟩
    have folded := (foldPath_leaf fixed entry).mpr ⟨siblings, named, room, rfl⟩
    unfold verifyInclusion
    rw [NamesLeaf] at leaf
    rw [Folds] at folds
    simp only [leaf, leafBytes, ne_eq, not_true_eq_false, if_false] at folded folds ⊢
    rw [folded]
    simp only [folds, decide_true]

/-- The loop shifts too far after 64 steps, when the next sibling can still be read. -/
theorem foldPath_panics {leafIndex level : Nat} {auditPath : List String} {node : Bytes} {panic : Panic}
    (shallow : level ≤ 64) :
    foldPath leafIndex level auditPath node = .error panic ↔
      64 < level + auditPath.length ∧ ∀ step ∈ auditPath.take (65 - level), Readable step := by
  induction auditPath generalizing level node with
  | nil =>
    simp only [foldPath, List.length_nil]
    exact iff_of_false nofun (by omega)
  | cons step rest ih =>
    have head : (step :: rest).take (65 - level) = step :: rest.take (64 - level) := by
      rw [show 65 - level = (64 - level) + 1 by omega, List.take_succ_cons]
    rw [head, List.forall_mem_cons, List.length_cons]
    by_cases readable : Readable step
    case neg =>
      refine iff_of_false (fun panics => readable ?_) (fun deep => readable deep.2.1)
      unfold foldPath at panics
      split at panics
      · cases panics
      rename_i sibling decoded
      by_cases length : sibling.length = 32
      · exact ⟨sibling, decoded, length⟩
      · rw [if_pos length] at panics
        cases panics
    have ⟨sibling, decoded, length⟩ := readable
    unfold foldPath
    rw [decoded]
    dsimp only
    rw [if_neg (not_not.mpr length)]
    by_cases deep : 64 ≤ level
    · have last : level = 64 := Nat.le_antisymm shallow deep
      subst last
      rw [if_pos deep]
      refine iff_of_true (by cases panic; rfl) ⟨by omega, readable, fun step member => ?_⟩
      cases member
    · rw [if_neg deep, ih (by omega), show 65 - (level + 1) = 64 - level by omega,
        show level + 1 + rest.length = level + (rest.length + 1) by omega]
      simp only [readable, true_and]

theorem verifyInclusion_panics :
    verifyInclusion proof sth entry = .error .shiftOverflow ↔ NamesLeaf proof entry ∧
      64 < proof.auditPath.length ∧ ∀ step ∈ proof.auditPath.take 65, Readable step := by
  have folded (node : Bytes) : foldPath proof.leafIndex.toNat 0 proof.auditPath node =
      .error .shiftOverflow ↔ _ := foldPath_panics (Nat.zero_le 64)
  rw [Nat.zero_add] at folded
  constructor
  · intro panics
    unfold verifyInclusion at panics
    dsimp only at panics
    split at panics
    · cases panics
    rename_i expected decoded
    by_cases leaf : Sha256.digest (0x00 :: Text.utf8 (leafCanonicalJson entry)) ≠ expected
    · rw [if_pos leaf] at panics
      cases panics
    rw [if_neg leaf] at panics
    refine ⟨decoded.trans (congrArg Except.ok (not_not.mp leaf).symm), ?_⟩
    split at panics
    · rename_i panic deep
      cases panics
      exact (folded _).mp deep
    · cases panics
    · split at panics
      · cases panics
      · cases panics
  · rintro ⟨leaf, deep⟩
    have deep := (folded (Sha256.digest (0x00 :: leafBytes entry))).mpr deep
    unfold verifyInclusion
    rw [NamesLeaf] at leaf
    simp only [leaf, leafBytes, ne_eq, not_true_eq_false, if_false] at deep ⊢
    rw [deep]

end Fold

section Log
variable (fixed : Fixed) (entries : List ReputationLogEntry) (some_ : entries ≠ [])

structure HeadOf (sth : SignedTreeHead) : Prop where
  size : sth.treeSize.toNat = entries.length
  root : base64urlDecode sth.sha256RootHash = .ok ((logTree entries some_).root (hashing fixed)).1

/-- A proof that carries the audit path of a leaf. -/
structure PathOf (index : Nat) (entry : ReputationLogEntry) (proof : InclusionProof) : Prop where
  position : proof.leafIndex.toNat = index
  leaf : NamesLeaf proof entry
  path : Names proof.auditPath ((logTree entries some_).path (hashing fixed) index)

/-- No collision among what the tree hashes and what the verifier hashes. -/
def NoCollision (proof : InclusionProof) (entry : ReputationLogEntry) : Prop :=
  ∀ siblings, Names proof.auditPath siblings → (hashing fixed).CollisionFree
    ((logTree entries some_).inputs (hashing fixed) ++
      climbed (hashing fixed) (leafBytes entry) (steps proof.leafIndex.toNat siblings))

/-- Accepted proofs with this index and so many siblings are of the leaf at the index. -/
def SoundAt (index : UInt64) (length : Nat) : Prop :=
  ∀ proof sth entry, proof.leafIndex = index → proof.auditPath.length = length →
    HeadOf fixed entries some_ sth → NoCollision fixed entries some_ proof entry →
    verifyInclusion proof sth entry = .ok true →
    (entries.map leafBytes)[index.toNat]? = some (leafBytes entry)

variable {fixed entries some_} {proof : InclusionProof} {sth : SignedTreeHead}
  {entry : ReputationLogEntry}

/-- No leaf is deeper than an index has bits. -/
theorem HeadOf.shallow (head : HeadOf fixed entries some_ sth) {way : List Side} {a : Bytes}
    (found : (logTree entries some_).descend way = some a) : way.length ≤ 64 := by
  refine (HashTree.descend_height found).trans (HashTree.ofList_height _ _ ?_)
  rw [List.length_map, ← head.size]
  exact Nat.le_of_lt sth.treeSize.toNat_lt

theorem HeadOf.folds_iff (head : HeadOf fixed entries some_ sth) {siblings : List Key32} :
    Folds fixed proof sth entry siblings ↔
      climb (hashing fixed) (leafBytes entry) (steps proof.leafIndex.toNat siblings) =
        (logTree entries some_).root (hashing fixed) := by
  rw [Folds, head.root, Except.ok.injEq, Subtype.coe_inj]
  exact eq_comm

/-- The audit path of a leaf is accepted where the bits of its index are the sides that the tree
takes to it, or lead from one subtree to its double, and without collisions only there. -/
theorem accepts {index : Nat} (inside : index < entries.length)
    (path : PathOf fixed entries some_ index entries[index] proof)
    (head : HeadOf fixed entries some_ sth) :
    ((logTree entries some_).Passes ((logTree entries some_).route index)
        (sides index ((logTree entries some_).route index).length) →
      verifyInclusion proof sth entries[index] = .ok true) ∧
    (NoCollision fixed entries some_ proof entries[index] →
      verifyInclusion proof sth entries[index] = .ok true →
      (logTree entries some_).Passes ((logTree entries some_).route index)
        (sides index ((logTree entries some_).route index).length)) := by
  have found : (logTree entries some_).descend ((logTree entries some_).route index) =
      some (leafBytes entries[index]) := by
    rw [HashTree.descend_route _ (by rwa [logTree_size]), logTree_leaves, List.getElem?_map,
      List.getElem?_eq_getElem inside, Option.map_some]
  have upward : ((logTree entries some_).path (hashing fixed) index).reverse =
      (logTree entries some_).siblings (hashing fixed) ((logTree entries some_).route index) :=
    HashTree.path_reverse _ _ _
  have size : ((logTree entries some_).path (hashing fixed) index).length =
      ((logTree entries some_).route index).length := by
    rw [← List.length_reverse, upward, HashTree.siblings_length _ found]
  have way : steps proof.leafIndex.toNat ((logTree entries some_).path (hashing fixed) index) =
      (sides index ((logTree entries some_).route index).length).zip
        ((logTree entries some_).siblings (hashing fixed) ((logTree entries some_).route index)) := by
    rw [steps, path.position, size, upward]
  rw [verifyInclusion_iff fixed]
  constructor
  · intro passes
    refine ⟨path.leaf, _, path.path, size ▸ head.shallow found, head.folds_iff.mpr ?_⟩
    rw [way]
    exact climb_of_passes found (sides_length _ _) passes
  · rintro free ⟨-, siblings, named, -, folds⟩
    cases named.unique path.path
    have climbs := free _ path.path
    have same := head.folds_iff.mp folds
    rw [way] at climbs same
    exact passes_of_climb found (sides_length _ _) climbs same

/-- What is accepted is the leaf that the low bits of the index lead to. -/
theorem accepted_descends (head : HeadOf fixed entries some_ sth)
    (free : NoCollision fixed entries some_ proof entry)
    (accepted : verifyInclusion proof sth entry = .ok true) :
    (logTree entries some_).descend (sides proof.leafIndex.toNat proof.auditPath.length) =
      some (leafBytes entry) := by
  obtain ⟨-, siblings, named, -, folds⟩ := (verifyInclusion_iff fixed).mp accepted
  have found := descend_of_climb (free siblings named) (head.folds_iff.mp folds)
  have way : (steps proof.leafIndex.toNat siblings).map Prod.fst =
      sides proof.leafIndex.toNat proof.auditPath.length := by
    rw [steps, named.length, List.map_fst_zip (by simp [sides_length])]
  rwa [way] at found

/-- The leaf that the low bits of an index lead to has an accepted proof under that index. -/
theorem exists_accepted {size : UInt64} (sized : size.toNat = entries.length)
    (free : (hashing fixed).CollisionFree ((logTree entries some_).inputs (hashing fixed)))
    {index : UInt64} {length : Nat} {a : Bytes}
    (found : (logTree entries some_).descend (sides index.toNat length) = some a) :
    ∃ proof sth entry, proof.leafIndex = index ∧ proof.auditPath.length = length ∧
      HeadOf fixed entries some_ sth ∧ NoCollision fixed entries some_ proof entry ∧
      verifyInclusion proof sth entry = .ok true ∧ leafBytes entry = a := by
  obtain ⟨entry, -, rfl⟩ : ∃ entry ∈ entries, leafBytes entry = a := by
    have member := HashTree.descend_mem found
    rwa [logTree_leaves, List.mem_map] at member
  let siblings := ((logTree entries some_).siblings (hashing fixed) (sides index.toNat length)).reverse
  have count : siblings.length = length := by
    rw [List.length_reverse, HashTree.siblings_length _ found, sides_length]
  let proof : InclusionProof := {
    leafIndex := index, treeSize := size
    leafHash := Base64.encode .urlSafe .none (Sha256.digest (0x00 :: leafBytes entry))
    auditPath := siblings.map fun sibling => Base64.encode .urlSafe .none sibling.1 }
  let sth : SignedTreeHead := {
    treeSize := size
    sha256RootHash :=
      Base64.encode .urlSafe .none ((logTree entries some_).root (hashing fixed)).1 }
  have head : HeadOf fixed entries some_ sth := ⟨sized, Base64.decode_encode _ _⟩
  have way : steps index.toNat siblings = (sides index.toNat length).zip
      ((logTree entries some_).siblings (hashing fixed) (sides index.toNat length)) := by
    rw [steps, count, List.reverse_reverse]
  obtain ⟨climbs, within⟩ := climb_route (h := hashing fixed) found
  refine ⟨proof, sth, entry, rfl, ?_, head, ?_, ?_, rfl⟩
  · rw [List.length_map, count]
  · intro others named
    cases named.unique (names_encode siblings)
    apply free.subset
    rw [way]
    exact List.append_subset.mpr ⟨List.Subset.refl _, within⟩
  · refine (verifyInclusion_iff fixed).mpr
      ⟨Base64.decode_encode _ _, siblings, names_encode siblings, ?_, ?_⟩
    · have shallow := head.shallow found
      rwa [sides_length, ← count] at shallow
    · rw [head.folds_iff, way, climbs]

theorem soundAt_iff {size : UInt64} (sized : size.toNat = entries.length)
    (free : (hashing fixed).CollisionFree ((logTree entries some_).inputs (hashing fixed)))
    (index : UInt64) (length : Nat) :
    SoundAt fixed entries some_ index length ↔
      ∀ a, (logTree entries some_).descend (sides index.toNat length) = some a →
        (entries.map leafBytes)[index.toNat]? = some a := by
  constructor
  · intro sound a found
    obtain ⟨proof, sth, entry, same, count, head, none, accepted, rfl⟩ :=
      exists_accepted sized free found
    exact sound proof sth entry same count head none accepted
  · intro leads proof sth entry same count head none accepted
    subst same
    subst count
    exact leads _ (accepted_descends head none accepted)

/-- Audit paths are accepted where the index has the sides of the tree, and without collisions only
there; without collisions accepted proofs are of the leaf at their index where its low bits lead
there; and proofs of more than 64 levels stop the verifier when it can read the first 65. -/
theorem inclusion_iff (fixed : Fixed) (entries : List ReputationLogEntry) (some_ : entries ≠ [])
    {size : UInt64} (sized : size.toNat = entries.length) :
    (∀ index (inside : index < entries.length) proof sth,
      PathOf fixed entries some_ index entries[index] proof → HeadOf fixed entries some_ sth →
      ((logTree entries some_).Passes ((logTree entries some_).route index)
          (sides index ((logTree entries some_).route index).length) →
        verifyInclusion proof sth entries[index] = .ok true) ∧
      (NoCollision fixed entries some_ proof entries[index] →
        verifyInclusion proof sth entries[index] = .ok true →
        (logTree entries some_).Passes ((logTree entries some_).route index)
          (sides index ((logTree entries some_).route index).length))) ∧
    ((hashing fixed).CollisionFree ((logTree entries some_).inputs (hashing fixed)) →
      ∀ index length, SoundAt fixed entries some_ index length ↔
        ∀ a, (logTree entries some_).descend (sides index.toNat length) = some a →
          (entries.map leafBytes)[index.toNat]? = some a) ∧
    ∀ proof sth entry, verifyInclusion proof sth entry ≠ .error .shiftOverflow ↔
      ¬ (NamesLeaf proof entry ∧ 64 < proof.auditPath.length ∧
        ∀ step ∈ proof.auditPath.take 65, Readable step) :=
  ⟨fun _ inside _ _ path head => accepts inside path head,
    fun free => soundAt_iff sized free, fun _ _ _ => not_congr verifyInclusion_panics⟩

end Log
end

namespace Three

def entry (seq : Nat) : ReputationLogEntry where
  v := 1
  logId := "l"
  seq := seq
  timestamp := "t"
  subjectNid := "s"
  incident := .other
  severity := .info
  issuerNid := "i"
  signature := ""

def leaf (seq : Nat) : Bytes :=
  (Json.Value.object (Json.insert "signature" (.string "") (signingMap (entry seq)))).compact.flatMap
    String.utf8EncodeChar

theorem leafBytes_entry (seq : Nat) : leafBytes (entry seq) = leaf seq := by
  rw [leafBytes, Text.utf8, leafCanonicalJson, Json.Value.text, String.toList_ofList]
  rfl

-- The SHA-256 digests of the leaves, of their nodes, and of the last two the other way round.
def leaf0 : Key32 := ⟨[
  0xAA, 0x0B, 0xC9, 0xEF, 0x1C, 0x7B, 0x4C, 0x59, 0x62, 0x6A, 0x22, 0x17, 0xE0, 0x33, 0x6B, 0xFB,
  0x34, 0x6E, 0x17, 0x84, 0x28, 0xAD, 0xFB, 0xC7, 0xD1, 0x6E, 0x17, 0x6C, 0x34, 0xDD, 0xA4, 0x54], rfl⟩

def leaf1 : Key32 := ⟨[
  0xE8, 0x36, 0xC1, 0xA7, 0x76, 0x11, 0x8E, 0x37, 0x9F, 0x90, 0x38, 0xC0, 0xB0, 0x9A, 0x8E, 0x0F,
  0x83, 0xB3, 0xB8, 0x25, 0xD9, 0xD6, 0x10, 0xBB, 0xA6, 0xA2, 0x1A, 0x98, 0x22, 0x88, 0xC8, 0xAB], rfl⟩

def leaf2 : Key32 := ⟨[
  0x8A, 0x6E, 0xB0, 0x30, 0x44, 0x53, 0x5B, 0xDE, 0xE0, 0x68, 0x15, 0xF5, 0xC2, 0x36, 0x98, 0xA0,
  0x7F, 0xB7, 0xEF, 0x62, 0xEA, 0x81, 0x65, 0xB7, 0xC8, 0x03, 0xFB, 0x07, 0x9C, 0x80, 0x30, 0xB8], rfl⟩

def node01 : Key32 := ⟨[
  0xA9, 0x99, 0x7D, 0x0A, 0x4A, 0x2D, 0x01, 0xE4, 0x24, 0xA9, 0xCF, 0xE2, 0x21, 0x8A, 0x67, 0xA5,
  0xE6, 0x54, 0x4A, 0x9C, 0x56, 0x9D, 0x3A, 0x0E, 0xF1, 0x1F, 0x45, 0x44, 0xA4, 0xA9, 0xD4, 0x6B], rfl⟩

def root : Key32 := ⟨[
  0x1D, 0x74, 0xFF, 0x51, 0x9B, 0x32, 0x93, 0x6E, 0xC1, 0xE1, 0x12, 0x80, 0x17, 0x67, 0xD0, 0x16,
  0x7C, 0x2B, 0x3F, 0x04, 0xB5, 0xC7, 0xFA, 0x47, 0xCD, 0x97, 0x4B, 0xDA, 0xA7, 0xAB, 0x35, 0xC3], rfl⟩

def wrong : Key32 := ⟨[
  0x76, 0x6E, 0x7A, 0x38, 0x22, 0x22, 0xDF, 0x16, 0xDF, 0x5B, 0x3C, 0x3B, 0xA8, 0xC2, 0x39, 0x38,
  0x74, 0x16, 0x8F, 0x90, 0x25, 0x17, 0x8F, 0x82, 0x27, 0x30, 0x01, 0x09, 0xD1, 0xC0, 0x0D, 0xE5], rfl⟩

def digests : List (Bytes × Key32) := [
  (0x00 :: leaf 0, leaf0), (0x00 :: leaf 1, leaf1), (0x00 :: leaf 2, leaf2),
  (0x01 :: (leaf0.1 ++ leaf1.1), node01), (0x01 :: (node01.1 ++ leaf2.1), root),
  (0x01 :: (leaf2.1 ++ node01.1), wrong)]

/-- Of any other bytes no digest is looked at. -/
def digestOf (bytes : Bytes) : Key32 := (digests.lookup bytes).getD leaf0

scoped instance sha256 : Sha256 where
  digest bytes := (digestOf bytes).1

theorem fixed : Fixed := fun bytes => (digestOf bytes).2

def encode (key : Key32) : String := Base64.encode .urlSafe .none key.1

theorem decode_encode (key : Key32) : base64urlDecode (encode key) = .ok key.1 :=
  Base64.decode_encode _ _

theorem digest_leaves : (hashing fixed).digest (0x00 :: leaf 0) = leaf0 ∧
    (hashing fixed).digest (0x00 :: leaf 1) = leaf1 ∧
    (hashing fixed).digest (0x00 :: leaf 2) = leaf2 := by
  decide +kernel

theorem digest_nodes : (hashing fixed).digest (0x01 :: (leaf0.1 ++ leaf1.1)) = node01 ∧
    (hashing fixed).digest (0x01 :: (node01.1 ++ leaf2.1)) = root ∧
    (hashing fixed).digest (0x01 :: (leaf2.1 ++ node01.1)) = wrong := by
  decide +kernel

def entries : List ReputationLogEntry := [entry 0, entry 1, entry 2]

/-- The audit path of the last leaf is one node. -/
def proof : InclusionProof where
  leafIndex := 2
  treeSize := 3
  leafHash := encode leaf2
  auditPath := [encode node01]

def head : SignedTreeHead where
  treeSize := 3
  sha256RootHash := encode root

theorem tree : logTree entries (List.cons_ne_nil _ _) =
    .node (.node (.leaf (leaf 0)) (.leaf (leaf 1))) (.leaf (leaf 2)) := by
  have two : split 2 = 1 := by decide
  have three : split 3 = 2 := by decide
  simp [logTree, entries, HashTree.ofList, two, three, leafBytes_entry]

theorem left_root :
    (HashTree.node (.leaf (leaf 0)) (.leaf (leaf 1))).root (hashing fixed) = node01 := by
  change (hashing fixed).digest (0x01 :: (((hashing fixed).digest (0x00 :: leaf 0)).1 ++
    ((hashing fixed).digest (0x00 :: leaf 1)).1)) = node01
  rw [digest_leaves.1, digest_leaves.2.1, digest_nodes.1]

theorem tree_root : (logTree entries (List.cons_ne_nil _ _)).root (hashing fixed) = root := by
  rw [tree, HashTree.root, left_root]
  change (hashing fixed).digest (0x01 :: (node01.1 ++ ((hashing fixed).digest (0x00 :: leaf 2)).1)) =
    root
  rw [digest_leaves.2.2, digest_nodes.2.1]

/-- The audit path of the middle leaf is both its neighbours. -/
def middleProof : InclusionProof where
  leafIndex := 1
  treeSize := 3
  leafHash := encode leaf1
  auditPath := [encode leaf0, encode leaf2]

theorem head_of : HeadOf fixed entries (List.cons_ne_nil _ _) head :=
  ⟨rfl, by rw [tree_root]; exact decode_encode root⟩

/-- What is hashed for the tree, which is also what the verifier hashes for the middle leaf. -/
def hashed : List Bytes := (digests.take 5).map Prod.fst

theorem tree_inputs :
    (logTree entries (List.cons_ne_nil _ _)).inputs (hashing fixed) ⊆ hashed := by
  have inputs : (HashTree.node (.node (.leaf (leaf 0)) (.leaf (leaf 1))) (.leaf (leaf 2))).inputs
      (hashing fixed) = [0x01 :: (node01.1 ++ leaf2.1), 0x01 :: (leaf0.1 ++ leaf1.1),
        0x00 :: leaf 0, 0x00 :: leaf 1, 0x00 :: leaf 2] := by
    decide +kernel
  rw [tree, inputs]
  decide +kernel

theorem hashed_free : (hashing fixed).CollisionFree hashed := by
  have apart : (hashed.map (hashing fixed).digest).Nodup := by decide +kernel
  intro x first y second same
  exact List.inj_on_of_nodup_map apart first second same

/-- The middle leaf is accepted, through a node on either side, and its proof shows where it is. -/
theorem middle_accepted : verifyInclusion middleProof head (entry 1) = .ok true ∧
    (entries.map leafBytes)[1]? = some (leafBytes (entry 1)) := by
  have named : NamesLeaf middleProof (entry 1) := by
    rw [NamesLeaf, leafBytes_entry]
    exact (decode_encode leaf1).trans (congrArg (Except.ok ∘ Subtype.val) digest_leaves.2.1.symm)
  have path : Names middleProof.auditPath [leaf0, leaf2] :=
    names_cons.mpr ⟨_, _, rfl, decode_encode _, names_cons.mpr ⟨_, _, rfl, decode_encode _, rfl⟩⟩
  have passes : (logTree entries (List.cons_ne_nil _ _)).Passes
      ((logTree entries (List.cons_ne_nil _ _)).route 1)
      (sides 1 ((logTree entries (List.cons_ne_nil _ _)).route 1).length) := by
    rw [tree]
    exact ⟨.inl rfl, .inl rfl, trivial⟩
  have pathOf : PathOf fixed entries (List.cons_ne_nil _ _) 1 (entry 1) middleProof := by
    refine ⟨rfl, named, ?_⟩
    rw [tree]
    change Names middleProof.auditPath
      [(hashing fixed).digest (0x00 :: leaf 0), (hashing fixed).digest (0x00 :: leaf 2)]
    rw [digest_leaves.1, digest_leaves.2.2]
    exact path
  have sized : (3 : UInt64).toNat = entries.length := rfl
  obtain ⟨complete, sound, -⟩ := inclusion_iff fixed entries (List.cons_ne_nil _ _) sized
  have accepted := (complete 1 (by decide) middleProof head pathOf head_of).1 passes
  have none : NoCollision fixed entries (List.cons_ne_nil _ _) middleProof (entry 1) := by
    intro siblings others
    cases others.unique path
    have climbs : climbed (hashing fixed) (leaf 1) (steps 1 [leaf0, leaf2]) ⊆ hashed := by
      decide +kernel
    rw [leafBytes_entry]
    exact hashed_free.subset (List.append_subset.mpr ⟨tree_inputs, climbs⟩)
  refine ⟨accepted, ((sound (hashed_free.subset tree_inputs)) 1 2).mpr ?_ middleProof head (entry 1)
    rfl rfl head_of none accepted⟩
  rw [tree]
  rintro a found
  cases found
  exact congrArg some (leafBytes_entry 1)

/-- The last leaf is on the right of the root, and the low bit of its index is zero. -/
theorem last_rejected : PathOf fixed entries (List.cons_ne_nil _ _) 2 (entry 2) proof ∧
    HeadOf fixed entries (List.cons_ne_nil _ _) head ∧
    verifyInclusion proof head (entry 2) ≠ .ok true := by
  have path : Names proof.auditPath [node01] := names_cons.mpr ⟨_, _, rfl, decode_encode _, rfl⟩
  have named : NamesLeaf proof (entry 2) := by
    rw [NamesLeaf, leafBytes_entry]
    exact (decode_encode leaf2).trans (congrArg (Except.ok ∘ Subtype.val) digest_leaves.2.2.symm)
  refine ⟨⟨rfl, named, ?_⟩, head_of, fun accepted => ?_⟩
  · rw [tree]
    change Names proof.auditPath [(HashTree.node (.leaf (leaf 0)) (.leaf (leaf 1))).root (hashing fixed)]
    rw [left_root]
    exact path
  · obtain ⟨-, siblings, others, -, folds⟩ := (verifyInclusion_iff fixed).mp accepted
    cases others.unique path
    have climbs : climb (hashing fixed) (leafBytes (entry 2)) (steps 2 [node01]) = wrong := by
      rw [leafBytes_entry]
      change (hashing fixed).digest (0x01 :: (((hashing fixed).digest (0x00 :: leaf 2)).1 ++ node01.1)) =
        wrong
      rw [digest_leaves.2.2, digest_nodes.2.2]
    have same := (decode_encode root).symm.trans (folds.trans (congrArg (Except.ok ∘ Subtype.val) climbs))
    exact absurd (Except.ok.inj same) (by decide)

end Three
end Nps.Nip.Reputation
