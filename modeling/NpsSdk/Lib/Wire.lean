import Mathlib.Algebra.Group.Nat.Defs
import Mathlib.Data.List.Basic
import Mathlib.Data.List.Induction
import Mathlib.Tactic.Common

/-! Byte streams read from the front. Integers are stored most significant byte
first; a reader either consumes one record or reports that the stream is over. -/
namespace Wire

abbrev Bytes := List UInt8

def bigEndian : (width value : Nat) → Bytes
  | 0, _ => []
  | width + 1, value => bigEndian width (value / 256) ++ [UInt8.ofNat value]

def number (bytes : Bytes) : Nat :=
  bytes.foldl (fun total byte => 256 * total + byte.toNat) 0

@[simp] theorem bigEndian_length (width value : Nat) : (bigEndian width value).length = width := by
  induction width generalizing value with
  | zero => rfl
  | succ width ih => simp only [bigEndian, List.length_append, List.length_singleton, ih]

theorem number_append (bytes : Bytes) (byte : UInt8) :
    number (bytes ++ [byte]) = 256 * number bytes + byte.toNat := by
  simp only [number, List.foldl_append, List.foldl_cons, List.foldl_nil]

theorem number_lt (bytes : Bytes) : number bytes < 256 ^ bytes.length := by
  induction bytes using List.reverseRecOn with
  | nil => decide
  | append_singleton bytes byte ih =>
    rw [number_append, List.length_append, List.length_singleton, Nat.pow_succ]
    have := byte.toNat_lt
    omega

/-- Storing keeps the value modulo the field's range, as a narrowing cast does. -/
theorem number_bigEndian (width value : Nat) :
    number (bigEndian width value) = value % 256 ^ width := by
  induction width generalizing value with
  | zero => simp [bigEndian, number, Nat.mod_one]
  | succ width ih =>
    have low : (UInt8.ofNat value).toNat = value % 256 := by
      simp [UInt8.toNat_ofNat']
    rw [bigEndian, number_append, ih, low, Nat.pow_succ', Nat.mod_mul]
    omega

theorem number_fits {width value : Nat} (fits : value < 256 ^ width) :
    number (bigEndian width value) = value := by
  rw [number_bigEndian, Nat.mod_eq_of_lt fits]

inductive ReadError where
  | unexpectedEof
deriving DecidableEq, Repr

/-- Take exactly `count` bytes or fail; a short stream is never padded. -/
def readExact (count : Nat) (stream : Bytes) : Except ReadError (Bytes × Bytes) :=
  if count ≤ stream.length then .ok (stream.take count, stream.drop count)
  else .error .unexpectedEof

theorem readExact_append {count : Nat} (front rest : Bytes) (size : front.length = count) :
    readExact count (front ++ rest) = .ok (front, rest) := by
  subst size
  simp [readExact]

theorem readExact_splits {count : Nat} {stream front rest : Bytes}
    (read : readExact count stream = .ok (front, rest)) :
    stream = front ++ rest ∧ front.length = count := by
  unfold readExact at read
  split at read
  · cases read
    exact ⟨(List.take_append_drop count stream).symm, List.length_take_of_le ‹_›⟩
  · contradiction

section Records
variable {ε : Type}

abbrev Reader (ε : Type) := Bytes → Except ε (Option Bytes × Bytes)

def readMany (read : Reader ε) : Nat → Bytes → Except ε (List (Option Bytes) × Bytes)
  | 0, stream => .ok ([], stream)
  | count + 1, stream => do
    let (record, stream) ← read stream
    let (records, stream) ← readMany read count stream
    return (record :: records, stream)

def Splits (read : Reader ε) (record : Bytes) : Prop :=
  ∀ rest, read (record ++ rest) = .ok (some record, rest)

/-- The reader never recovers the record, whatever follows it. -/
def Loses (read : Reader ε) (record : Bytes) : Prop :=
  ∀ rest, read (record ++ rest) ≠ .ok (some record, rest)

def Consuming (read : Reader ε) : Prop :=
  ∀ stream record rest, read stream = .ok (some record, rest) → stream = record ++ rest

variable {read : Reader ε}

theorem readMany_splits {records : List Bytes} (splits : ∀ record ∈ records, Splits read record) :
    readMany read records.length records.flatten = .ok (records.map some, []) := by
  induction records with
  | nil => rfl
  | cons record records ih =>
    have first := splits record List.mem_cons_self records.flatten
    have others := ih (fun other member => splits other (List.mem_cons_of_mem _ member))
    simp only [List.length_cons, List.flatten_cons, readMany, first, others, bind, Except.bind,
      pure, Except.pure, List.map_cons]

/-- If a whole concatenation came back record by record, the reader recovered
each one in the position where it stands. -/
theorem recovered_of_readMany (consuming : Consuming read) {records : List Bytes}
    (all : readMany read records.length records.flatten = .ok (records.map some, [])) :
    ∀ record ∈ records, ∃ rest, read (record ++ rest) = .ok (some record, rest) := by
  induction records with
  | nil => simp
  | cons record records ih =>
    simp only [List.length_cons, List.flatten_cons, readMany, List.map_cons] at all
    cases first : read (record ++ records.flatten) with
    | error e => simp [first, bind, Except.bind] at all
    | ok step =>
      obtain ⟨found, stream⟩ := step
      cases others : readMany read records.length stream with
      | error e => simp [first, others, bind, Except.bind] at all
      | ok tail =>
        simp only [first, others, bind, Except.bind, pure, Except.pure, Except.ok.injEq,
          Prod.mk.injEq, List.cons.injEq] at all
        obtain ⟨⟨rfl, found⟩, done⟩ := all
        have same : records.flatten = stream :=
          List.append_cancel_left (consuming _ _ _ first)
        subst same
        have rest := ih (others.trans (by rw [← found, ← done]))
        intro other member
        rcases List.mem_cons.mp member with rfl | member
        · exact ⟨_, first⟩
        · exact rest other member

/-- Reading back a concatenation is exact precisely when no record is lost. -/
theorem readMany_iff (consuming : Consuming read) {ι : Type} {wire : ι → Bytes} {good : ι → Prop}
    (splits : ∀ item, good item → Splits read (wire item))
    (loses : ∀ item, ¬ good item → Loses read (wire item)) (items : List ι) :
    readMany read items.length (items.map wire).flatten =
        .ok (items.map (fun item => some (wire item)), []) ↔
      ∀ item ∈ items, good item := by
  have length : items.length = (items.map wire).length := (List.length_map _).symm
  have wires : items.map (fun item => some (wire item)) = (items.map wire).map some := by simp
  rw [length, wires]
  constructor
  · intro all item member
    by_contra bad
    obtain ⟨rest, found⟩ :=
      recovered_of_readMany consuming all (wire item) (List.mem_map_of_mem member)
    exact loses item bad rest found
  · intro all
    refine readMany_splits fun record member => ?_
    obtain ⟨item, found, rfl⟩ := List.mem_map.mp member
    exact splits item (all item found)

end Records
end Wire
