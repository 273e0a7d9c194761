import NpsSdk.Lib.Checked
import NpsSdk.Nip.X509.Verifier

/-! The DER readers as they move through their buffers: every index, slice and sum is checked, and the
answers are those of the readers of lists. -/
namespace Nps.Nip.X509.DerCursor
open Checked
open Wire (Bytes)

inductive Fault where
  | index
  | slice
  | overflow
  | loop
  | text (panic : Der.Panic)
deriving DecidableEq

/-- A sum of a `usize`, which has 64 bits. -/
def usize (sum : Nat) : Except Fault Nat := if sum < 2 ^ 64 then .ok sum else .error .overflow

structure Slice where
  bytes : Bytes
  short : bytes.length < 2 ^ 63

namespace Slice
variable (slice : Slice)

def len : Nat := slice.bytes.length

def get (index : Nat) : Except Fault UInt8 := slice.bytes[index]?.elim (.error .index) .ok

def range (start stop : Nat) : Except Fault Slice :=
  if start ≤ stop ∧ stop ≤ slice.len then
    .ok ⟨(slice.bytes.take stop).drop start, by have := slice.short; simp; omega⟩
  else .error .slice

end Slice

abbrev Reading := OptionT (Except Fault)

/-- `len << 8 | byte`, without the bits that are shifted out. -/
def shiftIn (len : Nat) (byte : UInt8) : Nat := (len <<< 8) % 2 ^ 64 ||| byte.toNat

def lengthBytes (slice : Slice) (n : Nat) : Except Fault Nat :=
  (List.range n).foldlM (fun len i => return shiftIn len (← slice.get (1 + i))) 0

/-- A length of one byte or, after the count of its bytes, of up to four. -/
def lenFrom (slice : Slice) (first : UInt8) : Reading (Nat × Nat) :=
  if first &&& 0x80 = 0 then return (first.toNat, 1)
  else do
    let n := (first &&& 0x7F).toNat
    guard ¬ (n = 0 ∨ n > 4 ∨ slice.len < 1 + n)
    let len ← lengthBytes slice n
    return (len, 1 + n)

def readLen (slice : Slice) : Reading (Nat × Nat) :=
  match slice.bytes.head? with
  | none => failure
  | some first => lenFrom slice first

def readDerLength (slice : Slice) : Reading (Nat × Nat) := do
  guard (slice.bytes ≠ [])
  lenFrom slice (← slice.get 0)

structure Cursor where
  b : Slice
  pos : Nat
  within : pos ≤ b.len

namespace Cursor

def new (b : Slice) : Cursor := ⟨b, 0, Nat.zero_le _⟩

def left (c : Cursor) : Bytes := c.b.bytes.drop c.pos

def read (c : Cursor) : Reading ((UInt8 × Slice) × Cursor) := do
  let least ← usize (c.pos + 2)
  guard (least ≤ c.b.len)
  let tag ← c.b.get c.pos
  let tail ← c.b.range (c.pos + 1) c.b.len
  let (len, header) ← readLen tail
  let start ← usize (c.pos + 1 + header)
  -- `checked_add`
  guard (start + len < 2 ^ 64)
  if within : start + len ≤ c.b.len then
    let content ← c.b.range start (start + len)
    return ((tag, content), { c with pos := start + len, within })
  else failure

end Cursor

def view (result : (UInt8 × Slice) × Cursor) : Der.Tlv × Bytes :=
  (⟨result.1.1, result.1.2.bytes⟩, result.2.left)

theorem usize_ok {sum : Nat} (small : sum < 2 ^ 64) : usize sum = .ok sum := if_pos small

theorem Slice.get_ok {slice : Slice} {index : Nat} {byte : UInt8} {rest : Bytes}
    (here : slice.bytes.drop index = byte :: rest) : slice.get index = .ok byte := by
  have found := congrArg List.head? here
  rw [List.head?_drop] at found
  rw [Slice.get, found]
  rfl

theorem Slice.range_ok {slice : Slice} {start stop : Nat} (order : start ≤ stop)
    (bound : stop ≤ slice.len) : ∃ part, slice.range start stop = .ok part ∧
      part.bytes = (slice.bytes.drop start).take (stop - start) :=
  ⟨_, if_pos ⟨order, bound⟩, by rw [List.take_drop, Nat.add_sub_cancel' order]⟩

theorem shiftIn_eq {len : Nat} (small : len < 2 ^ 24) (byte : UInt8) :
    shiftIn len byte = 256 * len + byte.toNat := by
  have shifted : len <<< 8 < 2 ^ 64 := by
    rw [Nat.shiftLeft_eq]
    omega
  rw [shiftIn, Nat.mod_eq_of_lt shifted, ← Nat.shiftLeft_add_eq_or_of_lt byte.toNat_lt,
    Nat.shiftLeft_eq, Nat.mul_comm]

theorem lengthBytes_ok {slice : Slice} {n : Nat} (few : n ≤ 4) (bytes : n < slice.len) :
    lengthBytes slice n = .ok (Wire.number ((slice.bytes.drop 1).take n)) := by
  induction n with
  | zero => rfl
  | succ n ih =>
    have before := ih (by omega) (by omega)
    unfold Slice.len at bytes
    have small := Wire.number_lt ((slice.bytes.drop 1).take n)
    have count : ((slice.bytes.drop 1).take n).length ≤ 3 := by
      rw [List.length_take]
      omega
    have small : Wire.number ((slice.bytes.drop 1).take n) < 2 ^ 24 :=
      Nat.lt_of_lt_of_le small (Nat.pow_le_pow_right (by decide) count)
    have there : 1 + n < slice.bytes.length := by omega
    have found : slice.get (1 + n) = .ok slice.bytes[1 + n] :=
      Slice.get_ok (List.drop_eq_getElem_cons there)
    unfold lengthBytes at before ⊢
    rw [List.range_succ, List.foldlM_append, before, Outcome.ok_bind, List.foldlM_cons, found,
      List.take_add_one, List.getElem?_drop, List.getElem?_eq_getElem there, Option.toList_some,
      Wire.number_append, ← shiftIn_eq small]
    rfl

theorem lenFrom_yields {slice : Slice} {first : UInt8} {rest : Bytes}
    (bytes : slice.bytes = first :: rest) :
    Yields (lenFrom slice first) id (Der.readLen slice.bytes) := by
  have len : slice.len = rest.length + 1 := by rw [Slice.len, bytes, List.length_cons]
  unfold lenFrom
  rw [bytes, Der.readLen]
  refine .cond (.pure _) (.check (fun within => ?_) fun without => ?_)
  · obtain ⟨positive, few, enough⟩ : _ ∧ _ ∧ _ := by simpa only [not_or] using within
    have rest_ : (slice.bytes.drop 1).take (first &&& 0x7F).toNat = rest.take (first &&& 0x7F).toNat := by
      rw [bytes, List.drop_one, List.tail_cons]
    refine .step (lengthBytes_ok (Nat.not_lt.mp few) (by omega)) ?_
    rw [rest_, if_neg (by omega)]
    exact .pure _
  · rw [if_pos (by omega)]

theorem readLen_yields (slice : Slice) : Yields (readLen slice) id (Der.readLen slice.bytes) := by
  unfold readLen
  cases bytes : slice.bytes with
  | nil => exact .failure
  | cons first rest =>
    have yields := lenFrom_yields bytes
    rwa [bytes] at yields

theorem readDerLength_yields (slice : Slice) :
    Yields (readDerLength slice) id (Der.readLen slice.bytes) := by
  refine .check (fun some_ => ?_) fun none => ?_
  · obtain ⟨first, rest, bytes⟩ := List.exists_cons_of_ne_nil some_
    exact .step (@Slice.get_ok slice 0 first rest bytes) (lenFrom_yields bytes)
  · rw [not_not.mp none, Der.readLen]

theorem readLen_bounds {bytes : Bytes} {len header : Nat}
    (read : Der.readLen bytes = some (len, header)) : len < 2 ^ 32 ∧ header ≤ 5 := by
  unfold Der.readLen at read
  split at read
  · cases read
  · rename_i first rest
    split at read
    · cases read
      have := first.toNat_lt
      omega
    · dsimp only at read
      split at read
      · cases read
      · rename_i within
        cases read
        have size : (rest.take (first &&& 0x7F).toNat).length ≤ 4 := by
          rw [List.length_take]
          omega
        have small := Nat.lt_of_lt_of_le (Wire.number_lt (rest.take (first &&& 0x7F).toNat))
          (Nat.pow_le_pow_right (by decide) size)
        exact ⟨small, by omega⟩

theorem der_read_cons (tag : UInt8) (rest : Bytes) : Der.read (tag :: rest) =
    (Der.readLen rest).bind fun (len, header) =>
      if header + len ≤ rest.length then
        some ({ tag, content := (rest.drop header).take len }, rest.drop (header + len))
      else none := by
  cases rest with
  | nil => rfl
  | cons second rest => rfl

theorem der_read_short {input : Bytes} (short : input.length < 2) : Der.read input = none := by
  match input, short with
  | [], _ => rfl
  | [_], _ => rfl

theorem read_yields (c : Cursor) : Yields c.read view (Der.read c.left) := by
  have short := c.b.short
  have within := c.within
  unfold Slice.len at within
  have size : c.left.length = c.b.bytes.length - c.pos := List.length_drop
  unfold Cursor.read
  refine .step (usize_ok (by omega)) (.check (fun least => ?_) fun few => der_read_short ?_)
  · unfold Slice.len at least
    obtain ⟨part, ranged, bytes⟩ := @Slice.range_ok c.b (c.pos + 1) c.b.len (Nat.le_of_succ_le least)
      (Nat.le_refl _)
    rw [Slice.len, ← List.length_drop, List.take_length] at bytes
    have here : c.left = c.b.bytes[c.pos] :: part.bytes := by
      rw [bytes]
      exact List.drop_eq_getElem_cons (Nat.lt_of_succ_lt least)
    have rest : part.bytes.length = c.b.bytes.length - (c.pos + 1) := by rw [bytes, List.length_drop]
    rw [here, der_read_cons]
    refine .step (Slice.get_ok here) (.step ranged (.bind (readLen_yields part) ?_))
    rintro ⟨len, header⟩ read
    have bounds := readLen_bounds read
    refine .step (usize_ok (by omega)) (.check (fun _ => ?_) fun many => absurd ?_ many)
    · dsimp only [id]
      by_cases fits : c.pos + 1 + header + len ≤ c.b.len
      · obtain ⟨content, ranged, same⟩ := @Slice.range_ok c.b _ _ (Nat.le_add_right _ len) fits
        have fits' : c.pos + 1 + header + len ≤ c.b.bytes.length := fits
        rw [dif_pos fits, if_pos (by omega)]
        refine .step ranged ⟨_, rfl, ?_⟩
        rw [Nat.add_sub_cancel_left] at same
        simp only [Option.map_some, view, Cursor.left, same, bytes, List.drop_drop, Nat.add_assoc]
      · have fits' : ¬ c.pos + 1 + header + len ≤ c.b.bytes.length := fits
        rw [dif_neg fits, if_neg (by omega)]
        exact .failure
    · omega
  · unfold Slice.len at few
    omega

def expect (tag : UInt8) (c : Cursor) : Reading (Slice × Cursor) := do
  let ((t, content), c) ← c.read
  if t = tag then return (content, c) else failure

def parts (result : Slice × Cursor) : Bytes × Bytes := (result.1.bytes, result.2.left)

theorem expect_yields (tag : UInt8) (c : Cursor) :
    Yields (expect tag c) parts (Der.expect tag c.left) := by
  refine .bind (read_yields c) ?_
  rintro ⟨⟨t, content⟩, c'⟩ -
  exact .cond (.pure (content, c')) .failure

def nextUpdate (der : Slice) : Reading Slice := do
  let (body, _) ← expect 0x30 (.new der)
  let (_, resp) ← expect 0x0A (.new body)
  let (rb, _) ← expect 0xA0 resp
  let (rbSeq, _) ← expect 0x30 (.new rb)
  let (_, rbs) ← expect 0x06 (.new rbSeq)
  let (basicDer, _) ← expect 0x04 rbs
  let (basic, _) ← expect 0x30 (.new basicDer)
  let (tbs, _) ← expect 0x30 (.new basic)
  let (cur, rd) ← (Cursor.new tbs).read
  let (cur, rd) ← if cur.1 = 0xA0 then rd.read else pure (cur, rd)
  let (cur, rd) ← if cur.1 &&& 0xC0 = 0x80 then rd.read else pure (cur, rd)
  let (cur, _) ← if cur.1 = 0x18 ∨ cur.1 = 0x17 then rd.read else pure (cur, rd)
  let responses ← if cur.1 = 0x30 then pure cur.2 else failure
  let (single, _) ← expect 0x30 (.new responses)
  let (_, sr) ← expect 0x30 (.new single)
  let (status, sr) ← sr.read
  let (thisUpdate, sr) ← if status.1 &&& 0xC0 = 0x80 then sr.read else failure
  let (next, _) ← if thisUpdate.1 = 0x18 ∨ thisUpdate.1 = 0x17 then expect 0xA0 sr else failure
  let (gt, _) ← expect 0x18 (.new next)
  return gt

theorem nextUpdate_yields (der : Slice) :
    Yields (nextUpdate der) Slice.bytes (Der.nextUpdateText der.bytes) := by
  refine .bind (expect_yields 0x30 (.new der)) ?_
  rintro ⟨body, _⟩ -
  refine .bind (expect_yields 0x0A (.new body)) ?_
  rintro ⟨_, resp⟩ -
  refine .bind (expect_yields 0xA0 resp) ?_
  rintro ⟨rb, _⟩ -
  refine .bind (expect_yields 0x30 (.new rb)) ?_
  rintro ⟨rbSeq, _⟩ -
  refine .bind (expect_yields 0x06 (.new rbSeq)) ?_
  rintro ⟨_, rbs⟩ -
  refine .bind (expect_yields 0x04 rbs) ?_
  rintro ⟨basicDer, _⟩ -
  refine .bind (expect_yields 0x30 (.new basicDer)) ?_
  rintro ⟨basic, _⟩ -
  refine .bind (expect_yields 0x30 (.new basic)) ?_
  rintro ⟨tbs, _⟩ -
  refine .bind (read_yields (.new tbs)) ?_
  rintro ⟨cur, rd⟩ -
  refine .join (read_yields rd) (.pure (cur, rd)) ?_
  rintro ⟨cur, rd⟩
  refine .join (read_yields rd) (.pure (cur, rd)) ?_
  rintro ⟨cur, rd⟩
  refine .join (read_yields rd) (.pure (cur, rd)) ?_
  rintro ⟨cur, _⟩
  have content : Yields (pure cur.2 : Reading Slice) Slice.bytes (some cur.2.bytes) := .pure cur.2
  refine .join content .failure ?_
  rintro responses
  refine .bind (expect_yields 0x30 (.new responses)) ?_
  rintro ⟨single, _⟩ -
  refine .bind (expect_yields 0x30 (.new single)) ?_
  rintro ⟨_, sr⟩ -
  refine .bind (read_yields sr) ?_
  rintro ⟨status, sr⟩ -
  refine .join (read_yields sr) .failure ?_
  rintro ⟨thisUpdate, sr⟩
  refine .join (expect_yields 0xA0 sr) .failure ?_
  rintro ⟨next, _⟩
  refine .bind (expect_yields 0x18 (.new next)) ?_
  rintro ⟨gt, _⟩ -
  exact .pure gt

/-- The fields of a certificate up to the block `[3]`. -/
def findExtensions : (fuel : Nat) → Cursor → Reading Slice
  | 0, _ => liftM (.error .loop : Except Fault Slice)
  | fuel + 1, c => do
    let ((t, v), c) ← c.read
    if t = 0xA3 then return v else findExtensions fuel c

def extensionValue (e : Cursor) : Reading Slice := do
  let (next, e) ← e.read
  let next ← if next.1 = 0x01 then (fun result => result.1) <$> e.read else pure next
  if next.1 = 0x04 then return next.2 else failure

def findExtension (wanted : Bytes) : (fuel : Nat) → Cursor → Reading Slice
  | 0, _ => liftM (.error .loop : Except Fault Slice)
  | fuel + 1, it => do
    let ((t, ext), it) ← it.read
    if t = 0x30 then
      match ← attempt (Cursor.new ext).read with
      | some ((ot, ov), e) =>
        if ot = 0x06 ∧ ov.bytes = wanted then extensionValue e else findExtension wanted fuel it
      | none => findExtension wanted fuel it
    else findExtension wanted fuel it

def findExtensionValue (certDer : Slice) (oid : Oid) : Reading Slice := do
  let (cert, _) ← expect 0x30 (.new certDer)
  let (tbs, _) ← expect 0x30 (.new cert)
  let exts ← findExtensions (tbs.len + 1) (.new tbs)
  let (extSeq, _) ← expect 0x30 (.new exts)
  findExtension (encodeOidContent oid) (extSeq.len + 1) (.new extSeq)

def parseUtf8Strings : (fuel : Nat) → Cursor → Reading (List String)
  | 0, _ => liftM (.error .loop : Except Fault (List String))
  | fuel + 1, inner =>
    if inner.pos ≥ inner.b.len then return []
    else do
      let ((t, c), inner) ← inner.read
      let text ← (OptionT.mk (.ok (if t = 0x0C then Text.ofUtf8? c.bytes else none)) : Reading String)
      let others ← parseUtf8Strings fuel inner
      return text :: others

def parseUtf8Sequence (value : Slice) : Reading (List String) := do
  let (content, _) ← expect 0x30 (.new value)
  parseUtf8Strings (content.len + 1) (.new content)

def readUtf8SequenceExtension (leafDer : Slice) (oid : Oid) : Except Fault (Option (List String)) := do
  match ← (findExtensionValue leafDer oid).run with
  | none => return none
  | some raw => return some ((← (parseUtf8Sequence raw).run).getD [])

theorem left_shorter {c c' : Cursor} {value : UInt8 × Slice}
    (read : Der.read c.left = some (view (value, c'))) : c'.left.length < c.left.length :=
  Der.read_shorter read

theorem der_findExtensions_eq (input : Bytes) : Der.findExtensions input =
    (Der.read input).bind fun (value, rest) =>
      if value.tag = 0xA3 then some value.content else Der.findExtensions rest := by
  rw [Der.findExtensions]
  split <;> simp [*]

theorem findExtensions_yields {fuel : Nat} {c : Cursor} (enough : c.left.length < fuel) :
    Yields (findExtensions fuel c) Slice.bytes (Der.findExtensions c.left) := by
  induction fuel generalizing c with
  | zero => cases enough
  | succ fuel ih =>
    rw [der_findExtensions_eq]
    refine .bind (read_yields c) ?_
    rintro ⟨⟨t, v⟩, c'⟩ read
    have shorter := left_shorter read
    exact .cond (.pure v) (ih (by omega))

def tlv (value : UInt8 × Slice) : Der.Tlv := ⟨value.1, value.2.bytes⟩

theorem extensionValue_yields (e : Cursor) :
    Yields (extensionValue e) Slice.bytes (Der.extensionValue e.left) := by
  refine .bind (read_yields e) ?_
  rintro ⟨next, e'⟩ -
  have second : Yields ((fun result => result.1) <$> e'.read) tlv ((Der.read e'.left).map (·.1)) :=
    .map (read_yields e') fun _ => rfl
  have first : Yields (pure next : Reading (UInt8 × Slice)) tlv (some (tlv next)) := .pure next
  refine .join second first ?_
  rintro ⟨t, value⟩
  exact .cond (.pure value) .failure

theorem der_findExtension_eq (wanted input : Bytes) : Der.findExtension wanted input =
    (Der.read input).bind fun (extension, rest) =>
      if extension.tag = 0x30 then
        (some (Der.read extension.content)).bind fun
          | some (oid, tail) =>
            if oid.tag = 0x06 ∧ oid.content = wanted then Der.extensionValue tail
            else Der.findExtension wanted rest
          | none => Der.findExtension wanted rest
      else Der.findExtension wanted rest := by
  rw [Der.findExtension]
  split
  · simp [*]
  · rename_i extension rest read
    rw [read, Option.bind_some]
    dsimp only
    by_cases tagged : extension.tag = 0x30
    · refine (if_pos tagged).trans (Eq.trans ?_ (if_pos tagged).symm)
      cases Der.read extension.content <;> rfl
    · exact (if_neg tagged).trans (if_neg tagged).symm

theorem findExtension_yields {wanted : Bytes} {fuel : Nat} {it : Cursor} (enough : it.left.length < fuel) :
    Yields (findExtension wanted fuel it) Slice.bytes (Der.findExtension wanted it.left) := by
  induction fuel generalizing it with
  | zero => cases enough
  | succ fuel ih =>
    rw [der_findExtension_eq]
    refine .bind (read_yields it) ?_
    rintro ⟨⟨t, ext⟩, it'⟩ read
    have shorter := left_shorter read
    have later := @ih it' (by omega)
    refine .cond (.bind (.attempt (read_yields (.new ext))) ?_) later
    rintro (_ | ⟨⟨ot, ov⟩, e⟩) -
    · exact later
    · exact .cond (extensionValue_yields e) later

theorem findExtensionValue_yields (certDer : Slice) (oid : Oid) :
    Yields (findExtensionValue certDer oid) Slice.bytes (Der.findExtensionValue certDer.bytes oid) := by
  refine .bind (expect_yields 0x30 (.new certDer)) ?_
  rintro ⟨cert, _⟩ -
  refine .bind (expect_yields 0x30 (.new cert)) ?_
  rintro ⟨tbs, _⟩ -
  refine .bind (findExtensions_yields (c := .new tbs) (Nat.lt_succ_self _)) ?_
  rintro exts -
  refine .bind (expect_yields 0x30 (.new exts)) ?_
  rintro ⟨extSeq, _⟩ -
  exact @findExtension_yields _ _ (.new extSeq) (Nat.lt_succ_self _)

theorem der_parseUtf8Strings_eq (input : Bytes) : Der.parseUtf8Strings input =
    if input = [] then some []
    else (Der.read input).bind fun (value, rest) =>
      (if value.tag = 0x0C then Text.ofUtf8? value.content else none).bind fun text =>
        (Der.parseUtf8Strings rest).bind fun others => some (text :: others) := by
  rw [Der.parseUtf8Strings]
  split_ifs
  · rfl
  · split
    · simp [*]
    · rename_i value rest read
      rw [read, Option.bind_some]
      dsimp only
      split_ifs <;> rfl

theorem parseUtf8Strings_yields {fuel : Nat} {inner : Cursor} (enough : inner.left.length < fuel) :
    Yields (parseUtf8Strings fuel inner) id (Der.parseUtf8Strings inner.left) := by
  induction fuel generalizing inner with
  | zero => cases enough
  | succ fuel ih =>
    have atEnd : inner.pos ≥ inner.b.len ↔ inner.left = [] := List.drop_eq_nil_iff.symm
    rw [der_parseUtf8Strings_eq, parseUtf8Strings]
    simp only [atEnd]
    refine .cond (.pure []) (.bind (read_yields inner) ?_)
    rintro ⟨⟨t, c⟩, inner'⟩ read
    have shorter := left_shorter read
    have text : Yields (OptionT.mk (.ok (if t = 0x0C then Text.ofUtf8? c.bytes else none)) :
        Reading String) id (if t = 0x0C then Text.ofUtf8? c.bytes else none) :=
      ⟨_, rfl, congrFun Option.map_id_fun _⟩
    refine .bind text ?_
    rintro text -
    refine .bind (@ih inner' (by omega)) ?_
    rintro others -
    exact .pure (text :: others)

theorem parseUtf8Sequence_yields (value : Slice) :
    Yields (parseUtf8Sequence value) id (Der.parseUtf8Sequence value.bytes) := by
  refine .bind (expect_yields 0x30 (.new value)) ?_
  rintro ⟨content, _⟩ -
  exact @parseUtf8Strings_yields _ (.new content) (Nat.lt_succ_self _)

theorem readUtf8SequenceExtension_ok (leafDer : Slice) (oid : Oid) :
    readUtf8SequenceExtension leafDer oid = .ok (Der.readUtf8SequenceExtension leafDer.bytes oid) := by
  obtain ⟨found, ran, same⟩ := findExtensionValue_yields leafDer oid
  rw [readUtf8SequenceExtension, ran, Outcome.ok_bind, Der.readUtf8SequenceExtension, ← same]
  cases found with
  | none => rfl
  | some raw =>
    obtain ⟨parsed, ran, same⟩ := parseUtf8Sequence_yields raw
    rw [Option.map_id_fun, id] at same
    simp only [ran, same, Outcome.ok_bind, Option.map_some]
    rfl

/-- The identifiers from a position on; the sequence ends at `stop`. -/
def rawSeqWalk (value : Slice) (expected : Oid) (stop : Nat) : (fuel pos : Nat) → Except Fault Bool
  | 0, _ => .error .loop
  | fuel + 1, pos => do
    let least ← usize (pos + 2)
    if least ≤ stop then
      let tag ← value.get pos
      if tag ≠ 0x06 then return false
      else
        let tail ← value.range (pos + 1) value.len
        match ← (readDerLength tail).run with
        | none => return false
        | some (len, header) =>
          let oidStart ← usize (pos + 1 + header)
          let oidStop ← usize (oidStart + len)
          if oidStop > value.len then return false
          else
            let oid ← value.range oidStart oidStop
            if oid.bytes = encodeOidContent expected then return true
            else rawSeqWalk value expected stop fuel oidStop
    else return false

def rawSeqContainsOid (value : Slice) (expected : Oid) : Except Fault Bool :=
  if value.len < 2 then return false
  else do
    let tag ← value.get 0
    if tag ≠ 0x30 then return false
    else
      let tail ← value.range 1 value.len
      match ← (readDerLength tail).run with
      | none => return false
      | some (len, header) =>
        let stop ← usize (1 + header + len)
        if stop > value.len then return false
        else rawSeqWalk value expected stop (value.len + 1) (1 + header)

theorem tail_length {value : Slice} {pos : Nat} {tag : UInt8} {rest : Bytes}
    (here : value.bytes.drop pos = tag :: rest) : ∃ tail : Slice,
      value.range (pos + 1) value.len = .ok tail ∧ (readDerLength tail).run = .ok (Der.readLen rest) := by
  have size := congrArg List.length here
  rw [List.length_drop, List.length_cons] at size
  obtain ⟨tail, ranged, bytes⟩ := @Slice.range_ok value (pos + 1) value.len
    (by unfold Slice.len; omega) (Nat.le_refl _)
  have same : tail.bytes = rest := by
    rw [bytes, Slice.len, ← List.length_drop, List.take_length, ← List.drop_drop, here, List.drop_one,
      List.tail_cons]
  obtain ⟨answer, ran, read⟩ := readDerLength_yields tail
  rw [congrFun Option.map_id_fun, id] at read
  exact ⟨tail, ranged, by rw [ran, read, same]⟩

theorem rawSeqWalk_ok {value : Slice} {expected : Oid} {stop fuel fuel' pos : Nat}
    (within : pos ≤ value.bytes.length) (bound : stop ≤ value.bytes.length)
    (enough : value.bytes.length - pos < fuel) (enough' : value.bytes.length - pos ≤ fuel') :
    rawSeqWalk value expected stop fuel pos =
      .ok (X509.rawSeqWalk (encodeOidContent expected) fuel' (value.bytes.drop pos) (stop - pos)) := by
  induction fuel generalizing fuel' pos with
  | zero => cases enough
  | succ fuel ih =>
    have short := value.short
    rw [rawSeqWalk, usize_ok (by omega), Outcome.ok_bind]
    by_cases ended : pos + 2 ≤ stop
    · obtain ⟨fuel', rfl⟩ := Nat.exists_eq_succ_of_ne_zero (n := fuel') (by omega)
      obtain ⟨tag, rest, here⟩ := List.exists_cons_of_ne_nil (l := value.bytes.drop pos)
        (List.ne_nil_of_length_pos (by rw [List.length_drop]; omega))
      have size := congrArg List.length here
      rw [List.length_drop, List.length_cons] at size
      obtain ⟨tail, ranged, read⟩ := tail_length here
      have more : ¬ stop - pos < 2 := by omega
      rw [if_pos ended, Slice.get_ok here, Outcome.ok_bind, X509.rawSeqWalk, if_neg more, here,
        List.headD_cons, List.tail_cons]
      by_cases tagged : tag ≠ 0x06
      · rw [if_pos tagged, if_pos tagged]
        rfl
      rw [if_neg tagged, if_neg tagged, ranged, Outcome.ok_bind, read, Outcome.ok_bind]
      cases length : Der.readLen rest with
      | none => rfl
      | some both =>
        obtain ⟨len, header⟩ := both
        have bounds := readLen_bounds length
        dsimp only
        rw [usize_ok (by omega), Outcome.ok_bind, usize_ok (by omega), Outcome.ok_bind, List.length_cons,
          Slice.len]
        by_cases outside : pos + 1 + header + len > value.bytes.length
        · rw [if_pos outside, if_pos (by omega)]
          rfl
        · obtain ⟨oid, ranged, bytes⟩ := @Slice.range_ok value _ _ (Nat.le_add_right _ len)
            (Nat.not_lt.mp outside)
          have content : oid.bytes = ((tag :: rest).drop (1 + header)).take len := by
            rw [bytes, Nat.add_sub_cancel_left, ← here, List.drop_drop, Nat.add_assoc]
          have later : (tag :: rest).drop (1 + header + len) =
              value.bytes.drop (pos + 1 + header + len) := by
            rw [← here, List.drop_drop]
            congr 1
            omega
          rw [if_neg outside, if_neg (by omega), ranged, Outcome.ok_bind, content]
          split_ifs
          · rfl
          · rw [@ih fuel' _ (Nat.not_lt.mp outside) (by omega) (by omega), later]
            congr 2
            omega
    · rw [if_neg ended]
      cases fuel' with
      | zero => rfl
      | succ fuel' => rw [X509.rawSeqWalk, if_pos (by omega)]; rfl

theorem rawSeqContainsOid_ok (value : Slice) (expected : Oid) :
    rawSeqContainsOid value expected = .ok (X509.rawSeqContainsOid value.bytes expected) := by
  have short := value.short
  rw [rawSeqContainsOid, X509.rawSeqContainsOid]
  cases here : value.bytes with
  | nil => simp [Slice.len, here]
  | cons tag rest =>
    obtain ⟨tail, ranged, read⟩ := @tail_length value 0 tag rest here
    have size := congrArg List.length here
    rw [List.length_cons] at size
    rw [Slice.len, size, List.headD_cons, List.tail_cons, List.length_cons]
    by_cases few : rest.length + 1 < 2
    · rw [if_pos few, if_pos (.inl few)]
      rfl
    rw [if_neg few, @Slice.get_ok value 0 tag rest here, Outcome.ok_bind]
    by_cases tagged : tag ≠ 0x30
    · rw [if_pos tagged, if_pos (.inr tagged)]
      rfl
    rw [Slice.len, size, Nat.zero_add] at ranged
    rw [if_neg tagged, if_neg (not_or.mpr ⟨few, tagged⟩), ranged, Outcome.ok_bind, read, Outcome.ok_bind]
    cases length : Der.readLen rest with
    | none => rfl
    | some both =>
      obtain ⟨len, header⟩ := both
      have bounds := readLen_bounds length
      dsimp only
      rw [usize_ok (by omega), Outcome.ok_bind]
      split_ifs with outside
      · rfl
      · rw [@rawSeqWalk_ok value expected _ _ (rest.length + 1) _ (by omega) (by omega) (by omega)
          (by omega), here, Nat.add_sub_cancel_left]

def tryGetOcspNextUpdate (der : Slice) : Except Fault (Option Instant) := do
  match ← (nextUpdate der).run with
  | none => return none
  | some gt => (Der.parseGeneralizedTime gt.bytes).mapError .text

/-- Nothing but the text of a time makes a reader fault. -/
theorem tryGetOcspNextUpdate_eq (der : Slice) :
    tryGetOcspNextUpdate der = (Der.tryGetOcspNextUpdate der.bytes).mapError .text := by
  obtain ⟨found, ran, same⟩ := nextUpdate_yields der
  rw [tryGetOcspNextUpdate, ran, Outcome.ok_bind, Der.tryGetOcspNextUpdate, ← same]
  cases found <;> rfl

end Nps.Nip.X509.DerCursor
