import NpsSdk.Lib.Base64
import NpsSdk.Nwp.SqlQuery

/-! The provider of a memory node over a database: statements go to an executor, and cursors
are the offsets at which the next page starts. -/
namespace Nps.Nwp
open Outcome

def base64urlEncode (input : List UInt8) : String := Base64.encode .urlSafe .none input

def cursorJson (offset : Int) : String := "\x7b\"o\":" ++ toString offset ++ "\x7d"

def encodeCursor (nextOffset : Int) : Option String :=
  if nextOffset ≤ 0 then none
  else some (base64urlEncode (Text.utf8 (cursorJson nextOffset)))

/-- Sums of `i64` wrap around. -/
def i64 (n : Int) : Int := n.bmod (2 ^ 64)

structure SqlExecutor where
  query : Sql.Text → List Sql.Param → Except String (List MemoryNodeRow)

structure SqlMemoryNodeProvider where
  executor : SqlExecutor
  dialect : DatabaseDialect

def MemoryNodeError.ofFilter (e : NwpFilterError) : MemoryNodeError := ⟨e.errorCode, e.message⟩

def MemoryNodeError.unavailable (message : String) : MemoryNodeError :=
  ⟨"NWP-NODE-UNAVAILABLE", message⟩

namespace SqlMemoryNodeProvider
variable [Nip.Serde] (provider : SqlMemoryNodeProvider) (frame : QueryFrame)
  (schema : MemoryNodeSchema) (options : MemoryNodeOptions)

def select : Except MemoryNodeError (List MemoryNodeRow) := do
  let (sql, params) ← (buildSelect schema provider.dialect frame options).mapError .ofFilter
  (provider.executor.query sql params).mapError .unavailable

def query : Except MemoryNodeError MemoryNodeQueryResult := do
  let rows ← provider.select frame schema options
  let limit := pageLimit frame options
  return {
    rows
    nextCursor :=
      if rows.length = limit then encodeCursor (i64 (decodeCursor frame.cursor + limit)) else none }

/-- The pages from a cursor on, when the loop ends within the fuel. -/
def streamFrom : (fuel : Nat) → (cursor : Option String) →
    Option (Except MemoryNodeError (List (List MemoryNodeRow)))
  | 0, _ => none
  | fuel + 1, cursor =>
    match provider.select { frame with limit := some (pageLimit frame options), cursor } schema
      options with
    | .error e => some (.error e)
    | .ok rows =>
      if rows.isEmpty then some (.ok [])
      else if rows.length = pageLimit frame options then
        (streamFrom fuel (encodeCursor (i64 (decodeCursor cursor + rows.length)))).map
          (Except.map (rows :: ·))
      -- A page that is not full is the last one.
      else some (.ok [rows])

def stream (fuel : Nat) : Option (Except MemoryNodeError (List (List MemoryNodeRow))) :=
  provider.streamFrom frame schema options fuel frame.cursor

end SqlMemoryNodeProvider

theorem sextet_symbol {value : Nat} (small : value < 64) :
    sextet (Base64.symbol .urlSafe value) = some value ∧ Base64.symbol .urlSafe value ≠ 61 := by
  have all : ∀ value < 64, sextet (Base64.symbol .urlSafe value) = some value ∧
      Base64.symbol .urlSafe value ≠ 61 := by decide +kernel
  exact all value small

theorem decodeFrom_nil (buf bits : Nat) : base64urlDecodeFrom buf bits [] = some [] := rfl

theorem decodeFrom_symbol {value : Nat} (small : value < 64) (buf bits : Nat) (rest : List UInt8) :
    base64urlDecodeFrom buf bits (Base64.symbol .urlSafe value :: rest) =
      if bits + 6 ≥ 8 then
        (base64urlDecodeFrom ((buf * 64 + value) % 2 ^ 32) (bits + 6 - 8) rest).map
          (UInt8.ofNat ((buf * 64 + value) % 2 ^ 32 / 2 ^ (bits + 6 - 8)) :: ·)
      else base64urlDecodeFrom ((buf * 64 + value) % 2 ^ 32) (bits + 6) rest := by
  obtain ⟨digit, notPad⟩ := sextet_symbol small
  rw [base64urlDecodeFrom, if_neg notPad, digit, Option.bind_eq_bind, Option.bind_some]
  split_ifs
  · dsimp only
    cases base64urlDecodeFrom ((buf * 64 + value) % 2 ^ 32) (bits + 6 - 8) rest <;> rfl
  · rfl

/-- Whatever was read before, the bits left of it do not reach into what follows. -/
theorem decodeFrom_encodeBytes (bytes : List UInt8) (buf : Nat) :
    base64urlDecodeFrom buf 0 (Base64.encodeBytes .urlSafe .none bytes) = some bytes := by
  fun_induction Base64.encodeBytes .urlSafe .none bytes generalizing buf with
  | case1 b0 b1 b2 rest ih =>
    obtain ⟨v0, v1, v2, v3⟩ := Base64.byte_bounds b0 b1 b2
    simp only [List.cons_append, List.nil_append, decodeFrom_symbol v0, decodeFrom_symbol v1,
      decodeFrom_symbol v2, decodeFrom_symbol v3, Nat.reduceAdd, Nat.reduceSub, Nat.reduceLeDiff,
      if_true, if_false, ih, ge_iff_le, Option.map_some, Option.some.injEq, List.cons.injEq,
      and_true, ← UInt8.toNat_inj, UInt8.toNat_ofNat']
    have := b1.toNat_lt
    have := b2.toNat_lt
    refine ⟨?_, ?_, ?_⟩ <;> omega
  | case2 b0 b1 =>
    obtain ⟨v0, v1, v2, -⟩ := Base64.byte_bounds b0 b1 0
    simp only [UInt8.toNat_zero, Nat.zero_div, Nat.add_zero] at v2
    simp only [List.cons_append, List.nil_append, Base64.padding, decodeFrom_symbol v0,
      decodeFrom_symbol v1, decodeFrom_symbol v2, Nat.reduceAdd, Nat.reduceSub, Nat.reduceLeDiff,
      if_true, if_false, ge_iff_le, decodeFrom_nil, Option.map_some, Option.some.injEq,
      List.cons.injEq, and_true, ← UInt8.toNat_inj, UInt8.toNat_ofNat']
    have := b1.toNat_lt
    constructor <;> omega
  | case3 b0 =>
    obtain ⟨v0, v1, -, -⟩ := Base64.byte_bounds b0 0 0
    simp only [UInt8.toNat_zero, Nat.zero_div, Nat.add_zero] at v1
    simp only [List.cons_append, List.nil_append, Base64.padding, decodeFrom_symbol v0,
      decodeFrom_symbol v1, Nat.reduceAdd, Nat.reduceSub, Nat.reduceLeDiff, if_true, if_false,
      ge_iff_le, decodeFrom_nil, Option.map_some, Option.some.injEq, List.cons.injEq, and_true,
      ← UInt8.toNat_inj, UInt8.toNat_ofNat']
    omega
  | case4 => rfl

theorem base64urlDecode_encode (bytes : List UInt8) :
    base64urlDecode (base64urlEncode bytes) = some bytes := by
  rw [base64urlDecode, base64urlEncode, Base64.utf8_encode]
  exact decodeFrom_encodeBytes bytes 0

/-- The reader of JSON knows the cursors: an object with the offset, when it is an `i64`. -/
def ReadsOffsets [Nip.Serde] : Prop :=
  ∀ n : Nat, n < 2 ^ 63 →
    Nip.Serde.fromStr (cursorJson n) = .ok (.object [("o", Json.integer n)])

theorem decodeCursor_read [Nip.Serde] {cursor json : String} {bytes : List UInt8}
    {offset : Json.Number} (decoded : base64urlDecode cursor = some bytes)
    (text : Text.ofUtf8? bytes = some json)
    (read : Nip.Serde.fromStr json = .ok (.object [("o", .number offset)])) :
    decodeCursor (some cursor) = offset.asI64.getD 0 := by
  simp [decodeCursor, decoded, text, read, Except.toOption, Json.Value.asObject, Json.get]

theorem decodeCursor_encodeCursor [Nip.Serde] (reads : ReadsOffsets) {n : Nat} (positive : 0 < n)
    (small : n < 2 ^ 63) : decodeCursor (encodeCursor n) = n := by
  have written : encodeCursor n = some (base64urlEncode (Text.utf8 (cursorJson n))) :=
    if_neg (by omega)
  have fits : (Json.Number.int n).asI64 = some (n : Int) := by
    rw [Json.Number.asI64, if_pos]
    omega
  rw [written, decodeCursor_read (base64urlDecode_encode _) (Text.ofUtf8?_eq_some.mpr rfl)
    (reads n small), fits, Option.getD_some]

theorem i64_offset {n : Nat} (small : n < 2 ^ 63) : i64 n = n := by
  rw [i64, Int.bmod_eq_of_le (by omega) (by omega)]

theorem encodeCursor_positive {n : Int} (positive : 0 < n) : ∃ cursor, encodeCursor n = some cursor :=
  ⟨_, if_neg (Int.not_le.mpr positive)⟩

end Nps.Nwp
