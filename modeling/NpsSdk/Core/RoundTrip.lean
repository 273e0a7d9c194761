import NpsSdk.Core.Codec

/-! What an encoded frame is decoded to. The textual tiers give the dictionary back; the
binary vector tier carries `vector_search.vector` as singles, and not every dictionary that
its encoder takes is one that its decoder takes. -/
namespace Nps.Core
open Wire (Bytes bigEndian number)

section
variable (serializers : Serializers) (deserializers : Deserializers)

/-- `serde_json` reads back what it wrote for this dictionary. -/
def ReadsJson (dict : FrameDict) : Prop :=
  ∀ bytes, serializers.toVec (.object dict) = .ok bytes →
    deserializers.fromJson bytes = .ok (.object dict)

/-- `rmp_serde` reads back what it wrote for this dictionary. -/
def ReadsMsgpack (dict : FrameDict) : Prop :=
  ∀ bytes, serializers.toVecNamed (.object dict) = .ok bytes →
    deserializers.fromMsgpack bytes = .ok (.object dict)

/-- A MessagePack document that ends early is an error. -/
def RefusesTruncated (dict : FrameDict) : Prop :=
  ∀ bytes front, serializers.toVecNamed (.object dict) = .ok bytes → front <+: bytes →
    front ≠ bytes → ∃ e, deserializers.fromMsgpack front = .error e

/-- A JSON document that ends early is an error. -/
def RefusesTruncatedJson (dict : FrameDict) : Prop :=
  ∀ bytes front, serializers.toVec (.object dict) = .ok bytes → front <+: bytes →
    front ≠ bytes → ∃ e, deserializers.fromJson front = .error e

/-- Numbers are narrowed to binary32 and widened again as IEEE 754 says. -/
structure Floats : Prop where
  narrows : ∀ n, serializers.float32 n = n.single
  widens : ∀ negative q, Binary32.Magnitude q →
    (deserializers.fromF64 negative q).asF64 = if negative then -q else q

end

section Rounding
variable (deserializers : Deserializers)

def nearestSingle (n : Json.Number) : Json.Number :=
  deserializers.fromF64 n.negative (Binary32.round |n.exact|)

def roundItem : Json.Value → Json.Value
  | .number n => .number (nearestSingle deserializers n)
  | item => item

/-- The dictionary with every element of `vector_search.vector` rounded. -/
def roundVector (dict : FrameDict) : FrameDict :=
  match Json.get "vector_search" dict with
  | some (.object vectorSearch) =>
    match Json.get "vector" vectorSearch with
    | some (.array items) => Json.insert "vector_search"
        (.object (Json.insert "vector" (.array (items.map (roundItem deserializers))) vectorSearch))
        dict
    | _ => dict
  | _ => dict

end Rounding

/-- The number has a finite single, the same whether or not it is rounded to a double first. -/
def Narrows (n : Json.Number) : Prop :=
  Binary32.round |n.asF64| < 2 ^ 128 ∧ Binary32.round |n.asF64| = Binary32.round |n.exact|

/-- A vector, if there is one, is a list of numbers that narrow, and its length fits its field. -/
def VectorCarried (dict : FrameDict) : Prop :=
  ∀ vectorSearch value, Json.get "vector_search" dict = some (.object vectorSearch) →
    Json.get "vector" vectorSearch = some value →
    ∃ numbers : List Json.Number, value = .array (numbers.map .number) ∧
      numbers.length < 2 ^ 32 ∧ ∀ n ∈ numbers, Narrows n

/-- The dictionary survives the binary vector tier. -/
structure Carried (serializers : Serializers) (dict : FrameDict) : Prop where
  metadata : ∀ bytes,
    serializers.toVecNamed (.object (extractVectorSearchVector serializers dict).1) = .ok bytes →
    bytes.length < 2 ^ 32
  vector : VectorCarried dict

section Singles
variable {serializers : Serializers} {deserializers : Deserializers}

theorem vectorElements_some {items : List Json.Value} {vector : List UInt32}
    (elements : vectorElements serializers items = some vector) :
    ∃ numbers, items = numbers.map Json.Value.number ∧
      List.Forall₂ (fun n bits => serializers.float32 n = some bits) numbers vector := by
  induction items generalizing vector with
  | nil =>
    cases elements
    exact ⟨[], rfl, .nil⟩
  | cons item rest ih =>
    cases item with
    | number value =>
      obtain ⟨bits, narrowed, elements⟩ := Option.bind_eq_some_iff.mp elements
      obtain ⟨others, more, same⟩ := Option.bind_eq_some_iff.mp elements
      cases same
      obtain ⟨numbers, rfl, all⟩ := ih more
      exact ⟨value :: numbers, rfl, .cons narrowed all⟩
    | _ => cases elements

theorem vectorElements_numbers {numbers : List Json.Number}
    (narrow : ∀ n ∈ numbers, ∃ bits, serializers.float32 n = some bits) :
    ∃ vector, vectorElements serializers (numbers.map Json.Value.number) = some vector := by
  induction numbers with
  | nil => exact ⟨[], rfl⟩
  | cons n rest ih =>
    obtain ⟨bits, narrowed⟩ := narrow n List.mem_cons_self
    obtain ⟨others, more⟩ := ih fun other member => narrow other (List.mem_cons_of_mem _ member)
    exact ⟨bits :: others, by simp [vectorElements, narrowed, more]⟩

/-- A narrowed number is widened to the nearest single of its double, when that is finite. -/
theorem singleNumber_narrowed {n : Json.Number} {bits : UInt32} (narrowed : n.single = some bits) :
    singleNumber deserializers bits =
      if Binary32.round |n.asF64| < 2 ^ 128 then
        some (deserializers.fromF64 n.negative (Binary32.round |n.asF64|))
      else none := by
  have stored := Json.Number.single_toNat narrowed
  have below : Binary32.bits |n.asF64| < 2 ^ 31 := by
    have capped : Binary32.bits |n.asF64| ≤ 255 * 2 ^ 23 := min_le_right _ _
    omega
  have magnitude : bits.toNat % 2 ^ 31 = Binary32.bits |n.asF64| := by
    split at stored <;> omega
  have sign : decide (2 ^ 31 ≤ bits.toNat) = n.negative := by
    cases negative : n.negative with
    | false =>
      rw [negative] at stored
      simp only [Bool.false_eq_true, if_false] at stored
      exact decide_eq_false (by omega)
    | true =>
      rw [negative] at stored
      simp only [if_true] at stored
      exact decide_eq_true (by omega)
  rw [singleNumber, magnitude, sign, Binary32.value_bits (abs_nonneg _)]
  split <;> rfl

/-- Widened values are equal only when their magnitudes are. -/
theorem Floats.fromF64_injective (floats : Floats serializers deserializers) {negative : Bool}
    {p q : ℚ} (same : deserializers.fromF64 negative (Binary32.round p) =
      deserializers.fromF64 negative (Binary32.round q)) :
    Binary32.round p = Binary32.round q := by
  have value := congrArg Json.Number.asF64 same
  rw [floats.widens _ _ (Binary32.magnitude_round p),
    floats.widens _ _ (Binary32.magnitude_round q)] at value
  cases negative with
  | false => exact value
  | true => exact neg_injective value

/-- No single is closer in magnitude to a number than the one it is replaced by. -/
theorem nearestSingle_closest (floats : Floats serializers deserializers) (n : Json.Number) {v : ℚ}
    (magnitude : Binary32.Magnitude v) :
    |(|(nearestSingle deserializers n).asF64| - (|n.exact|))| ≤ |v - (|n.exact|)| := by
  have size : |(nearestSingle deserializers n).asF64| = Binary32.round |n.exact| := by
    have nonnegative : 0 ≤ Binary32.round |n.exact| :=
      mul_nonneg (Nat.cast_nonneg _) (zpow_nonneg (by norm_num) _)
    rw [nearestSingle, floats.widens _ _ (Binary32.magnitude_round _)]
    split
    · rw [abs_neg, abs_of_nonneg nonnegative]
    · rw [abs_of_nonneg nonnegative]
  rw [size]
  exact Binary32.round_closest (abs_nonneg _) magnitude

/-- A vector is restored to the rounded numbers exactly when each of them narrows. -/
theorem restoreValues_iff (floats : Floats serializers deserializers)
    {numbers : List Json.Number} {vector : List UInt32}
    (narrowed : List.Forall₂ (fun n bits => serializers.float32 n = some bits) numbers vector) :
    restoreValues deserializers vector =
        .ok ((numbers.map Json.Value.number).map (roundItem deserializers)) ↔
      ∀ n ∈ numbers, Narrows n := by
  induction narrowed with
  | nil => simp [restoreValues]
  | @cons n bits numbers vector first _ ih =>
    rw [floats.narrows] at first
    simp only [restoreValues, singleNumber_narrowed first, List.map_cons, List.forall_mem_cons,
      roundItem, nearestSingle]
    by_cases finite : Binary32.round |n.asF64| < 2 ^ 128
    · rw [if_pos finite]
      constructor
      · intro restored
        obtain ⟨values, others, same⟩ := Outcome.bind_ok.mp restored
        simp only [Outcome.pure_eq, Except.ok.injEq, List.cons.injEq, Json.Value.number.injEq]
          at same
        obtain ⟨head, tail⟩ := same
        exact ⟨⟨finite, floats.fromF64_injective head⟩, ih.mp (others.trans (congrArg _ tail))⟩
      · rintro ⟨⟨-, once⟩, others⟩
        simp only [ih.mpr others, once, Outcome.ok_bind, Outcome.pure_eq]
    · rw [if_neg finite]
      constructor
      · intro restored
        cases restored
      · rintro ⟨⟨narrow, -⟩, -⟩
        exact absurd narrow finite

end Singles

section Sections
variable {serializers : Serializers} {deserializers : Deserializers}

theorem littleEndian_bytes (bits : UInt32) : ∃ b0 b1 b2 b3,
    (bigEndian 4 bits.toNat).reverse = [b0, b1, b2, b3] ∧ number [b3, b2, b1, b0] = bits.toNat := by
  have size : number (bigEndian 4 bits.toNat) = bits.toNat := Wire.number_fits bits.toNat_lt
  exact ⟨_, _, _, _, rfl, size⟩

theorem readSingles_append (vector : List UInt32) (rest : Bytes) :
    readSingles vector.length
      (vector.flatMap (fun bits => (bigEndian 4 bits.toNat).reverse) ++ rest) = vector := by
  induction vector with
  | nil => rfl
  | cons bits vector ih =>
    obtain ⟨b0, b1, b2, b3, bytes, value⟩ := littleEndian_bytes bits
    simp only [List.flatMap_cons, bytes, List.cons_append, List.nil_append, List.length_cons,
      readSingles, value, ih, UInt32.ofNat_toNat]

theorem singles_length (vector : List UInt32) :
    (vector.flatMap fun bits => (bigEndian 4 bits.toNat).reverse).length = vector.length * 4 := by
  induction vector with
  | nil => rfl
  | cons bits vector ih =>
    rw [List.flatMap_cons, List.length_append, ih, List.length_reverse, Wire.bigEndian_length,
      List.length_cons]
    omega

/-- The dimension field keeps the length modulo its range, and only that many are read. -/
theorem readSegments_segment (vector : List UInt32) :
    ∃ front back, vector = front ++ back ∧ front.length = vector.length % 2 ^ 32 ∧
      readSegments 1 (segment vector) =
        .ok ([front], back.flatMap fun bits => (bigEndian 4 bits.toNat).reverse) := by
  set dim := vector.length % 2 ^ 32 with dim_eq
  have less : dim ≤ vector.length := Nat.mod_le _ _
  refine ⟨vector.take dim, vector.drop dim, (List.take_append_drop dim vector).symm,
    List.length_take_of_le less, ?_⟩
  set little := fun bits : UInt32 => (bigEndian 4 bits.toNat).reverse with little_eq
  have singles : vector.flatMap little =
      (vector.take dim).flatMap little ++ (vector.drop dim).flatMap little := by
    rw [← List.flatMap_append, List.take_append_drop]
  have read : readSingles dim (vector.flatMap little) = vector.take dim := by
    have front := readSingles_append (vector.take dim) ((vector.drop dim).flatMap little)
    rw [List.length_take_of_le less] at front
    rw [singles]
    exact front
  have after : (vector.flatMap little).drop (dim * 4) = (vector.drop dim).flatMap little := by
    have size : ((vector.take dim).flatMap little).length = dim * 4 := by
      rw [little_eq, singles_length, List.length_take_of_le less]
    rw [singles, ← size, List.drop_left]
  obtain ⟨d0, d1, d2, d3, bytes⟩ : ∃ d0 d1 d2 d3, bigEndian 4 vector.length = [d0, d1, d2, d3] :=
    ⟨_, _, _, _, rfl⟩
  have field : number [d0, d1, d2, d3] = dim := bytes ▸ Wire.number_bigEndian 4 vector.length
  have enough : ¬ (vector.flatMap little).length < dim * 4 := by
    rw [little_eq, singles_length]
    omega
  simp only [segment, ← little_eq, bytes, List.nil_append, List.cons_append, readSegments, field,
    if_neg enough, Outcome.ok_bind, Outcome.pure_eq, read, after]

theorem decodeBinaryVector_counts (vectorCount metadataLen : Nat) (rest : Bytes) :
    decodeBinaryVector deserializers (binaryVectorMagic ++ [binaryVectorVersion, 0] ++
        bigEndian 2 vectorCount ++ bigEndian 4 metadataLen ++ bigEndian 4 0 ++ rest) =
      decodeSections deserializers (vectorCount % 2 ^ 16) (metadataLen % 2 ^ 32) rest := by
  obtain ⟨c0, c1, count⟩ : ∃ c0 c1, bigEndian 2 vectorCount = [c0, c1] := ⟨_, _, rfl⟩
  obtain ⟨l0, l1, l2, l3, length⟩ : ∃ l0 l1 l2 l3, bigEndian 4 metadataLen = [l0, l1, l2, l3] :=
    ⟨_, _, _, _, rfl⟩
  have vectors : number [c0, c1] = vectorCount % 2 ^ 16 := count ▸ Wire.number_bigEndian 2 vectorCount
  have metadata : number [l0, l1, l2, l3] = metadataLen % 2 ^ 32 :=
    length ▸ Wire.number_bigEndian 4 metadataLen
  rw [count, length, ← vectors, ← metadata]
  rfl

theorem decodeSections_whole {metadata : FrameDict} {bytes : Bytes} (count : Nat) (rest : Bytes)
    (read : deserializers.fromMsgpack bytes = .ok (.object metadata)) :
    decodeSections deserializers count bytes.length (bytes ++ rest) = (do
      let (vectors, trailing) ← readSegments count rest
      if trailing ≠ [] then throw (.codec "binary vector payload has trailing bytes")
      restoreVectorSearchVector deserializers metadata vectors) := by
  have enough : ¬ bytes.length > (bytes ++ rest).length := by simp
  simp only [decodeSections, if_neg enough, List.take_left, List.drop_left, read,
    Except.mapError, Outcome.ok_bind]

/-- Metadata of which only a part is read is refused. -/
theorem decodeSections_cut {metadata : FrameDict} {bytes rest : Bytes} {length : Nat} (count : Nat)
    (refuses : RefusesTruncated serializers deserializers metadata)
    (written : serializers.toVecNamed (.object metadata) = .ok bytes)
    (part : rest.take length <+: bytes) (cut : rest.take length ≠ bytes) {result : FrameDict} :
    decodeSections deserializers count length rest ≠ .ok result := by
  intro decoded
  obtain ⟨e, refused⟩ := refuses bytes _ written part cut
  by_cases enough : length > rest.length
  · simp only [decodeSections, if_pos enough] at decoded
    cases decoded
  · simp only [decodeSections, if_neg enough, refused, Except.mapError, Outcome.error_bind] at decoded
    cases decoded

theorem decodeSections_short {metadata : FrameDict} {bytes : Bytes} {length : Nat} (count : Nat)
    (rest : Bytes) (refuses : RefusesTruncated serializers deserializers metadata)
    (written : serializers.toVecNamed (.object metadata) = .ok bytes)
    (short : length < bytes.length) {result : FrameDict} :
    decodeSections deserializers count length (bytes ++ rest) ≠ .ok result := by
  have front : (bytes ++ rest).take length = bytes.take length :=
    List.take_append_of_le_length short.le
  refine decodeSections_cut count refuses written (front ▸ List.take_prefix length bytes) ?_
  rw [front]
  intro same
  have := congrArg List.length same
  rw [List.length_take] at this
  omega

/-- An encoded payload is the prefix, the metadata and the segments of what was taken out. -/
theorem encodeBinaryVector_ok {dict : FrameDict} {payload : Bytes}
    (encoded : encodeBinaryVector serializers dict = .ok payload) :
    ∃ bytes, serializers.toVecNamed (.object (extractVectorSearchVector serializers dict).1) =
        .ok bytes ∧
      payload = binaryVectorMagic ++ [binaryVectorVersion, 0] ++
        bigEndian 2 (extractVectorSearchVector serializers dict).2.length ++
        bigEndian 4 bytes.length ++ bigEndian 4 0 ++
        (bytes ++ (extractVectorSearchVector serializers dict).2.flatMap segment) := by
  unfold encodeBinaryVector at encoded
  generalize extractVectorSearchVector serializers dict = parts at encoded ⊢
  obtain ⟨metadata, vectors⟩ := parts
  dsimp only at encoded ⊢
  split at encoded
  · cases encoded
  obtain ⟨bytes, written, encoded⟩ := Outcome.bind_ok.mp encoded
  cases encoded
  refine ⟨bytes, ?_, by simp only [List.append_assoc]⟩
  cases direct : serializers.toVecNamed (.object metadata) with
  | error e => simp [direct, Except.mapError] at written
  | ok found =>
    rw [direct] at written
    cases written
    rfl

end Sections

section Vector
variable {serializers : Serializers} {deserializers : Deserializers}

def vectorMarker (dim : Nat) : FrameDict :=
  Json.insert "dim" (.number (.int dim)) (Json.insert "dtype" (.string "float32")
    (Json.insert binaryVectorMarker (.number (.int 0)) []))

def withVector (vectorSearch : FrameDict) (value : Json.Value) (dict : FrameDict) : FrameDict :=
  Json.insert "vector_search" (.object (Json.insert "vector" value vectorSearch)) dict

variable {dict vectorSearch : FrameDict} {items : List Json.Value} {vector : List UInt32}

/-- Either a vector of numbers was taken out, or nothing was. -/
theorem extract_cases (serializers : Serializers) (dict : FrameDict) :
    (∃ vectorSearch items vector, Json.get "vector_search" dict = some (.object vectorSearch) ∧
      Json.get "vector" vectorSearch = some (.array items) ∧
      vectorElements serializers items = some vector ∧
      extractVectorSearchVector serializers dict =
        (withVector vectorSearch (.object (vectorMarker vector.length)) dict, [vector])) ∨
    extractVectorSearchVector serializers dict = (dict, []) ∧
      ∀ vectorSearch items, Json.get "vector_search" dict = some (.object vectorSearch) →
        Json.get "vector" vectorSearch = some (.array items) →
        vectorElements serializers items = none := by
  unfold extractVectorSearchVector
  cases search : Json.get "vector_search" dict with
  | none => exact .inr ⟨rfl, fun _ _ found => by cases found⟩
  | some value =>
    cases value with
    | object fields =>
      cases held : Json.get "vector" fields with
      | none =>
        refine .inr ⟨by simp only [held], fun _ _ found there => ?_⟩
        cases found
        rw [held] at there
        cases there
      | some inner =>
        cases inner with
        | array items =>
          cases elements : vectorElements serializers items with
          | none =>
            refine .inr ⟨by simp only [held, elements], fun _ _ found there => ?_⟩
            cases found
            rw [held] at there
            cases there
            exact elements
          | some vector =>
            exact .inl ⟨fields, items, vector, rfl, held, elements, by
              simp only [held, elements]
              rfl⟩
        | _ =>
          refine .inr ⟨by simp only [held], fun _ _ found there => ?_⟩
          cases found
          rw [held] at there
          cases there
    | _ => exact .inr ⟨rfl, fun _ _ found => by cases found⟩

/-- With no vectors only a dictionary that has no `vector` is let through. -/
theorem restore_nil {result : FrameDict} :
    restoreVectorSearchVector deserializers dict [] = .ok result ↔
      result = dict ∧ ∀ vectorSearch value,
        Json.get "vector_search" dict = some (.object vectorSearch) →
        Json.get "vector" vectorSearch ≠ some value := by
  unfold restoreVectorSearchVector
  cases search : Json.get "vector_search" dict with
  | none => simp [eq_comm]
  | some value =>
    cases value with
    | object fields =>
      cases held : Json.get "vector" fields with
      | none =>
        simp only [held, Outcome.pure_eq, Except.ok.injEq, Option.some.injEq,
          Json.Value.object.injEq]
        constructor
        · rintro rfl
          refine ⟨rfl, ?_⟩
          rintro _ _ rfl there
          rw [held] at there
          cases there
        · rintro ⟨rfl, -⟩
          rfl
      | some inner =>
        have absent : ¬ ∀ vectorSearch value,
            some (Json.Value.object fields) = some (.object vectorSearch) →
            Json.get "vector" vectorSearch ≠ some value := fun none => none fields inner rfl held
        simp only [held, absent, and_false, iff_false]
        intro restored
        cases inner with
        | object marker =>
          cases index : (Json.get binaryVectorMarker marker).bind Json.Value.asU64 with
          | none =>
            simp only [index] at restored
            cases restored
          | some index =>
            simp only [index, List.getElem?_nil] at restored
            cases restored
        | _ => cases restored
    | _ => simp [eq_comm]

/-- The marker of a vector that is present puts its values back in its place. -/
theorem restore_marker (dict vectorSearch : FrameDict) (vector : List UInt32)
    (small : vector.length < 2 ^ 64) :
    restoreVectorSearchVector deserializers
        (withVector vectorSearch (.object (vectorMarker vector.length)) dict) [vector] =
      (restoreValues deserializers vector).map fun values =>
        withVector vectorSearch (.array values) dict := by
  have index : Json.get binaryVectorMarker (vectorMarker vector.length) =
      some (.number (.int 0)) := by
    simp (disch := decide) only [vectorMarker, Json.get_insert_ne, Json.get_insert_self]
  have dtype : Json.get "dtype" (vectorMarker vector.length) = some (.string "float32") := by
    simp (disch := decide) only [vectorMarker, Json.get_insert_ne, Json.get_insert_self]
  have dim : Json.get "dim" (vectorMarker vector.length) =
      some (.number (.int vector.length)) := by
    simp only [vectorMarker, Json.get_insert_self]
  have first : Json.Value.asU64 (.number (.int 0)) = some 0 := rfl
  have length : Json.Value.asU64 (.number (.int vector.length)) = some vector.length :=
    if_pos small
  simp only [restoreVectorSearchVector, withVector, Json.get_insert_self, index, dtype, dim,
    Option.bind_some, first, length, Json.Value.asStr, List.getElem?_cons_zero, ne_eq,
    not_true_eq_false, if_false]
  cases restoreValues deserializers vector with
  | error e => rfl
  | ok values =>
    simp only [Outcome.ok_bind, Outcome.pure_eq, Except.map, Json.insert_insert]

theorem withVector_injective {dict vectorSearch : FrameDict} {value other : Json.Value}
    (same : withVector vectorSearch value dict = withVector vectorSearch other dict) :
    value = other := by
  have search := congrArg (Json.get "vector_search") same
  simp only [withVector, Json.get_insert_self, Option.some.injEq, Json.Value.object.injEq] at search
  have held := congrArg (Json.get "vector") search
  simpa only [Json.get_insert_self, Option.some.injEq] using held

theorem roundVector_found (search : Json.get "vector_search" dict = some (.object vectorSearch))
    (held : Json.get "vector" vectorSearch = some (.array items)) :
    roundVector deserializers dict =
      withVector vectorSearch (.array (items.map (roundItem deserializers))) dict := by
  simp only [roundVector, search, held, withVector]

theorem roundVector_absent (absent : ∀ vectorSearch value,
    Json.get "vector_search" dict = some (.object vectorSearch) →
    Json.get "vector" vectorSearch ≠ some value) : roundVector deserializers dict = dict := by
  unfold roundVector
  split
  · rename_i vectorSearch search
    split
    · exact absurd ‹_› (absent vectorSearch _ search)
    · rfl
  · rfl

theorem Narrows.single {n : Json.Number} (narrows : Narrows n) :
    ∃ bits, n.single = some bits := by
  have small : |n.asF64| < 2 ^ 1024 := by
    by_contra large
    have top : (2 : ℚ) ^ 128 ≤ |n.asF64| :=
      (pow_le_pow_right₀ (by norm_num) (by norm_num)).trans (not_lt.mp large)
    exact absurd narrows.1 (not_lt.mpr (Binary32.le_round top))
  exact ⟨_, if_pos small⟩

theorem vectorCarried_taken {numbers : List Json.Number}
    (search : Json.get "vector_search" dict = some (.object vectorSearch))
    (held : Json.get "vector" vectorSearch = some (.array (numbers.map .number))) :
    VectorCarried dict ↔ numbers.length < 2 ^ 32 ∧ ∀ n ∈ numbers, Narrows n := by
  constructor
  · intro carried
    obtain ⟨others, same, small, all⟩ := carried vectorSearch _ search held
    have inj : Function.Injective Json.Value.number := fun _ _ => Json.Value.number.inj
    cases (List.map_injective_iff.mpr inj) (Json.Value.array.inj same)
    exact ⟨small, all⟩
  · rintro ⟨small, all⟩ _ _ found there
    rw [search] at found
    cases found
    rw [held] at there
    cases there
    exact ⟨numbers, rfl, small, all⟩

theorem vectorCarried_left (floats : Floats serializers deserializers)
    (nothing : ∀ vectorSearch items, Json.get "vector_search" dict = some (.object vectorSearch) →
      Json.get "vector" vectorSearch = some (.array items) →
      vectorElements serializers items = none) :
    VectorCarried dict ↔ ∀ vectorSearch value,
      Json.get "vector_search" dict = some (.object vectorSearch) →
      Json.get "vector" vectorSearch ≠ some value := by
  constructor
  · intro carried vectorSearch value found there
    obtain ⟨numbers, rfl, -, all⟩ := carried vectorSearch value found there
    have narrow : ∀ n ∈ numbers, ∃ bits, serializers.float32 n = some bits := by
      intro n member
      rw [floats.narrows]
      exact (all n member).single
    obtain ⟨vector, elements⟩ := vectorElements_numbers narrow
    rw [nothing vectorSearch _ found there] at elements
    cases elements
  · intro absent vectorSearch value found there
    exact absurd there (absent vectorSearch value found)

/-- One segment is read and put back when its length fits and its numbers narrow. -/
theorem decodeSections_segment {numbers : List Json.Number} {metadata : Bytes}
    (floats : Floats serializers deserializers)
    (search : Json.get "vector_search" dict = some (.object vectorSearch))
    (held : Json.get "vector" vectorSearch = some (.array (numbers.map .number)))
    (narrowed : List.Forall₂ (fun n bits => serializers.float32 n = some bits) numbers vector)
    (read : deserializers.fromMsgpack metadata =
      .ok (.object (withVector vectorSearch (.object (vectorMarker vector.length)) dict))) :
    decodeSections deserializers 1 metadata.length (metadata ++ segment vector) =
        .ok (roundVector deserializers dict) ↔
      numbers.length < 2 ^ 32 ∧ ∀ n ∈ numbers, Narrows n := by
  obtain ⟨front, back, whole, size, segments⟩ := readSegments_segment vector
  have total : front.length + back.length = vector.length := by
    rw [whole, List.length_append]
  rw [decodeSections_whole _ _ read, narrowed.length_eq]
  simp only [segments, Outcome.ok_bind]
  by_cases small : vector.length < 2 ^ 32
  · -- The whole vector was read, and nothing is left after it.
    have none : back = [] := List.eq_nil_of_length_eq_zero (by
      rw [Nat.mod_eq_of_lt small] at size
      omega)
    subst none
    rw [List.append_nil] at whole
    subst whole
    simp only [List.flatMap_nil, ne_eq, not_true_eq_false, if_false, small, true_and]
    rw [restore_marker dict vectorSearch vector (by omega), roundVector_found search held,
      ← restoreValues_iff floats narrowed]
    cases restoreValues deserializers vector with
    | error e => simp [Except.map]
    | ok values =>
      simp only [Except.map, Except.ok.injEq]
      constructor
      · intro same
        exact Json.Value.array.inj (withVector_injective same)
      · intro same
        rw [same]
  · -- The dimension wrapped around, so elements are left over.
    have left : (back.flatMap fun bits => (bigEndian 4 bits.toNat).reverse) ≠ [] := by
      intro empty
      have none := singles_length back
      rw [empty] at none
      have := Nat.mod_lt vector.length (show 0 < 2 ^ 32 by decide)
      simp only [List.length_nil] at none
      omega
    simp only [left, ne_eq, not_false_eq_true, if_true, small, false_and, iff_false]
    intro decoded
    cases decoded

/-- With metadata that fits its field, the vector decides. -/
theorem decodeBinaryVector_fits {bytes : Bytes} (floats : Floats serializers deserializers)
    (reads : ReadsMsgpack serializers deserializers (extractVectorSearchVector serializers dict).1)
    (written : serializers.toVecNamed (.object (extractVectorSearchVector serializers dict).1) =
      .ok bytes) (fits : bytes.length < 2 ^ 32) :
    decodeBinaryVector deserializers (binaryVectorMagic ++ [binaryVectorVersion, 0] ++
        bigEndian 2 (extractVectorSearchVector serializers dict).2.length ++
        bigEndian 4 bytes.length ++ bigEndian 4 0 ++
        (bytes ++ (extractVectorSearchVector serializers dict).2.flatMap segment)) =
      .ok (roundVector deserializers dict) ↔ VectorCarried dict := by
  have read := reads _ written
  rw [decodeBinaryVector_counts, Nat.mod_eq_of_lt fits]
  rcases extract_cases serializers dict with
    ⟨vectorSearch, items, vector, search, held, elements, parts⟩ | ⟨parts, nothing⟩
  · obtain ⟨numbers, rfl, narrowed⟩ := vectorElements_some elements
    rw [parts] at read ⊢
    rw [vectorCarried_taken search held,
      ← decodeSections_segment floats search held narrowed read]
    simp only [List.flatMap_cons, List.flatMap_nil, List.append_nil, List.length_singleton]
    rfl
  · rw [parts] at read ⊢
    rw [decodeSections_whole _ _ read, vectorCarried_left floats nothing]
    change restoreVectorSearchVector deserializers dict [] = _ ↔ _
    rw [restore_nil]
    exact ⟨And.right, fun absent => ⟨roundVector_absent absent, absent⟩⟩

/-- What was encoded in the binary vector tier is decoded, with each element of its vector
rounded to the nearest single, exactly when the tier can carry the dictionary. -/
theorem binary_vector_carried_iff {payload : Bytes} (floats : Floats serializers deserializers)
    (reads : ReadsMsgpack serializers deserializers (extractVectorSearchVector serializers dict).1)
    (refuses : RefusesTruncated serializers deserializers
      (extractVectorSearchVector serializers dict).1)
    (encoded : encodeBinaryVector serializers dict = .ok payload) :
    decodeBinaryVector deserializers payload = .ok (roundVector deserializers dict) ↔
      Carried serializers dict := by
  obtain ⟨bytes, written, rfl⟩ := encodeBinaryVector_ok encoded
  rcases Nat.lt_or_ge bytes.length (2 ^ 32) with fits | wide
  · have short : ∀ other, serializers.toVecNamed
        (.object (extractVectorSearchVector serializers dict).1) = .ok other →
        other.length < 2 ^ 32 := by
      intro other again
      rw [written] at again
      cases again
      exact fits
    rw [decodeBinaryVector_fits floats reads written fits]
    exact ⟨fun vector => ⟨short, vector⟩, Carried.vector⟩
  · have wrapped : bytes.length % 2 ^ 32 < bytes.length :=
      (Nat.mod_lt _ (by decide)).trans_le wide
    constructor
    · intro decoded
      rw [decodeBinaryVector_counts] at decoded
      exact absurd decoded (decodeSections_short _ _ refuses written wrapped)
    · intro carried
      exact absurd (carried.metadata bytes written) (not_lt.mpr wide)

end Vector

section Frames
variable {serializers : Serializers} {deserializers : Deserializers}
variable {codec : NpsFrameCodec} {frameType : FrameType} {dict : FrameDict}
variable {tier : EncodingTier} {isFinal : Bool} {wire : Bytes}

def delivered (deserializers : Deserializers) (tier : EncodingTier) (dict : FrameDict) : FrameDict :=
  if tier = .binaryVector then roundVector deserializers dict else dict

/-- A payload is decoded at the tier it was encoded at. -/
theorem decodePayload_encodePayload {payload : Bytes} (floats : Floats serializers deserializers)
    (json : ReadsJson serializers deserializers dict)
    (msgpack : ReadsMsgpack serializers deserializers dict)
    (metadata : ReadsMsgpack serializers deserializers
      (extractVectorSearchVector serializers dict).1)
    (carried : tier = .binaryVector → Carried serializers dict)
    (encoded : NpsFrameCodec.encodePayload serializers dict tier = .ok payload) :
    decodePayload deserializers payload tier = .ok (delivered deserializers tier dict) := by
  cases tier with
  | json =>
    have read := json payload (Outcome.mapError_ok.mp encoded)
    simp only [decodePayload, decodeJson, read, Except.mapError, Outcome.ok_bind, Outcome.pure_eq,
      delivered, reduceCtorEq, if_false]
  | msgPack =>
    have read := msgpack payload (Outcome.mapError_ok.mp encoded)
    simp only [decodePayload, decodeMsgpack, read, Except.mapError, Outcome.ok_bind,
      Outcome.pure_eq, delivered, reduceCtorEq, if_false]
  | binaryVector =>
    obtain ⟨bytes, written, rfl⟩ := encodeBinaryVector_ok encoded
    have fits := (carried rfl).metadata bytes written
    exact (decodeBinaryVector_fits floats metadata written fits).mpr (carried rfl).vector
  | reserved => cases encoded

/-- The header in front of a payload of less than 4 GiB says what it was made from. -/
theorem parse_encoded (frameType : FrameType) (tier : EncodingTier) (isFinal : Bool)
    {payload : Bytes} (short : payload.length < 2 ^ 32) (suffix : Bytes) :
    FrameHeader.parse ((FrameHeader.new frameType tier isFinal payload.length).toBytes ++ payload ++
      suffix) = .ok (FrameHeader.new frameType tier isFinal payload.length) := by
  have length : (if payload.length > 0xFFFF then payload.length % 2 ^ 32 else payload.length) =
      payload.length := by
    split
    · exact Nat.mod_eq_of_lt short
    · rfl
  rw [List.append_assoc, FrameHeader.parse_toBytes_new, length]
  rfl

/-- A frame whose payload is below 4 GiB announces it to whatever bytes follow, and is decoded to
its type and dictionary when the type is registered. -/
theorem frame_round_trip (floats : Floats serializers deserializers)
    (json : ReadsJson serializers deserializers dict)
    (msgpack : ReadsMsgpack serializers deserializers dict)
    (metadata : ReadsMsgpack serializers deserializers
      (extractVectorSearchVector serializers dict).1)
    (encoded : codec.encode serializers frameType dict tier isFinal = .ok wire) :
    ∃ payload, NpsFrameCodec.encodePayload serializers dict tier = .ok payload ∧
      (payload.length < 2 ^ 32 →
        (∀ suffix, ∃ header, FrameHeader.parse (wire ++ suffix) = .ok header ∧
          header.payloadLength = payload.length ∧ header.frameType = frameType ∧
          header.encodingTier = tier ∧ header.isFinal = isFinal) ∧
        ((tier = .binaryVector → Carried serializers dict) →
          codec.decode deserializers wire =
            if codec.registry.isRegistered frameType then
              .ok (frameType, delivered deserializers tier dict)
            else .error (.frame ("unregistered frame type 0x" ++
              Text.upperHex 2 frameType.asU8.toNat)))) := by
  obtain ⟨payload, serialized, -, rfl⟩ := NpsFrameCodec.encode_ok encoded
  refine ⟨payload, serialized, fun short => ⟨fun suffix => ?_, fun carried => ?_⟩⟩
  · exact ⟨_, parse_encoded _ _ _ short suffix, rfl, rfl, FrameHeader.encodingTier_new _ _ _ _,
      FrameHeader.isFinal_new _ _ _ _⟩
  · have parsed := parse_encoded frameType tier isFinal short []
    have decoded := decodePayload_encodePayload floats json msgpack metadata carried serialized
    rw [List.append_nil] at parsed
    have tiered := FrameHeader.encodingTier_new frameType tier isFinal payload.length
    have typed : (FrameHeader.new frameType tier isFinal payload.length).frameType = frameType := rfl
    have length : (FrameHeader.new frameType tier isFinal payload.length).payloadLength =
        payload.length := rfl
    generalize FrameHeader.new frameType tier isFinal payload.length = header at *
    have size : header.toBytes.length = header.headerSize := header.toBytes_length
    have enough : ¬ (header.toBytes ++ payload).length < header.headerSize + header.payloadLength := by
      rw [List.length_append, size, length]
      exact lt_irrefl _
    have body : ((header.toBytes ++ payload).drop header.headerSize).take header.payloadLength =
        payload := by
      rw [← size, List.drop_left, length]
      exact List.take_length
    simp only [NpsFrameCodec.decode, parsed, Outcome.ok_bind, if_neg enough, body, tiered, decoded,
      typed]
    by_cases registered : codec.registry.isRegistered frameType = true
    · simp only [registered, not_true_eq_false, if_false, if_true, Outcome.pure_eq]
    · simp only [registered, not_false_eq_true, if_true, if_false, Bool.false_eq_true]
      rfl

end Frames

def writes (msgpack : Bytes) : Serializers where
  toVec value := .ok (Text.utf8 value.text)
  toVecNamed _ := .ok msgpack
  float32 := Json.Number.single

def readsBack (msgpack : Bytes) (dict : FrameDict) : Deserializers where
  fromJson bytes :=
    if bytes = Text.utf8 (Json.Value.object dict).text then .ok (.object dict)
    else .error "expected value"
  fromMsgpack bytes := if bytes = msgpack then .ok (.object dict) else .error "unexpected end of file"
  fromF64 negative magnitude := .float (Json.exactLiteral negative magnitude)

theorem utf8_text (value : Json.Value) :
    Text.utf8 value.text = value.compact.flatMap String.utf8EncodeChar := by
  rw [Text.utf8, Json.Value.text, String.toList_ofList]

section Tables
variable (msgpack : Bytes) (dict : FrameDict)

theorem floats_table : Floats (writes msgpack) (readsBack msgpack dict) where
  narrows _ := rfl
  widens negative _ magnitude := Json.asF64_exactLiteral magnitude negative

theorem readsJson_table : ReadsJson (writes msgpack) (readsBack msgpack dict) dict := by
  rintro _ ⟨⟩
  exact if_pos rfl

theorem readsMsgpack_table : ReadsMsgpack (writes msgpack) (readsBack msgpack dict) dict := by
  rintro _ ⟨⟩
  exact if_pos rfl

theorem refusesTruncated_table :
    RefusesTruncated (writes msgpack) (readsBack msgpack dict) dict := by
  rintro _ front ⟨⟩ - cut
  exact ⟨_, if_neg cut⟩

end Tables

/-- `{"vector_search":{"vector":[1]}}` -/
def vectorQuery : FrameDict :=
  [("vector_search", .object [("vector", .array [.number (.int 1)])])]

/-- `{"vector_search":{"vector":"x"}}` -/
def textQuery : FrameDict := [("vector_search", .object [("vector", .string "x")])]

def vectorMetadata : FrameDict :=
  [("vector_search", .object [("vector", .object [("$nps_binary_vector", .number (.int 0)),
    ("dim", .number (.int 1)), ("dtype", .string "float32")])])]

def vectorMetadataMsgpack : Bytes :=
  [0x81, 0xAD] ++ Text.utf8 "vector_search" ++ [0x81, 0xA6] ++ Text.utf8 "vector" ++
  [0x83, 0xB2] ++ Text.utf8 "$nps_binary_vector" ++ [0x00, 0xA3] ++ Text.utf8 "dim" ++
  [0x01, 0xA5] ++ Text.utf8 "dtype" ++ [0xA7] ++ Text.utf8 "float32"

def textQueryMsgpack : Bytes :=
  [0x81, 0xAD] ++ Text.utf8 "vector_search" ++ [0x81, 0xA6] ++ Text.utf8 "vector" ++ [0xA1, 0x78]

theorem asF64_one : (Json.Number.int 1).asF64 = 1 := by
  change Binary64.round ((1 : ℤ) : ℚ) = 1
  exact_mod_cast @Binary64.round_int 1 (by norm_num)

theorem exponent_one : Binary32.exponent 1 = -23 := by simp [Binary32.exponent]

theorem significand_one : Binary32.significand 1 = 2 ^ 23 := by
  have scaled : (1 : ℚ) / 2 ^ (-23 : ℤ) = ((2 ^ 23 : ℤ) : ℚ) := by norm_num
  rw [Binary32.significand, exponent_one, scaled, Binary64.nearest_int]
  rfl

theorem single_one : (Json.Number.int 1).single = some 0x3F800000 := by
  have bits : Binary32.bits 1 = 0x3F800000 := by
    rw [Binary32.bits, exponent_one, significand_one]
    rfl
  rw [Json.Number.single, asF64_one, abs_one, bits,
    if_pos (one_lt_pow₀ (by norm_num) (by norm_num))]
  rfl

theorem round_one : Binary32.round 1 = 1 := by
  rw [Binary32.round, exponent_one, significand_one]
  norm_num

theorem exact_one : (Json.Number.int 1).exact = 1 := Int.cast_one

theorem narrows_one : Narrows (.int 1) := by
  refine ⟨?_, by rw [asF64_one, exact_one]⟩
  rw [asF64_one, abs_one, round_one]
  exact one_lt_pow₀ (by norm_num) (by norm_num)

theorem extract_vectorQuery (msgpack : Bytes) :
    extractVectorSearchVector (writes msgpack) vectorQuery = (vectorMetadata, [[0x3F800000]]) := by
  have elements : vectorElements (writes msgpack) [.number (.int 1)] = some [0x3F800000] := by
    simp [vectorElements, writes, single_one]
  simp only [extractVectorSearchVector, vectorQuery, Json.get, if_true, elements]
  rfl

def vectorPayload : Bytes :=
  binaryVectorMagic ++ [1, 0, 0, 1, 0, 0, 0, 63, 0, 0, 0, 0] ++ vectorMetadataMsgpack ++
    [0, 0, 0, 1, 0, 0, 0x80, 0x3F]

theorem encode_vectorQuery :
    encodeBinaryVector (writes vectorMetadataMsgpack) vectorQuery = .ok vectorPayload := by
  simp only [encodeBinaryVector, extract_vectorQuery]
  rfl

theorem carried_vectorQuery : Carried (writes vectorMetadataMsgpack) vectorQuery := by
  constructor
  · rintro _ ⟨⟩
    decide
  · rintro _ _ ⟨⟩ ⟨⟩
    refine ⟨[.int 1], rfl, by decide, ?_⟩
    intro n member
    rw [List.mem_singleton] at member
    exact member ▸ narrows_one

theorem decode_vectorPayload :
    decodeBinaryVector (readsBack vectorMetadataMsgpack vectorMetadata) vectorPayload =
      .ok [("vector_search", .object [("vector",
        .array [.number (.float (Json.exactLiteral false 1))])])] := by
  have parts := extract_vectorQuery vectorMetadataMsgpack
  have reads : ReadsMsgpack (writes vectorMetadataMsgpack)
      (readsBack vectorMetadataMsgpack vectorMetadata)
      (extractVectorSearchVector (writes vectorMetadataMsgpack) vectorQuery).1 := by
    rw [parts]
    exact readsMsgpack_table _ _
  have fits := (decodeBinaryVector_fits (floats_table _ _) reads rfl (by decide)).mpr
    carried_vectorQuery.vector
  have rounded : nearestSingle (readsBack vectorMetadataMsgpack vectorMetadata) (.int 1) =
      .float (Json.exactLiteral false 1) := by
    rw [nearestSingle, exact_one, abs_one, round_one]
    rfl
  simp only [parts] at fits
  refine Eq.trans fits ?_
  simp only [roundVector, vectorQuery, Json.get, if_true, List.map_cons, List.map_nil, roundItem,
    rounded]
  rfl

/-- The query is carried, its element as the number that is one. -/
theorem vector_delivered :
    decodeBinaryVector (readsBack vectorMetadataMsgpack vectorMetadata) vectorPayload =
      .ok (roundVector (readsBack vectorMetadataMsgpack vectorMetadata) vectorQuery) := by
  have parts := extract_vectorQuery vectorMetadataMsgpack
  refine (binary_vector_carried_iff (floats_table _ _) ?_ ?_ encode_vectorQuery).mpr
    carried_vectorQuery
  · rw [parts]
    exact readsMsgpack_table _ _
  · rw [parts]
    exact refusesTruncated_table _ _

/-- A `vector` that is not a list of numbers is left where the decoder looks for a marker. -/
theorem text_vector_refused :
    ReadsMsgpack (writes textQueryMsgpack) (readsBack textQueryMsgpack textQuery) textQuery ∧
    ∃ payload, encodeBinaryVector (writes textQueryMsgpack) textQuery = .ok payload ∧
      decodeBinaryVector (readsBack textQueryMsgpack textQuery) payload =
        .error (.codec "binary vector marker must be an object") :=
  ⟨readsMsgpack_table _ _, _, rfl, rfl⟩

def vectorQueryMsgpack : Bytes :=
  [0x81, 0xAD] ++ Text.utf8 "vector_search" ++ [0x81, 0xA6] ++ Text.utf8 "vector" ++ [0x91, 0x01]

def vectorSerializers : Serializers where
  toVec value := .ok (Text.utf8 value.text)
  toVecNamed value :=
    if value.text = (Json.Value.object vectorQuery).text then .ok vectorQueryMsgpack
    else .ok vectorMetadataMsgpack
  float32 := Json.Number.single

def vectorDeserializers : Deserializers where
  fromJson := (readsBack vectorMetadataMsgpack vectorQuery).fromJson
  fromMsgpack bytes :=
    if bytes = vectorQueryMsgpack then .ok (.object vectorQuery)
    else (readsBack vectorMetadataMsgpack vectorMetadata).fromMsgpack bytes
  fromF64 negative magnitude := .float (Json.exactLiteral negative magnitude)

theorem extract_vectorSerializers :
    extractVectorSearchVector vectorSerializers vectorQuery = (vectorMetadata, [[0x3F800000]]) := by
  have elements : vectorElements vectorSerializers [.number (.int 1)] = some [0x3F800000] := by
    simp [vectorElements, vectorSerializers, single_one]
  simp only [extractVectorSearchVector, vectorQuery, Json.get, if_true, elements]
  rfl

theorem write_vectorMetadata :
    vectorSerializers.toVecNamed (.object vectorMetadata) = .ok vectorMetadataMsgpack := by
  have other : (Json.Value.object vectorMetadata).text ≠ (Json.Value.object vectorQuery).text := by
    decide +kernel
  simp only [vectorSerializers, if_neg other]

theorem write_vectorQuery :
    vectorSerializers.toVecNamed (.object vectorQuery) = .ok vectorQueryMsgpack := by
  simp only [vectorSerializers, if_true]

theorem encode_vectorFrame : NpsFrameCodec.encode vectorSerializers { registry := .createFull } .query
    vectorQuery .binaryVector true = .ok ([0x10, 0x06, 0x00, 0x57] ++ vectorPayload) := by
  have payload : encodeBinaryVector vectorSerializers vectorQuery = .ok vectorPayload := by
    simp only [encodeBinaryVector, extract_vectorSerializers, write_vectorMetadata]
    rfl
  simp only [NpsFrameCodec.encode, NpsFrameCodec.encodePayload, payload]
  rfl

/-- The query comes back from the binary vector tier with its element rounded to a single. -/
theorem vector_round_trip :
    NpsFrameCodec.decode vectorDeserializers { registry := .createFull }
      ([0x10, 0x06, 0x00, 0x57] ++ vectorPayload) =
        .ok (.query, roundVector vectorDeserializers vectorQuery) := by
  have floats : Floats vectorSerializers vectorDeserializers :=
    ⟨fun _ => rfl, fun negative _ magnitude => Json.asF64_exactLiteral magnitude negative⟩
  have json : ReadsJson vectorSerializers vectorDeserializers vectorQuery :=
    readsJson_table vectorMetadataMsgpack vectorQuery
  have whole : ReadsMsgpack vectorSerializers vectorDeserializers vectorQuery := by
    intro bytes written
    cases write_vectorQuery.symm.trans written
    simp only [vectorDeserializers, if_true]
  have rest : ReadsMsgpack vectorSerializers vectorDeserializers
      (extractVectorSearchVector vectorSerializers vectorQuery).1 := by
    rw [extract_vectorSerializers]
    intro bytes written
    cases write_vectorMetadata.symm.trans written
    have other : vectorMetadataMsgpack ≠ vectorQueryMsgpack := by decide +kernel
    simp only [vectorDeserializers, readsBack, if_neg other, if_true]
  have carried : Carried vectorSerializers vectorQuery := by
    refine ⟨fun bytes written => ?_, carried_vectorQuery.vector⟩
    rw [extract_vectorSerializers] at written
    cases write_vectorMetadata.symm.trans written
    decide +kernel
  obtain ⟨payload, same, law⟩ := frame_round_trip floats json whole rest encode_vectorFrame
  obtain ⟨payload', same', fits, -⟩ := NpsFrameCodec.encode_ok encode_vectorFrame
  cases same.symm.trans same'
  exact (law (Nat.lt_of_le_of_lt fits (by decide))).2 fun _ => carried

/-- A codec encodes a type that it does not know and refuses to decode it, and an integer comes
back from the binary vector tier as a float. -/
theorem round_trip_altered :
    (ReadsJson (writes [0x80]) (readsBack [0x80] []) [] ∧
    NpsFrameCodec.encode (writes [0x80]) { registry := .createDefault } .query [] .json true =
      .ok [0x10, 0x04, 0x00, 0x02, 0x7B, 0x7D] ∧
    NpsFrameCodec.decode (readsBack [0x80] []) { registry := .createDefault }
      [0x10, 0x04, 0x00, 0x02, 0x7B, 0x7D] = .error (.frame "unregistered frame type 0x10")) ∧
    NpsFrameCodec.encode (writes vectorMetadataMsgpack) { registry := .createFull } .query
      vectorQuery .binaryVector true = .ok ([0x10, 0x06, 0x00, 0x57] ++ vectorPayload) ∧
    NpsFrameCodec.decode (readsBack vectorMetadataMsgpack vectorMetadata)
      { registry := .createFull } ([0x10, 0x06, 0x00, 0x57] ++ vectorPayload) =
      .ok (.query, [("vector_search", .object [("vector",
        .array [.number (.float (Json.exactLiteral false 1))])])]) := by
  refine ⟨⟨readsJson_table _ _, rfl, rfl⟩, ?_, ?_⟩
  · simp only [NpsFrameCodec.encode, NpsFrameCodec.encodePayload, encode_vectorQuery]
    rfl
  · change (decodeBinaryVector (readsBack vectorMetadataMsgpack vectorMetadata) vectorPayload >>=
      fun dict => Except.ok (FrameType.query, dict)) = _
    rw [decode_vectorPayload]
    rfl

end Nps.Core
