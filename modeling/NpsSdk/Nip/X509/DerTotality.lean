import NpsSdk.Nip.X509.DerCursor

/-! When the DER readers come to an end without a fault. -/
namespace Nps.Nip.X509.DerCursor
open Wire (Bytes)

/-- The text is two texts, the first of which has this many bytes. -/
def Boundary (text : String) (n : Nat) : Prop :=
  ∃ front back, text = front ++ back ∧ (Text.utf8 front).length = n

theorem take_utf8 {text front : String} {n : Nat}
    (spelled : Text.utf8 front = (Text.utf8 text).take n) :
    ∃ back, text = front ++ back ∧ (Text.utf8 text).drop n = Text.utf8 back := by
  have whole : Text.utf8 front ++ (Text.utf8 text).drop n = Text.utf8 text := by
    rw [spelled, List.take_append_drop]
  obtain ⟨rest, chars, bytes⟩ := Text.utf8_prefix whole
  refine ⟨String.ofList rest, ?_, ?_⟩
  · rw [← String.toList_inj, String.toList_append, String.toList_ofList, chars]
  · rw [bytes, Text.utf8, String.toList_ofList]

theorem boundary_iff {text : String} {n : Nat} (within : n ≤ (Text.utf8 text).length) :
    Boundary text n ↔ ∃ front, Text.utf8 front = (Text.utf8 text).take n := by
  constructor
  · rintro ⟨front, back, rfl, rfl⟩
    exact ⟨front, by rw [Text.utf8_append, List.take_left]⟩
  · rintro ⟨front, spelled⟩
    obtain ⟨back, same, -⟩ := take_utf8 spelled
    exact ⟨front, back, same, by rw [spelled, List.length_take, Nat.min_eq_left within]⟩

section Slices
variable {text part : String} {first last : Nat}

theorem boundary_of_slice (sliced : Text.slice? first last text = some part) : Boundary text last := by
  unfold Text.slice? at sliced
  dsimp only at sliced
  split at sliced
  · rename_i bounds
    obtain ⟨order, within, start⟩ := bounds
    obtain ⟨front, spelled⟩ := Option.isSome_iff_exists.mp start
    refine (boundary_iff within).mpr ⟨front ++ part, ?_⟩
    rw [Text.utf8_append, Text.ofUtf8?_eq_some.mp spelled, Text.ofUtf8?_eq_some.mp sliced,
      List.drop_take, ← List.take_add, Nat.add_sub_cancel' order]
  · cases sliced

theorem slice?_of_boundary (order : first ≤ last) (within : last ≤ (Text.utf8 text).length)
    (start : Boundary text first) (stop : Boundary text last) :
    ∃ part, Text.slice? first last text = some part := by
  obtain ⟨front, spelled⟩ := (boundary_iff (Nat.le_trans order within)).mp start
  obtain ⟨whole, spelled'⟩ := (boundary_iff within).mp stop
  have inner : Text.utf8 front = (Text.utf8 whole).take first := by
    rw [spelled, spelled', List.take_take, Nat.min_eq_left order]
  obtain ⟨part, -, bytes⟩ := take_utf8 inner
  have found := Text.ofUtf8?_eq_some.mpr spelled
  refine ⟨part, ?_⟩
  unfold Text.slice?
  dsimp only
  rw [if_pos ⟨order, within, by rw [found]; rfl⟩, ← spelled']
  exact Text.ofUtf8?_eq_some.mpr bytes.symm

end Slices

/-- Where the fields of a time end: four digits, and two for each field after it. -/
def fieldStart : Nat → Nat
  | 0 => 0
  | m + 1 => 2 * m + 4

def fieldAt (text : String) (m : Nat) : Option Int :=
  (Text.slice? (fieldStart m) (fieldStart (m + 1)) text).bind Text.parseInt?

def Straddled (text : String) : (left m : Nat) → Prop
  | 0, _ => False
  | left + 1, m => ¬ Boundary text (fieldStart (m + 1)) ∨
      ∃ value, fieldAt text m = some value ∧ (m = 1 → 1 ≤ Der.asU8 value ∧ Der.asU8 value ≤ 12) ∧
        Straddled text left (m + 1)

def digits (bytes : Bytes) : Option String :=
  (((Text.ofUtf8? bytes).bind (Text.stripSuffix? "Z")).map fun whole =>
    ((Text.split '.' whole).head?).getD "").filter fun text => (Text.utf8 text).length = 14

section Fields
variable {text : String} {m left : Nat}

theorem num_faults (digits : (Text.utf8 text).length = 14) (few : m < 6)
    (start : Boundary text (fieldStart m)) {next : Option Int → Except Der.Panic (Option Instant)}
    (absent : next none = .ok none) :
    (∃ panic, (Der.num text (fieldStart m) (fieldStart (m + 1)) >>= next) = .error panic) ↔
      ¬ Boundary text (fieldStart (m + 1)) ∨
        ∃ value, fieldAt text m = some value ∧ ∃ panic, next (some value) = .error panic := by
  have order : fieldStart m ≤ fieldStart (m + 1) := by
    cases m <;> simp only [fieldStart] <;> omega
  have within : fieldStart (m + 1) ≤ (Text.utf8 text).length := by
    rw [digits, fieldStart]
    omega
  unfold Der.num fieldAt
  by_cases stop : Boundary text (fieldStart (m + 1))
  · obtain ⟨part, sliced⟩ := slice?_of_boundary order within start stop
    rw [sliced]
    cases read : Text.parseInt? part with
    | none => simp [stop, read, absent]
    | some value => simp [stop, read]
  · cases sliced : Text.slice? (fieldStart m) (fieldStart (m + 1)) text with
    | some part => exact absurd (boundary_of_slice sliced) stop
    | none => exact iff_of_true ⟨.charBoundary, rfl⟩ (.inl stop)

theorem fieldAt_boundary {value : Int} (read : fieldAt text m = some value) :
    Boundary text (fieldStart (m + 1)) := by
  obtain ⟨part, sliced, -⟩ := Option.bind_eq_some_iff.mp read
  exact boundary_of_slice sliced

theorem plain_field (digits : (Text.utf8 text).length = 14) (few : m < 6) (plain : m ≠ 1)
    (start : Boundary text (fieldStart m)) {next : Option Int → Except Der.Panic (Option Instant)}
    (absent : next none = .ok none) (later : ∀ value, Boundary text (fieldStart (m + 1)) →
      ((∃ panic, next (some value) = .error panic) ↔ Straddled text left (m + 1))) :
    (∃ panic, (Der.num text (fieldStart m) (fieldStart (m + 1)) >>= next) = .error panic) ↔
      Straddled text (left + 1) m := by
  refine (num_faults digits few start absent).trans (or_congr_right (exists_congr fun value => ?_))
  refine and_congr_right fun read => ?_
  rw [later value (fieldAt_boundary read)]
  exact ⟨fun straddled => ⟨fun month => absurd month plain, straddled⟩, And.right⟩

end Fields

/-- The fields of the digits. -/
def parseFields (text : String) : Except Der.Panic (Option Instant) := do
  let some year ← Der.num text 0 4 | return none
  let some month ← Der.num text 4 6 | return none
  if Der.asU8 month < 1 ∨ 12 < Der.asU8 month then return none
  let some day ← Der.num text 6 8 | return none
  let some hour ← Der.num text 8 10 | return none
  let some minute ← Der.num text 10 12 | return none
  let some second ← Der.num text 12 14 | return none
  return Der.civilInstant year (Der.asU8 month) (Der.asU8 day) (Der.asU8 hour) (Der.asU8 minute)
    (Der.asU8 second)

theorem parseGeneralizedTime_eq (bytes : Bytes) :
    Der.parseGeneralizedTime bytes = (digits bytes).elim (.ok none) parseFields := by
  unfold Der.parseGeneralizedTime digits
  cases (Text.ofUtf8? bytes).bind (Text.stripSuffix? "Z") with
  | none => rfl
  | some whole =>
    dsimp only [Option.map_some]
    by_cases size : (Text.utf8 (((Text.split '.' whole).head?).getD "")).length = 14
    · rw [Option.filter_some_pos (by simpa using size)]
      simp only [size, ne_eq, not_true_eq_false, if_false]
      rfl
    · rw [Option.filter_some_neg (by simpa using size)]
      simp only [size, ne_eq, not_false_eq_true, if_true]
      rfl

theorem parseFields_faults {text : String} (digits : (Text.utf8 text).length = 14) :
    (∃ panic, parseFields text = .error panic) ↔ Straddled text 6 0 := by
  unfold parseFields
  refine plain_field (m := 0) digits (by decide) (by decide) ⟨"", text, by simp, rfl⟩ ?_ fun year start => ?_
  · rfl
  refine .trans (num_faults (m := 1) digits (by decide) start ?_)
    (or_congr_right (exists_congr fun month => and_congr_right fun read => ?_))
  · rfl
  dsimp only
  split_ifs with outside
  · simp; omega
  have inside : 1 ≤ Der.asU8 month ∧ Der.asU8 month ≤ 12 := by omega
  refine .trans ?_ (and_iff_right fun _ => inside).symm
  refine plain_field (m := 2) digits (by decide) (by decide) (fieldAt_boundary read) ?_ fun day start => ?_
  · rfl
  refine plain_field (m := 3) digits (by decide) (by decide) start ?_ fun hour start => ?_
  · rfl
  refine plain_field (m := 4) digits (by decide) (by decide) start ?_ fun minute start => ?_
  · rfl
  refine plain_field (m := 5) digits (by decide) (by decide) start ?_ fun second _ => ?_
  · rfl
  simp [Straddled]

/-- A time makes its reader fault just when a character lies across the end of a field that is reached. -/
theorem parse_faults_iff (bytes : Bytes) : (∃ panic, Der.parseGeneralizedTime bytes = .error panic) ↔
    ∃ text, digits bytes = some text ∧ Straddled text 6 0 := by
  rw [parseGeneralizedTime_eq]
  cases found : digits bytes with
  | none => simp
  | some text =>
    have size : (Text.utf8 text).length = 14 := by
      simpa using (Option.filter_eq_some_iff.mp found).2
    simp [parseFields_faults size]

/-- The readers come to an end on a byte string, without a fault. -/
structure Total (der : Slice) : Prop where
  update : ∃ answer, tryGetOcspNextUpdate der = .ok answer
  strings : ∀ oid, ∃ answer, readUtf8SequenceExtension der oid = .ok answer
  identifiers : ∀ expected, ∃ answer, rawSeqContainsOid der expected = .ok answer

/-- Whatever the lengths and nesting, only the text of an update time can make a reader fault. -/
theorem total_iff (der : Slice) : Total der ↔ ¬ ∃ time text,
    Der.nextUpdateText der.bytes = some time ∧ digits time = some text ∧ Straddled text 6 0 := by
  have faults : (∃ panic, Der.tryGetOcspNextUpdate der.bytes = .error panic) ↔ ∃ time text,
      Der.nextUpdateText der.bytes = some time ∧ digits time = some text ∧ Straddled text 6 0 := by
    unfold Der.tryGetOcspNextUpdate
    cases Der.nextUpdateText der.bytes with
    | none => simp
    | some time => simp [parse_faults_iff]
  rw [← faults]
  constructor
  · rintro ⟨⟨answer, done⟩, -, -⟩ ⟨panic, faulted⟩
    rw [tryGetOcspNextUpdate_eq, faulted] at done
    cases done
  · intro none
    refine ⟨?_, fun oid => ⟨_, readUtf8SequenceExtension_ok der oid⟩,
      fun expected => ⟨_, rawSeqContainsOid_ok der expected⟩⟩
    rw [tryGetOcspNextUpdate_eq]
    cases answer : Der.tryGetOcspNextUpdate der.bytes with
    | ok found => exact ⟨found, rfl⟩
    | error panic => exact absurd ⟨panic, answer⟩ none

namespace Accent

def element (tag : UInt8) (content : Bytes) : Bytes := tag :: UInt8.ofNat content.length :: content

def time : Bytes := Text.utf8 "202é010100000Z"

def single : Bytes :=
  element 0x30 [] ++ element 0x80 [] ++ element 0x18 [] ++ element 0xA0 (element 0x18 time)

def response : Bytes :=
  element 0x30 (element 0x0A [0] ++ element 0xA0 (element 0x30 (element 0x06 [] ++
    element 0x04 (element 0x30 (element 0x30 (element 0x30 (element 0x30 single)))))))

theorem year_faults : ¬ ∀ der : Slice, Total der := by
  intro total
  obtain ⟨answer, done⟩ := (total ⟨response, by decide +kernel⟩).update
  have faulted : Der.tryGetOcspNextUpdate response = .error .charBoundary := by
    decide +kernel
  rw [tryGetOcspNextUpdate_eq, faulted] at done
  cases done

end Accent
end Nps.Nip.X509.DerCursor
