import NpsSdk.Nip.X509.Builder

/-! The hand-written DER reader: tag, length and content of one value after another, the
certificate extensions it looks up and the update time of an OCSP response. -/
namespace Nps.Nip.X509.Der
open Wire (Bytes)

/-- The content length, and how many bytes its prefix takes. -/
def readLen : Bytes → Option (Nat × Nat)
  | [] => none
  | first :: rest =>
    if first &&& 0x80 = 0 then some (first.toNat, 1)
    else
      let n := (first &&& 0x7F).toNat
      if n = 0 ∨ n > 4 ∨ rest.length < n then none
      else some (Wire.number (rest.take n), 1 + n)

structure Tlv where
  tag : UInt8
  content : Bytes
deriving DecidableEq

/-- One value off the front; a length that leaves the buffer is malformed. -/
def read (input : Bytes) : Option (Tlv × Bytes) :=
  match input with
  | tag :: rest@(_ :: _) => do
    let (len, header) ← readLen rest
    if header + len ≤ rest.length then
      return ({ tag, content := (rest.drop header).take len }, rest.drop (header + len))
    else none
  | _ => none

def expect (tag : UInt8) (input : Bytes) : Option (Bytes × Bytes) := do
  let (value, rest) ← read input
  if value.tag = tag then return (value.content, rest) else none

theorem read_shorter {input rest : Bytes} {value : Tlv} (done : read input = some (value, rest)) :
    rest.length < input.length := by
  unfold read at done
  split at done
  · obtain ⟨⟨len, header⟩, _, done⟩ := Option.bind_eq_some_iff.mp done
    dsimp only at done
    split at done
    · cases done
      simp only [List.length_drop, List.length_cons]
      omega
    · contradiction
  · contradiction

def parseUtf8Strings (input : Bytes) : Option (List String) :=
  if input = [] then some []
  else match _ : read input with
    | none => none
    | some (value, rest) => do
      let text ← if value.tag = 0x0C then Text.ofUtf8? value.content else none
      let others ← parseUtf8Strings rest
      return text :: others
termination_by input.length
decreasing_by exact read_shorter ‹_›

def parseUtf8Sequence (value : Bytes) : Option (List String) := do
  let (content, _) ← expect 0x30 value
  parseUtf8Strings content

/-- Walk the fields up to the `[3]` block of extensions. -/
def findExtensions (input : Bytes) : Option Bytes :=
  match _ : read input with
  | none => none
  | some (value, rest) => if value.tag = 0xA3 then some value.content else findExtensions rest
termination_by input.length
decreasing_by exact read_shorter ‹_›

def extensionValue (rest : Bytes) : Option Bytes := do
  let (first, rest) ← read rest
  let value ← if first.tag = 0x01 then (read rest).map (·.1) else some first
  if value.tag = 0x04 then some value.content else none

/-- The first extension with this OID; anything malformed before it is passed over. -/
def findExtension (wanted : Bytes) (input : Bytes) : Option Bytes :=
  match _ : read input with
  | none => none
  | some (extension, rest) =>
    if extension.tag = 0x30 then
      match read extension.content with
      | some (oid, tail) =>
        if oid.tag = 0x06 ∧ oid.content = wanted then extensionValue tail
        else findExtension wanted rest
      | none => findExtension wanted rest
    else findExtension wanted rest
termination_by input.length
decreasing_by all_goals exact read_shorter ‹_›

def findExtensionValue (certDer : Bytes) (oid : Oid) : Option Bytes := do
  let (cert, _) ← expect 0x30 certDer
  let (tbs, _) ← expect 0x30 cert
  let extensions ← findExtensions tbs
  let (sequence, _) ← expect 0x30 extensions
  findExtension (encodeOidContent oid) sequence

/-- Absent, present with its strings, or present and malformed, which reads as empty. -/
def readUtf8SequenceExtension (leafDer : Bytes) (oid : Oid) : Option (List String) :=
  (findExtensionValue leafDer oid).map fun raw => (parseUtf8Sequence raw).getD []

/-- Slicing a text inside a character. -/
inductive Panic where
  | charBoundary
deriving DecidableEq

def daysFromCivil (year month day : Int) : Int :=
  let y := if month ≤ 2 then year - 1 else year
  let era := y.fdiv 400
  let yoe := y - era * 400
  let shifted := if month > 2 then month - 3 else month + 9
  let doy := (153 * shifted + 2).fdiv 5 + day - 1
  era * 146097 + (yoe * 365 + yoe.fdiv 4 - yoe.fdiv 100 + doy) - 719468

def isLeap (year : Int) : Bool := year % 4 = 0 ∧ (year % 100 ≠ 0 ∨ year % 400 = 0)

def daysInMonth (year month : Int) : Int :=
  if month = 2 then (if isLeap year then 29 else 28)
  else if month = 4 ∨ month = 6 ∨ month = 9 ∨ month = 11 then 30 else 31

def civilInstant (year month day hour minute second : Int) : Option Instant :=
  if 1 ≤ month ∧ month ≤ 12 ∧ 1 ≤ day ∧ day ≤ daysInMonth year month ∧ hour ≤ 23 ∧ minute ≤ 59 ∧
      second ≤ 59 then
    some (Duration.seconds (daysFromCivil year month day * 86400 + hour * 3600 + minute * 60 + second))
  else none

def num (text : String) (first last : Nat) : Except Panic (Option Int) :=
  match Text.slice? first last text with
  | none => .error .charBoundary
  | some part => .ok (Text.parseInt? part)

def asU8 (value : Int) : Int := value % 256

/-- `YYYYMMDDHHMMSS[.fff]Z`; the fields are taken by byte position. -/
def parseGeneralizedTime (bytes : Bytes) : Except Panic (Option Instant) := do
  let some text := (Text.ofUtf8? bytes).bind (Text.stripSuffix? "Z") | return none
  let text := ((Text.split '.' text).head?).getD ""
  if (Text.utf8 text).length ≠ 14 then return none
  let some year ← num text 0 4 | return none
  let some month ← num text 4 6 | return none
  if asU8 month < 1 ∨ 12 < asU8 month then return none
  let some day ← num text 6 8 | return none
  let some hour ← num text 8 10 | return none
  let some minute ← num text 10 12 | return none
  let some second ← num text 12 14 | return none
  return civilInstant year (asU8 month) (asU8 day) (asU8 hour) (asU8 minute) (asU8 second)

/-- The text of `nextUpdate` in the first single response. -/
def nextUpdateText (der : Bytes) : Option Bytes := do
  let (body, _) ← expect 0x30 der
  let (_, response) ← expect 0x0A body
  let (responseBytes, _) ← expect 0xA0 response
  let (fields, _) ← expect 0x30 responseBytes
  let (_, octets) ← expect 0x06 fields
  let (basicDer, _) ← expect 0x04 octets
  let (basic, _) ← expect 0x30 basicDer
  let (tbs, _) ← expect 0x30 basic
  let (cur, rest) ← read tbs
  let (cur, rest) ← if cur.tag = 0xA0 then read rest else some (cur, rest)
  let (cur, rest) ← if cur.tag &&& 0xC0 = 0x80 then read rest else some (cur, rest)
  let (cur, _) ← if cur.tag = 0x18 ∨ cur.tag = 0x17 then read rest else some (cur, rest)
  let responses ← if cur.tag = 0x30 then some cur.content else none
  let (single, _) ← expect 0x30 responses
  let (_, afterId) ← expect 0x30 single
  let (status, afterStatus) ← read afterId
  let (thisUpdate, afterUpdate) ← if status.tag &&& 0xC0 = 0x80 then read afterStatus else none
  let (next, _) ←
    if thisUpdate.tag = 0x18 ∨ thisUpdate.tag = 0x17 then expect 0xA0 afterUpdate else none
  let (time, _) ← expect 0x18 next
  return time

def tryGetOcspNextUpdate (der : Bytes) : Except Panic (Option Instant) :=
  match nextUpdateText der with
  | none => .ok none
  | some time => parseGeneralizedTime time

end Nps.Nip.X509.Der
