import Mathlib.Algebra.Group.Int.Defs
import NpsSdk.Lib.Wire
import NpsSdk.Lib.Json

/-! What the identity layer takes from third-party crates: the Ed25519 scheme, the JSON
reader and the time formatter. Instants and durations are counted in nanoseconds. -/
namespace Nps.Nip
open Wire (Bytes)

abbrev Key32 := { bytes : Bytes // bytes.length = 32 }
abbrev Signature64 := { bytes : Bytes // bytes.length = 64 }

class Ed25519 where
  SigningKey : Type
  VerifyingKey : Type
  verifyingKey : SigningKey → VerifyingKey
  asBytes : VerifyingKey → Key32
  /-- Not every 32 bytes are a point; the refusal carries its message. -/
  fromBytes : Key32 → Except String VerifyingKey
  sign : SigningKey → Bytes → Signature64
  verify : VerifyingKey → Bytes → Signature64 → Bool
  /-- What the scheme says of a signature of the wrong size, and of one that does not verify. -/
  sizeMessage : String
  mismatchMessage : String

/-- One key pair of the scheme, seen through a table of its signatures. -/
abbrev Ed25519.table (key : Key32) (signed : Bytes → Option Signature64) : Ed25519 where
  SigningKey := Unit
  VerifyingKey := Key32
  verifyingKey _ := key
  asBytes := id
  fromBytes := .ok
  sign _ message := (signed message).getD ⟨List.replicate 64 0, List.length_replicate⟩
  verify other message signature := decide (other = key ∧ signed message = some signature)
  sizeMessage := "signature error"
  mismatchMessage := "signature error"

/-- `serde_json::from_str` and `from_slice`, with the message of a refusal. -/
class Serde where
  fromStr : String → Except String Json.Value
  fromSlice : Bytes → Except String Json.Value

abbrev Instant := Int
abbrev Duration := Int

class TimeText where
  format : Instant → String
  parse : String → Option Instant
  duration : Duration → String

class Sha256 where
  digest : Bytes → Bytes

abbrev Serde.table (texts : List (String × Json.Value)) : Serde where
  fromStr text := match texts.lookup text with
    | some value => .ok value
    | none => .error "expected value at line 1 column 1"
  fromSlice _ := .error "expected value at line 1 column 1"

abbrev TimeText.table (instants : List (Instant × String)) : TimeText where
  format instant := (instants.lookup instant).getD ""
  parse text := (instants.find? fun entry => entry.2 == text).map Prod.fst
  duration duration := s!"{duration}ns"

namespace Duration
def seconds (count : Int) : Duration := count * 1000000000
def days (count : Int) : Duration := seconds (count * 86400)
def wholeSeconds (duration : Duration) : Int := duration.tdiv 1000000000
end Duration

def unixTimestamp (instant : Instant) : Int := instant.fdiv 1000000000

end Nps.Nip
