import NpsSdk.Lib.Text

/-! IP addresses, read from text the way Rust's standard library reads them. -/
namespace Ip

abbrev V4 := { octets : List UInt8 // octets.length = 4 }
abbrev V6 := { segments : List UInt16 // segments.length = 8 }

inductive Addr where
  | v4 (addr : V4)
  | v6 (addr : V6)

/-- What was read, and the rest of the input. -/
abbrev Reader (α : Type) := List Char → Option (α × List Char)

def digitValue (radix : Nat) (c : Char) : Option Nat :=
  let value :=
    if '0' ≤ c ∧ c ≤ '9' then c.toNat - 48
    else if 'a' ≤ c ∧ c ≤ 'f' then c.toNat - 87
    else if 'A' ≤ c ∧ c ≤ 'F' then c.toNat - 55
    else radix
  if value < radix then some value else none

/-- All digits there are, at most `maxDigits` of them. -/
def readNumber (radix maxDigits bound : Nat) (allowZeroPrefix : Bool) : Reader Nat := fun input =>
  let digits := input.takeWhile fun c => (digitValue radix c).isSome
  let value := (digits.filterMap (digitValue radix)).foldl (fun n d => n * radix + d) 0
  if digits = [] ∨ digits.length > maxDigits then none
  else if allowZeroPrefix = false ∧ digits.head? = some '0' ∧ digits.length > 1 then none
  else if value < bound then some (value, input.drop digits.length)
  else none

def readChar (expected : Char) : Reader Unit
  | c :: rest => if c = expected then some ((), rest) else none
  | [] => none

def readSeparated {α : Type} (separator : Char) (first : Bool) (inner : Reader α) : Reader α :=
  fun input =>
    if first then inner input
    else (readChar separator input).bind fun (_, rest) => inner rest

def readOctets : Nat → Bool → Reader (List UInt8)
  | 0, _, input => some ([], input)
  | count + 1, first, input => do
    let (octet, rest) ← readSeparated '.' first (readNumber 10 3 256 false) input
    let (octets, rest) ← readOctets count false rest
    return (UInt8.ofNat octet :: octets, rest)

def readV4 : Reader V4 := fun input =>
  (readOctets 4 true input).bind fun (octets, rest) =>
    if size : octets.length = 4 then some (⟨octets, size⟩, rest) else none

/-- Groups of hexadecimal digits, as many as there are up to the limit; the last two may be
written as an IPv4 address, which is said too. -/
def readGroups : Nat → Bool → List Char → List UInt16 × Bool × List Char
  | 0, _, input => ([], false, input)
  | limit + 1, first, input =>
    match if limit = 0 then none else readSeparated ':' first readV4 input with
    | some (⟨octets, _⟩, rest) =>
      let at' (i : Nat) : Nat := (octets.getD i 0).toNat
      ([UInt16.ofNat (at' 0 * 256 + at' 1), UInt16.ofNat (at' 2 * 256 + at' 3)], true, rest)
    | none =>
      match readSeparated ':' first (readNumber 16 4 65536 true) input with
      | none => ([], false, input)
      | some (group, rest) =>
        let (groups, v4, rest) := readGroups limit false rest
        (UInt16.ofNat group :: groups, v4, rest)

/-- Eight groups, or fewer around a `::` that stands for the missing ones. -/
def readV6 : Reader V6 := fun input =>
  let (head, headV4, rest) := readGroups 8 true input
  if size : head.length = 8 then some (⟨head, size⟩, rest)
  else if headV4 then none
  else do
    let (_, rest) ← readChar ':' rest
    let (_, rest) ← readChar ':' rest
    let (tail, _, rest) := readGroups (8 - (head.length + 1)) true rest
    let segments := head ++ List.replicate (8 - head.length - tail.length) 0 ++ tail
    if size : segments.length = 8 then return (⟨segments, size⟩, rest) else none

def parse (text : String) : Option Addr :=
  match readV4 text.toList with
  | some (addr, rest) => if rest = [] then some (.v4 addr) else none
  | none =>
    match readV6 text.toList with
    | some (addr, []) => some (.v6 addr)
    | _ => none

def V4.octet (addr : V4) (index : Nat) : Nat := (addr.1.getD index 0).toNat

def V6.segment (addr : V6) (index : Nat) : UInt16 := addr.1.getD index 0

section V4
variable (addr : V4)

/-- `10.0.0.0/8`, `172.16.0.0/12` and `192.168.0.0/16`. -/
def V4.isPrivate : Bool :=
  addr.octet 0 = 10 || (addr.octet 0 = 172 && 16 ≤ addr.octet 1 && addr.octet 1 ≤ 31) ||
    (addr.octet 0 = 192 && addr.octet 1 = 168)

def V4.isLoopback : Bool := addr.octet 0 = 127

def V4.isLinkLocal : Bool := addr.octet 0 = 169 && addr.octet 1 = 254

def V4.isMulticast : Bool := 224 ≤ addr.octet 0 && addr.octet 0 ≤ 239

def V4.isUnspecified : Bool := addr.1 == [0, 0, 0, 0]

def V4.isBroadcast : Bool := addr.1 == [255, 255, 255, 255]

end V4

/-- `fe80::/10`. -/
def V6.isUnicastLinkLocal (addr : V6) : Bool := addr.segment 0 &&& 0xFFC0 == 0xFE80

/-- `fc00::/7`. -/
def V6.isUniqueLocal (addr : V6) : Bool := addr.segment 0 &&& 0xFE00 == 0xFC00

/-- `ff00::/8`. -/
def V6.isMulticast (addr : V6) : Bool := addr.segment 0 &&& 0xFF00 == 0xFF00

def V6.isUnspecified (addr : V6) : Bool := addr.1 == [0, 0, 0, 0, 0, 0, 0, 0]

def V6.isLoopback (addr : V6) : Bool := addr.1 == [0, 0, 0, 0, 0, 0, 0, 1]

/-- The address within `::ffff:0:0/96`. -/
def V6.toIpv4Mapped (addr : V6) : Option V4 :=
  match addr.1 with
  | [0, 0, 0, 0, 0, 0xFFFF, high, low] =>
    some ⟨[UInt8.ofNat (high.toNat / 256), UInt8.ofNat high.toNat, UInt8.ofNat (low.toNat / 256),
      UInt8.ofNat low.toNat], rfl⟩
  | _ => none

example : ((parse "::ffff:10.0.0.1").bind fun
    | .v6 addr => addr.toIpv4Mapped.map (·.1)
    | .v4 _ => none) = some [10, 0, 0, 1] := by decide
example : (parse "10.0.00.1").isNone = true := by decide

end Ip
