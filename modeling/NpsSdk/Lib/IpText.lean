import Mathlib.Data.List.GetD
import Mathlib.Tactic.IntervalCases
import NpsSdk.Lib.Ip
import NpsSdk.Lib.Splitting

/-! The texts that are read as IP addresses, and what their spelling says about the address. -/
namespace Ip

def digitsValue (radix : Nat) (digits : List Char) : Nat :=
  (digits.filterMap (digitValue radix)).foldl (fun n d => n * radix + d) 0

structure Numeral (radix maxDigits : Nat) (digits : List Char) (value : Nat) : Prop where
  nonempty : digits ≠ []
  short : digits.length ≤ maxDigits
  digit : ∀ c ∈ digits, (digitValue radix c).isSome
  value_eq : value = digitsValue radix digits

theorem readNumber_some {radix maxDigits bound value : Nat} {allowZeroPrefix : Bool}
    {input rest : List Char}
    (read : readNumber radix maxDigits bound allowZeroPrefix input = some (value, rest)) :
    ∃ digits, input = digits ++ rest ∧ Numeral radix maxDigits digits value ∧ value < bound := by
  unfold readNumber at read
  dsimp only at read
  split_ifs at read with long zero small
  cases read
  obtain ⟨nonempty, short⟩ := not_or.mp long
  refine ⟨_, ?_, ⟨nonempty, Nat.not_lt.mp short, fun c member => ?_, rfl⟩, small⟩
  · exact (List.prefix_iff_eq_append.mp (List.takeWhile_prefix _)).symm
  · exact List.mem_takeWhile_imp (p := fun c => (digitValue radix c).isSome) member

def mark (separator : Char) (first : Bool) : List Char := if first then [] else [separator]

theorem readSeparated_some {α : Type} {separator : Char} {first : Bool} {inner : Reader α}
    {input rest : List Char} {out : α}
    (read : readSeparated separator first inner input = some (out, rest)) :
    ∃ item, input = mark separator first ++ item ∧ inner item = some (out, rest) := by
  cases first with
  | true => exact ⟨input, rfl, read⟩
  | false =>
    obtain ⟨⟨⟨⟩, tail⟩, marked, item⟩ := Option.bind_eq_some_iff.mp read
    cases input with
    | nil => cases marked
    | cons c chars =>
      simp only [readChar] at marked
      split_ifs at marked with same
      cases marked
      refine ⟨tail, ?_, item⟩
      rw [same]
      rfl

def Dotted (chars : List Char) (addr : V4) : Prop :=
  ∃ a b c d : List Char, chars = a ++ '.' :: (b ++ '.' :: (c ++ '.' :: d)) ∧
    Numeral 10 3 a (addr.octet 0) ∧ Numeral 10 3 b (addr.octet 1) ∧
    Numeral 10 3 c (addr.octet 2) ∧ Numeral 10 3 d (addr.octet 3)

theorem readOctets_succ {count : Nat} {first : Bool} {input rest : List Char} {octets : List UInt8}
    (read : readOctets (count + 1) first input = some (octets, rest)) :
    ∃ part octet others middle, input = mark '.' first ++ part ++ middle ∧
      Numeral 10 3 part octet.toNat ∧ octets = octet :: others ∧
      readOctets count false middle = some (others, rest) := by
  obtain ⟨⟨value, middle⟩, item, read⟩ := Option.bind_eq_some_iff.mp read
  obtain ⟨⟨others, last⟩, more, same⟩ := Option.bind_eq_some_iff.mp read
  cases same
  obtain ⟨tail, rfl, number⟩ := readSeparated_some item
  obtain ⟨part, rfl, numeral, small⟩ := readNumber_some number
  have octet : (UInt8.ofNat value).toNat = value := Nat.mod_eq_of_lt small
  exact ⟨part, UInt8.ofNat value, others, middle, (List.append_assoc ..).symm,
    octet.symm ▸ numeral, rfl, more⟩

theorem readV4_some {input rest : List Char} {addr : V4} (read : readV4 input = some (addr, rest)) :
    ∃ chars, input = chars ++ rest ∧ Dotted chars addr := by
  obtain ⟨⟨octets, left⟩, four, same⟩ := Option.bind_eq_some_iff.mp read
  obtain ⟨a, o0, _, _, rfl, first, rfl, three⟩ := readOctets_succ four
  obtain ⟨b, o1, _, _, rfl, second, rfl, two⟩ := readOctets_succ three
  obtain ⟨c, o2, _, _, rfl, third, rfl, one⟩ := readOctets_succ two
  obtain ⟨d, o3, _, _, rfl, fourth, rfl, none⟩ := readOctets_succ one
  cases none
  cases same
  refine ⟨a ++ '.' :: (b ++ '.' :: (c ++ '.' :: d)), by simp [mark], a, b, c, d, rfl, ?_⟩
  exact ⟨first, second, third, fourth⟩

def V4.high (addr : V4) : UInt16 := UInt16.ofNat (addr.octet 0 * 256 + addr.octet 1)

def V4.low (addr : V4) : UInt16 := UInt16.ofNat (addr.octet 2 * 256 + addr.octet 3)

inductive Groups : (first : Bool) → List Char → List UInt16 → (v4 : Bool) → Prop where
  | none (first : Bool) : Groups first [] [] false
  | quad {first : Bool} {chars : List Char} {addr : V4} :
      Dotted chars addr → Groups first (mark ':' first ++ chars) [addr.high, addr.low] true
  | group {first v4 : Bool} {digits more : List Char} {value : Nat} {groups : List UInt16} :
      Numeral 16 4 digits value → value < 65536 → Groups false more groups v4 →
      Groups first (mark ':' first ++ (digits ++ more)) (UInt16.ofNat value :: groups) v4

theorem readGroups_spell {limit : Nat} {first v4 : Bool} {input rest : List Char}
    {groups : List UInt16} (read : readGroups limit first input = (groups, v4, rest)) :
    groups.length ≤ limit ∧ ∃ chars, input = chars ++ rest ∧ Groups first chars groups v4 := by
  induction limit generalizing first input groups v4 rest with
  | zero =>
    cases read
    exact ⟨Nat.le_refl _, [], rfl, .none first⟩
  | succ limit ih =>
    rw [readGroups] at read
    split at read
    · rename_i octets size tail dotted
      cases read
      split_ifs at dotted with last
      obtain ⟨item, rfl, number⟩ := readSeparated_some dotted
      obtain ⟨chars, rfl, spelled⟩ := readV4_some number
      refine ⟨?_, mark ':' first ++ chars, (List.append_assoc ..).symm, ?_⟩
      · simp only [List.length_cons, List.length_nil]
        omega
      · have quad : Groups first (mark ':' first ++ chars)
            [V4.high ⟨octets, size⟩, V4.low ⟨octets, size⟩] true := .quad spelled
        simp only [V4.high, V4.low, V4.octet] at quad
        exact quad
    · split at read
      · cases read
        exact ⟨Nat.zero_le _, [], rfl, .none first⟩
      · rename_i value tail group
        obtain ⟨item, rfl, number⟩ := readSeparated_some group
        obtain ⟨digits, rfl, numeral, small⟩ := readNumber_some number
        rcases others : readGroups limit false tail with ⟨more, flag, left⟩
        rw [others] at read
        cases read
        obtain ⟨count, chars, rfl, spelled⟩ := ih others
        refine ⟨Nat.succ_le_succ count, _, ?_, .group numeral small spelled⟩
        simp only [List.append_assoc]

/-- Eight groups, or fewer around a double colon. -/
inductive V6Text : List Char → V6 → Prop where
  | full {chars : List Char} {addr : V6} {v4 : Bool} : Groups true chars addr.1 v4 → V6Text chars addr
  | elided {head tail : List Char} {front back : List UInt16} {addr : V6} {v4 : Bool} :
      Groups true head front false → Groups true tail back v4 →
      front.length + back.length ≤ 7 →
      addr.1 = front ++ List.replicate (8 - front.length - back.length) 0 ++ back →
      V6Text (head ++ ':' :: ':' :: tail) addr

theorem readChar_some {expected : Char} {input rest : List Char}
    (read : readChar expected input = some ((), rest)) : input = expected :: rest := by
  cases input with
  | nil => cases read
  | cons c chars =>
    simp only [readChar] at read
    split_ifs at read with same
    cases read
    rw [same]

theorem readV6_some {input : List Char} {addr : V6} (read : readV6 input = some (addr, [])) :
    V6Text input addr := by
  unfold readV6 at read
  rcases first : readGroups 8 true input with ⟨front, frontV4, rest⟩
  rw [first] at read
  dsimp only at read
  obtain ⟨count, head, rfl, spelled⟩ := readGroups_spell first
  split_ifs at read with whole dotted
  · cases read
    rw [List.append_nil]
    exact .full spelled
  · obtain ⟨⟨⟨⟩, afterOne⟩, one, read⟩ := Option.bind_eq_some_iff.mp read
    obtain ⟨⟨⟨⟩, afterTwo⟩, two, read⟩ := Option.bind_eq_some_iff.mp read
    rcases second : readGroups (8 - (front.length + 1)) true afterTwo with ⟨back, backV4, left⟩
    rw [second] at read
    dsimp only at read
    split_ifs at read with size
    cases read
    obtain ⟨fewer, tail, rfl, spelled'⟩ := readGroups_spell second
    have colon : afterOne = ':' :: (tail ++ []) := readChar_some two
    rw [readChar_some one, colon, List.append_nil]
    rw [Bool.not_eq_true] at dotted
    exact .elided (dotted ▸ spelled) spelled' (by omega) rfl

theorem parse_v4 {text : String} {addr : V4} (parsed : parse text = some (.v4 addr)) :
    Dotted text.toList addr := by
  unfold parse at parsed
  split at parsed
  · rename_i found rest read
    split_ifs at parsed with whole
    cases parsed
    obtain ⟨chars, same, dotted⟩ := readV4_some read
    rw [same, whole, List.append_nil]
    exact dotted
  · split at parsed <;> cases parsed

theorem parse_v6 {text : String} {addr : V6} (parsed : parse text = some (.v6 addr)) :
    V6Text text.toList addr := by
  unfold parse at parsed
  split at parsed
  · split_ifs at parsed
    cases parsed
  · split at parsed
    · rename_i read
      cases parsed
      exact readV6_some read
    · cases parsed

theorem digit_hex {c : Char} (digit : (digitValue 10 c).isSome) : (digitValue 16 c).isSome := by
  unfold digitValue at digit ⊢
  dsimp only at digit ⊢
  split_ifs at digit ⊢ <;> simp_all
  all_goals omega

theorem Numeral.no_mark {radix maxDigits value : Nat} {digits : List Char} {c : Char}
    (numeral : Numeral radix maxDigits digits value) (none : digitValue radix c = none) : c ∉ digits := by
  intro member
  have digit := numeral.digit c member
  rw [none] at digit
  cases digit

theorem Dotted.char {chars : List Char} {addr : V4} (dotted : Dotted chars addr) :
    ∀ c ∈ chars, (digitValue 10 c).isSome ∨ c = '.' := by
  obtain ⟨a, b, c, d, rfl, first, second, third, fourth⟩ := dotted
  intro x member
  simp only [List.mem_append, List.mem_cons] at member
  rcases member with member | rfl | member | rfl | member | rfl | member
  · exact .inl (first.digit x member)
  · exact .inr rfl
  · exact .inl (second.digit x member)
  · exact .inr rfl
  · exact .inl (third.digit x member)
  · exact .inr rfl
  · exact .inl (fourth.digit x member)

def addressChar (c : Char) : Prop := (digitValue 16 c).isSome ∨ c = ':' ∨ c = '.'

theorem Dotted.addressChar {chars : List Char} {addr : V4} (dotted : Dotted chars addr) {c : Char}
    (member : c ∈ chars) : Ip.addressChar c :=
  (dotted.char c member).imp digit_hex .inr

theorem mark_char {separator c : Char} {first : Bool} (member : c ∈ mark separator first) :
    c = separator := by
  cases first with
  | true => cases member
  | false => exact List.mem_singleton.mp member

theorem Groups.char {first v4 : Bool} {chars : List Char} {groups : List UInt16}
    (spelled : Groups first chars groups v4) :
    ∀ c ∈ chars, addressChar c ∧ (v4 = false → c ≠ '.') := by
  induction spelled with
  | none first => simp
  | @quad first chars addr dotted =>
    intro c member
    rcases List.mem_append.mp member with marked | inside
    · exact ⟨.inr (.inl (mark_char marked)), nofun⟩
    · exact ⟨dotted.addressChar inside, nofun⟩
  | @group first v4 digits more value groups numeral small rest ih =>
    intro c member
    rcases List.mem_append.mp member with marked | inside
    · cases mark_char marked
      exact ⟨.inr (.inl rfl), fun _ => by decide⟩
    · rcases List.mem_append.mp inside with digit | later
      · refine ⟨.inl (numeral.digit c digit), fun _ => ?_⟩
        rintro rfl
        exact numeral.no_mark (by decide) digit
      · exact ih c later

theorem V6Text.char {chars : List Char} {addr : V6} (spelled : V6Text chars addr) :
    ∀ c ∈ chars, addressChar c := by
  intro c member
  cases spelled with
  | full groups => exact (groups.char c member).1
  | elided front back =>
    simp only [List.mem_append, List.mem_cons] at member
    rcases member with inside | rfl | rfl | inside
    · exact (front.char c inside).1
    · exact .inr (.inl rfl)
    · exact .inr (.inl rfl)
    · exact (back.char c inside).1

theorem parse_char {text : String} {addr : Addr} (parsed : parse text = some addr) :
    ∀ c ∈ text.toList, addressChar c := by
  cases addr with
  | v4 addr => exact fun c member => (parse_v4 parsed).addressChar member
  | v6 addr => exact (parse_v6 parsed).char

theorem Groups.begins {chars : List Char} {groups : List UInt16} {v4 : Bool}
    (spelled : Groups false chars groups v4) :
    chars = [] ∧ groups = [] ∨ ∃ more, chars = ':' :: more := by
  cases spelled with
  | none => exact .inl ⟨rfl, rfl⟩
  | quad dotted => exact .inr ⟨_, rfl⟩
  | group numeral small rest => exact .inr ⟨_, rfl⟩

/-- The text begins with a colon, and the first group is zero, or with the digits of the first
group and a colon. -/
theorem V6Text.first_group {chars : List Char} {addr : V6} (spelled : V6Text chars addr) :
    (∃ more, chars = ':' :: more ∧ addr.segment 0 = 0) ∨
      ∃ digits more value, chars = digits ++ ':' :: more ∧ Numeral 16 4 digits value ∧
        value < 65536 ∧ addr.segment 0 = UInt16.ofNat value := by
  obtain ⟨segments, size⟩ := addr
  cases spelled with
  | full groups =>
    cases groups with
    | none => cases size
    | quad dotted => cases size
    | @group _ _ digits more value _ numeral small rest =>
      rcases rest.begins with ⟨-, rfl⟩ | ⟨later, rfl⟩
      · cases size
      · exact .inr ⟨digits, later, value, rfl, numeral, small, rfl⟩
  | @elided head tail front back _ v4 groups later few whole =>
    cases whole
    cases groups with
    | none =>
      refine .inl ⟨_, rfl, ?_⟩
      obtain ⟨zeros, more⟩ : ∃ zeros, 8 - back.length = zeros + 1 :=
        ⟨7 - back.length, by simp only [List.length_nil] at few; omega⟩
      simp [V6.segment, more, List.replicate_succ]
    | @group _ _ digits more value _ numeral small rest =>
      rcases rest.begins with ⟨rfl, rfl⟩ | ⟨others, rfl⟩
      · refine .inr ⟨digits, ':' :: tail, value, ?_, numeral, small, rfl⟩
        simp [mark]
      · refine .inr ⟨digits, others ++ ':' :: ':' :: tail, value, ?_, numeral, small, rfl⟩
        simp [mark]

theorem V6Text.colon {chars : List Char} {addr : V6} (spelled : V6Text chars addr) : ':' ∈ chars := by
  rcases spelled.first_group with ⟨more, rfl, -⟩ | ⟨digits, more, value, rfl, -⟩
  · exact List.mem_cons_self
  · exact List.mem_append_right _ List.mem_cons_self

def V6.tail (addr : V6) : V4 :=
  ⟨[UInt8.ofNat ((addr.segment 6).toNat / 256), UInt8.ofNat (addr.segment 6).toNat,
    UInt8.ofNat ((addr.segment 7).toNat / 256), UInt8.ofNat (addr.segment 7).toNat], rfl⟩

theorem toIpv4Mapped_tail {addr : V6} {v4 : V4} (mapped : addr.toIpv4Mapped = some v4) :
    v4 = addr.tail := by
  obtain ⟨segments, size⟩ := addr
  unfold V6.toIpv4Mapped at mapped
  split at mapped
  · rename_i high low same
    cases mapped
    cases same
    rfl
  · cases mapped

theorem V4.high_low (addr : V4) : ([UInt8.ofNat (addr.high.toNat / 256), UInt8.ofNat addr.high.toNat,
    UInt8.ofNat (addr.low.toNat / 256), UInt8.ofNat addr.low.toNat] : List UInt8) = addr.1 := by
  obtain ⟨octets, size⟩ := addr
  match octets, size with
  | [a, b, c, d], _ =>
    have := a.toNat_lt
    have := b.toNat_lt
    have := c.toNat_lt
    have := d.toNat_lt
    simp only [V4.high, V4.low, V4.octet, List.getD_cons_zero, List.getD_cons_succ,
      UInt16.toNat_ofNat', List.cons.injEq, and_true, ← UInt8.toNat_inj, UInt8.toNat_ofNat']
    omega

theorem tail_quad {addr : V6} {segments : List UInt16} {quad : V4}
    (same : addr.1 = segments ++ [quad.high, quad.low]) : addr.tail = quad := by
  have size := addr.2
  rw [same, List.length_append, List.length_cons, List.length_singleton] at size
  have sixth : addr.segment 6 = quad.high := by
    rw [V6.segment, same, List.getD_append_right _ _ _ _ (by omega)]
    simp [show 6 - segments.length = 0 by omega]
  have seventh : addr.segment 7 = quad.low := by
    rw [V6.segment, same, List.getD_append_right _ _ _ _ (by omega)]
    simp [show 7 - segments.length = 1 by omega]
  apply Subtype.ext
  rw [V6.tail, sixth, seventh]
  exact quad.high_low

/-- Groups that end in dots are some text, its colon and a dotted address, which is their tail. -/
theorem Groups.quad_last {first : Bool} {chars : List Char} {groups : List UInt16}
    (spelled : Groups first chars groups true) :
    ∃ front dotted addr segments, chars = front ++ dotted ∧ Dotted dotted addr ∧
      groups = segments ++ [addr.high, addr.low] ∧
      (front = mark ':' first ∧ segments = [] ∨ ∃ before, front = before ++ [':']) := by
  generalize flag : true = v4 at spelled
  induction spelled with
  | none first => cases flag
  | @quad first chars addr dotted => exact ⟨_, chars, addr, [], rfl, dotted, rfl, .inl ⟨rfl, rfl⟩⟩
  | @group first v4 digits more value groups numeral small rest ih =>
    obtain ⟨front, dotted, addr, segments, rfl, spelled, rfl, ends⟩ := ih flag
    refine ⟨mark ':' first ++ (digits ++ front), dotted, addr, _ :: segments, by simp, spelled, rfl,
      .inr ?_⟩
    rcases ends with ⟨rfl, -⟩ | ⟨before, rfl⟩
    · exact ⟨mark ':' first ++ digits, by simp [mark]⟩
    · exact ⟨mark ':' first ++ (digits ++ before), by simp⟩

/-- A text with dots has the tail of the address dotted after its last colon. -/
theorem V6Text.dotted_tail {chars : List Char} {addr : V6} (spelled : V6Text chars addr) :
    '.' ∉ chars ∨ ∃ front dotted, chars = front ++ ':' :: dotted ∧ Dotted dotted addr.tail := by
  cases spelled with
  | @full _ _ v4 groups =>
    cases v4 with
    | false => exact .inl fun member => (groups.char _ member).2 rfl rfl
    | true =>
      obtain ⟨front, dotted, quad, others, rfl, spelled, same, ends⟩ := groups.quad_last
      have size := addr.2
      rcases ends with ⟨-, rfl⟩ | ⟨before, rfl⟩
      · rw [same] at size
        cases size
      · exact .inr ⟨before, dotted, by simp, (tail_quad same).symm ▸ spelled⟩
  | @elided head tail front back _ v4 groups later few whole =>
    cases v4 with
    | false =>
      refine .inl fun member => ?_
      simp only [List.mem_append, List.mem_cons] at member
      rcases member with inside | marked | marked | inside
      · exact (groups.char _ inside).2 rfl rfl
      · cases marked
      · cases marked
      · exact (later.char _ inside).2 rfl rfl
    | true =>
      obtain ⟨start, dotted, quad, others, rfl, spelled, rfl, ends⟩ := later.quad_last
      rw [tail_quad (whole.trans (List.append_assoc ..).symm)]
      rcases ends with ⟨rfl, -⟩ | ⟨before, rfl⟩
      · exact .inr ⟨head ++ [':'], dotted, by simp [mark], spelled⟩
      · exact .inr ⟨head ++ ':' :: ':' :: before, dotted, by simp, spelled⟩

theorem digitValue_hex {c : Char} {value : Nat} (digit : digitValue 16 c = some value) :
    value < 16 ∧ c.toLower = Nat.digitChar value := by
  have same : Char.ofNat c.toNat = c := c.ofNat_toNat
  unfold digitValue at digit
  dsimp only at digit
  split_ifs at digit with number small lower small upper small <;> cases digit
  · have first : 48 ≤ c.toNat := number.1
    have last : c.toNat ≤ 57 := number.2
    generalize c.toNat = n at *
    subst same
    interval_cases n <;> decide
  · have first : 97 ≤ c.toNat := lower.1
    have last : c.toNat ≤ 102 := lower.2
    generalize c.toNat = n at *
    subst same
    interval_cases n <;> decide
  · have first : 65 ≤ c.toNat := upper.1
    have last : c.toNat ≤ 70 := upper.2
    generalize c.toNat = n at *
    subst same
    interval_cases n <;> decide
  · omega

theorem digitValue_decimal {c : Char} {value : Nat} (digit : digitValue 10 c = some value) :
    c.isDigit = true ∧ value = c.toNat - 48 := by
  unfold digitValue at digit
  dsimp only at digit
  split_ifs at digit with number small lower small upper small <;> cases digit
  · refine ⟨?_, rfl⟩
    simp [Char.isDigit]
    exact number
  · have first : 97 ≤ c.toNat := lower.1
    omega
  · have first : 65 ≤ c.toNat := upper.1
    omega
  · omega

/-- The values of hexadecimal digits, which their lower-case forms spell. -/
theorem Numeral.hex_values {maxDigits value : Nat} {digits : List Char}
    (numeral : Numeral 16 maxDigits digits value) :
    ∃ values : List Nat, digits.map Char.toLower = values.map Nat.digitChar ∧ (∀ v ∈ values, v < 16) ∧
      0 < values.length ∧ values.length ≤ maxDigits ∧
      value = values.foldl (fun n d => n * 16 + d) 0 := by
  obtain ⟨nonempty, short, digit, rfl⟩ := numeral
  have spelled : ∀ {chars : List Char}, (∀ c ∈ chars, (digitValue 16 c).isSome) →
      chars.map Char.toLower = (chars.filterMap (digitValue 16)).map Nat.digitChar ∧
        ∀ v ∈ chars.filterMap (digitValue 16), v < 16 := by
    intro chars all
    induction chars with
    | nil => exact ⟨rfl, nofun⟩
    | cons c rest ih =>
      obtain ⟨first, others⟩ := List.forall_mem_cons.mp all
      obtain ⟨v, value⟩ := Option.isSome_iff_exists.mp first
      obtain ⟨same, small⟩ := ih others
      obtain ⟨bound, lower⟩ := digitValue_hex value
      rw [List.filterMap_cons_some value]
      refine ⟨?_, List.forall_mem_cons.mpr ⟨bound, small⟩⟩
      rw [List.map_cons, List.map_cons, lower, same]
  obtain ⟨same, small⟩ := spelled digit
  have length : (digits.filterMap (digitValue 16)).length = digits.length := by
    simpa using (congrArg List.length same).symm
  refine ⟨_, same, small, ?_, length.trans_le short, rfl⟩
  rw [length]
  exact List.length_pos_iff.mpr nonempty

theorem Numeral.decimal {maxDigits value : Nat} {digits : List Char}
    (numeral : Numeral 10 maxDigits digits value) :
    digits.all Char.isDigit ∧ value = Nat.ofDigitChars 10 digits 0 := by
  obtain ⟨nonempty, short, digit, rfl⟩ := numeral
  clear nonempty short
  unfold digitsValue
  generalize 0 = start
  induction digits generalizing start with
  | nil => exact ⟨rfl, rfl⟩
  | cons c rest ih =>
    obtain ⟨first, others⟩ := List.forall_mem_cons.mp digit
    obtain ⟨v, value⟩ := Option.isSome_iff_exists.mp first
    obtain ⟨decimal, rfl⟩ := digitValue_decimal value
    obtain ⟨all, same⟩ := ih others (start * 10 + (c.toNat - 48))
    refine ⟨?_, ?_⟩
    · rw [List.all_cons, decimal, all, Bool.and_self]
    · rw [List.filterMap_cons_some value, List.foldl_cons, same, Nat.ofDigitChars_cons, Nat.mul_comm]
      rfl

theorem digitChar_injective : ∀ v < 16, ∀ w < 16, Nat.digitChar v = Nat.digitChar w → v = w := by
  decide

theorem digitChar_ne_colon : ∀ v < 16, Nat.digitChar v ≠ ':' := by decide

theorem digits_prefix {start values : List Nat} {more : List Char} (starts : ∀ v ∈ start, v < 16)
    (digits : ∀ v ∈ values, v < 16) :
    start.map Nat.digitChar <+: values.map Nat.digitChar ++ ':' :: more ↔ start <+: values := by
  induction start generalizing values with
  | nil => simp
  | cons s start ih =>
    obtain ⟨first, others⟩ := List.forall_mem_cons.mp starts
    cases values with
    | nil => simp [digitChar_ne_colon s first]
    | cons v values =>
      obtain ⟨small, later⟩ := List.forall_mem_cons.mp digits
      simp only [List.map_cons, List.cons_append, List.cons_prefix_cons, ih others later]
      constructor
      · rintro ⟨same, rest⟩
        exact ⟨digitChar_injective s first v small same, rest⟩
      · rintro ⟨rfl, rest⟩
        exact ⟨rfl, rest⟩

/-- The first two digits of a unique local address, in either case. -/
def UniqueLocalDigits (chars : List Char) : Prop :=
  ['f', 'c'] <+: chars.map Char.toLower ∨ ['f', 'd'] <+: chars.map Char.toLower

section FirstGroup
variable {digits more : List Char} {value : Nat} (numeral : Numeral 16 4 digits value)
include numeral

theorem Numeral.prefix_iff (more : List Char) :
    ∃ values : List Nat, (∀ v ∈ values, v < 16) ∧ 0 < values.length ∧ values.length ≤ 4 ∧
      value = values.foldl (fun n d => n * 16 + d) 0 ∧ ∀ start : List Nat, (∀ v ∈ start, v < 16) →
        (start.map Nat.digitChar <+: (digits ++ ':' :: more).map Char.toLower ↔ start <+: values) := by
  obtain ⟨values, lower, small, some_, few, same⟩ := numeral.hex_values
  refine ⟨values, small, some_, few, same, fun start starts => ?_⟩
  rw [List.map_append, List.map_cons, lower]
  exact digits_prefix starts small

theorem Numeral.fe80 :
    ['f', 'e', '8', '0'] <+: (digits ++ ':' :: more).map Char.toLower ↔ value = 0xFE80 := by
  obtain ⟨values, small, some_, few, rfl, begins⟩ := numeral.prefix_iff more
  apply (begins [15, 14, 8, 0] (by decide)).trans
  match values, some_, few with
  | [a], _, _ | [a, b], _, _ | [a, b, c], _, _ | [a, b, c, d], _, _ =>
    simp at small ⊢
    omega

theorem Numeral.of_uniqueLocalDigits (unique : UniqueLocalDigits (digits ++ ':' :: more)) :
    value / 2 = 0xFC / 2 ∨ value / 32 = 0xFC0 / 32 ∨ value / 512 = 0xFC00 / 512 := by
  obtain ⟨values, small, some_, few, rfl, begins⟩ := numeral.prefix_iff more
  replace unique := unique.imp (begins [15, 12] (by decide)).mp (begins [15, 13] (by decide)).mp
  match values, some_, few with
  | [a], _, _ | [a, b], _, _ | [a, b, c], _, _ | [a, b, c, d], _, _ =>
    simp at small unique ⊢ <;> omega

theorem Numeral.uniqueLocalDigits (range : value / 512 = 0xFC00 / 512) :
    UniqueLocalDigits (digits ++ ':' :: more) := by
  obtain ⟨values, small, some_, few, rfl, begins⟩ := numeral.prefix_iff more
  apply Or.imp (begins [15, 12] (by decide)).mpr (begins [15, 13] (by decide)).mpr
  match values, some_, few with
  | [a], _, _ | [a, b], _, _ | [a, b, c], _, _ | [a, b, c, d], _, _ =>
    simp at small range ⊢
    omega

end FirstGroup

theorem land_upper {n low high : Nat} (small : n < 2 ^ (low + high)) :
    n &&& (2 ^ high - 1) <<< low = n / 2 ^ low * 2 ^ low := by
  rw [← Nat.shiftRight_eq_div_pow, ← Nat.shiftLeft_eq]
  apply Nat.eq_of_testBit_eq
  intro bit
  simp only [Nat.testBit_and, Nat.testBit_shiftLeft, Nat.testBit_shiftRight, Nat.testBit_two_pow_sub_one]
  by_cases upper : low ≤ bit
  · by_cases within : bit - low < high
    · simp [upper, within]
    · have out : n.testBit bit = false := by
        apply Nat.testBit_lt_two_pow
        exact small.trans_le (Nat.pow_le_pow_right (by decide) (by omega))
      simp [upper, within, out]
  · simp [upper]

/-- A segment is in the range of a prefix exactly if its upper bits are the prefix's. -/
theorem land_mask {segment mask start : UInt16} (low high : Nat) (width : low + high = 16)
    (upper : mask.toNat = (2 ^ high - 1) <<< low) (aligned : 2 ^ low ∣ start.toNat) :
    segment &&& mask = start ↔ segment.toNat / 2 ^ low = start.toNat / 2 ^ low := by
  have small : segment.toNat < 2 ^ (low + high) := width ▸ segment.toNat_lt
  rw [← UInt16.toNat_inj, UInt16.toNat_and, upper, land_upper small]
  constructor
  · intro same
    rw [← same, Nat.mul_div_cancel _ (Nat.two_pow_pos low)]
  · intro same
    rw [same, Nat.div_mul_cancel aligned]

section Segment
variable (addr : V6)

theorem V6.isUniqueLocal_iff :
    addr.isUniqueLocal = true ↔ (addr.segment 0).toNat / 512 = 0xFC00 / 512 :=
  beq_iff_eq.trans (land_mask 9 7 rfl rfl (by decide))

theorem V6.isUnicastLinkLocal_iff :
    addr.isUnicastLinkLocal = true ↔ (addr.segment 0).toNat / 64 = 0xFE80 / 64 :=
  beq_iff_eq.trans (land_mask 6 10 rfl rfl (by decide))

theorem V6.isMulticast_iff :
    addr.isMulticast = true ↔ (addr.segment 0).toNat / 256 = 0xFF00 / 256 :=
  beq_iff_eq.trans (land_mask 8 8 rfl rfl (by decide))

end Segment

section V6Text
variable {chars : List Char} {addr : V6} (spelled : V6Text chars addr)
include spelled

theorem V6Text.fe80 :
    ['f', 'e', '8', '0'] <+: chars.map Char.toLower ↔ (addr.segment 0).toNat = 0xFE80 := by
  rcases spelled.first_group with ⟨more, rfl, zero⟩ | ⟨digits, more, value, rfl, numeral, small, same⟩
  · rw [zero, List.map_cons, List.cons_prefix_cons]
    exact iff_of_false (fun begins => absurd begins.1 (by decide)) (by decide)
  · rw [numeral.fe80, same, UInt16.toNat_ofNat', Nat.mod_eq_of_lt small]

theorem V6Text.uniqueLocalDigits (range : addr.isUniqueLocal = true) : UniqueLocalDigits chars := by
  rw [V6.isUniqueLocal_iff] at range
  rcases spelled.first_group with ⟨more, rfl, zero⟩ | ⟨digits, more, value, rfl, numeral, small, same⟩
  · rw [zero] at range
    cases range
  · rw [same, UInt16.toNat_ofNat', Nat.mod_eq_of_lt small] at range
    exact numeral.uniqueLocalDigits range

theorem V6Text.of_uniqueLocalDigits (unique : UniqueLocalDigits chars) :
    let value := (addr.segment 0).toNat
    value / 2 = 0xFC / 2 ∨ value / 32 = 0xFC0 / 32 ∨ value / 512 = 0xFC00 / 512 := by
  rcases spelled.first_group with ⟨more, rfl, zero⟩ | ⟨digits, more, value, rfl, numeral, small, same⟩
  · rcases unique with begins | begins
    · cases (List.cons_prefix_cons.mp begins).1
    · cases (List.cons_prefix_cons.mp begins).1
  · have bounds := numeral.of_uniqueLocalDigits unique
    rw [same, UInt16.toNat_ofNat', Nat.mod_eq_of_lt small]
    exact bounds

end V6Text

end Ip
