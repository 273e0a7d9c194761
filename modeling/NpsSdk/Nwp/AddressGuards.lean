import NpsSdk.Lib.Casing
import NpsSdk.Lib.IpText
import NpsSdk.Nop.Validation
import NpsSdk.Nwp.ActionServer

/-! The three guards that keep requests away from private addresses, and where they differ. -/
namespace Nps

/-- `portable_profile::is_public_ip`. -/
def Nop.isPublicIp : Ip.Addr → Bool
  | .v4 value =>
    !value.isPrivate && !value.isLoopback && !value.isLinkLocal && !value.isMulticast &&
      !value.isUnspecified && !value.isBroadcast
  | .v6 value =>
    !value.isLoopback && !value.isUnicastLinkLocal && !value.isUniqueLocal && !value.isMulticast &&
      !value.isUnspecified

namespace Nwp.ActionServer
open Ip (V4 V6 Addr Dotted V6Text Numeral UniqueLocalDigits)

theorem parseU8_numeral {digits : List Char} {value : Nat} (numeral : Numeral 10 3 digits value)
    (small : value < 256) : parseU8 (String.ofList digits) = some value := by
  obtain ⟨all, same⟩ := numeral.decimal
  have some_ : String.ofList digits ≠ "" := by
    simpa using numeral.nonempty
  have unsigned : (String.ofList digits).toList.head? ≠ some '-' := by
    rw [String.toList_ofList]
    intro signed
    exact numeral.no_mark (by decide) (List.mem_of_mem_head? signed)
  rw [parseU8, if_neg unsigned, Text.parseInt?_digits some_ (by rwa [String.toList_ofList]),
    String.toList_ofList, ← same, Option.map_some, Int.toNat_natCast]
  exact Option.filter_some_pos (by simpa using Nat.le_of_lt_succ small)

theorem parseIpv4_dotted {chars : List Char} {addr : V4} (dotted : Dotted chars addr) :
    parseIpv4 (String.ofList chars) =
      some [addr.octet 0, addr.octet 1, addr.octet 2, addr.octet 3] := by
  obtain ⟨a, b, c, d, rfl, first, second, third, fourth⟩ := dotted
  have parts : Text.splitChars '.' (a ++ '.' :: (b ++ '.' :: (c ++ '.' :: d))) = [a, b, c, d] := by
    rw [Text.splitChars_append, Text.splitChars_append, Text.splitChars_append,
      Text.splitChars_plain (first.no_mark (by decide)),
      Text.splitChars_plain (second.no_mark (by decide)),
      Text.splitChars_plain (third.no_mark (by decide)),
      Text.splitChars_plain (fourth.no_mark (by decide))]
    rfl
  have octet (i : Nat) : addr.octet i < 256 := UInt8.toNat_lt _
  rw [parseIpv4, Text.split, String.toList_ofList, parts]
  simp [parseU8_numeral first (octet 0), parseU8_numeral second (octet 1),
    parseU8_numeral third (octet 2), parseU8_numeral fourth (octet 3)]

theorem parseU8_char {text : String} {n : Nat} (read : parseU8 text = some n) :
    ∀ c ∈ text.toList, c.isDigit = true ∨ c = '-' ∨ c = '+' := by
  unfold parseU8 at read
  split_ifs at read
  obtain ⟨value, parsed, -⟩ := Option.map_eq_some_iff.mp (Option.eq_some_of_filter_eq_some read)
  exact Text.parseInt?_char parsed

theorem mapM_parseU8 {parts : List String} {octets : List Nat} (read : parts.mapM parseU8 = some octets)
    {part : String} (member : part ∈ parts) : ∃ n, parseU8 part = some n := by
  induction parts generalizing octets with
  | nil => cases member
  | cons first rest ih =>
    rw [List.mapM_cons] at read
    obtain ⟨n, octet, read⟩ := Option.bind_eq_some_iff.mp read
    obtain ⟨others, later, -⟩ := Option.bind_eq_some_iff.mp read
    rcases List.mem_cons.mp member with rfl | inside
    · exact ⟨n, octet⟩
    · exact ih later inside

theorem parseIpv4_colon {text : String} (colon : ':' ∈ text.toList) : parseIpv4 text = none := by
  have dot : ':' ≠ '.' := by decide
  obtain ⟨part, found, within⟩ := Text.mem_splitChars colon dot
  unfold parseIpv4
  dsimp only
  split_ifs
  · by_contra read
    obtain ⟨octets, read⟩ := Option.ne_none_iff_exists'.mp read
    obtain ⟨n, octet⟩ := mapM_parseU8 read (List.mem_map_of_mem found)
    rcases parseU8_char octet ':' (by rwa [String.toList_ofList]) with digit | same | same
    · cases digit
    · cases same
    · cases same
  · rfl

theorem parseIpv4_plain {text : String} (plain : '.' ∉ text.toList) : parseIpv4 text = none := by
  rw [parseIpv4, Text.split, Text.splitChars_plain plain]
  rfl

/-- The ranges of version 4 that both host guards know. -/
def Inner (addr : V4) : Prop :=
  addr.isPrivate ∨ addr.isLoopback ∨ addr.isLinkLocal ∨ addr.octet 0 = 0

theorem isPrivateIpv4_iff {addr : V4} : Nop.isPrivateIpv4 addr = true ↔ Inner addr := by
  simp only [Nop.isPrivateIpv4, Inner, V4.isPrivate, V4.isLoopback, V4.isLinkLocal, Bool.or_eq_true,
    Bool.and_eq_true, decide_eq_true_eq]
  tauto

theorem isPrivateOctets_iff {addr : V4} :
    isPrivateOctets [addr.octet 0, addr.octet 1, addr.octet 2, addr.octet 3] = true ↔ Inner addr := by
  rw [← isPrivateIpv4_iff]
  rfl

def DottedInner (text : String) (addr : V6) : Prop := '.' ∈ text.toList ∧ Inner addr.tail

theorem lower_digits {chars : List Char} {addr : V4} (dotted : Dotted chars addr) :
    chars.map Char.toLower = chars := by
  refine (List.map_congr_left fun c member => ?_).trans (List.map_id _)
  rcases dotted.char c member with digit | rfl
  · obtain ⟨value, digit⟩ := Option.isSome_iff_exists.mp digit
    obtain ⟨decimal, -⟩ := Ip.digitValue_decimal digit
    exact Text.toLower_digit decimal
  · rfl

def lastPart (chars : List Char) : List Char := (chars.reverse.takeWhile (· ≠ ':')).reverse

section V6Text
variable {text : String} {addr : V6} (spelled : V6Text text.toList addr)
include spelled

theorem lastPart_iff :
    (parseIpv4 (String.ofList (lastPart (text.toList.map Char.toLower)))).any isPrivateOctets = true ↔
      DottedInner text addr := by
  rcases spelled.dotted_tail with plain | ⟨front, dotted, same, quad⟩
  · have none : parseIpv4 (String.ofList (lastPart (text.toList.map Char.toLower))) = none := by
      apply parseIpv4_plain
      rw [String.toList_ofList]
      intro member
      have inside := (List.takeWhile_sublist _).subset (List.mem_reverse.mp member)
      obtain ⟨c, found, lower⟩ := List.mem_map.mp (List.mem_reverse.mp inside)
      exact plain (Text.toLower_eq lower (by decide) ▸ found)
    rw [none]
    exact iff_of_false Bool.false_ne_true fun inner => plain inner.1
  · have colon : ':' ∉ dotted := by
      intro member
      rcases quad.char ':' member with digit | marked
      · cases digit
      · cases marked
    have dot : '.' ∈ text.toList := by
      obtain ⟨a, b, c, d, rfl, -⟩ := quad
      simp [same]
    rw [same, List.map_append, List.map_cons, lower_digits quad,
      show Char.toLower ':' = ':' from rfl, lastPart, Text.afterLast_append colon, parseIpv4_dotted quad]
    exact isPrivateOctets_iff.trans (and_iff_right dot).symm

theorem isPrivateIpv6_iff : isPrivateIpv6 text = true ↔
    text = "::1" ∨ (addr.segment 0).toNat = 0xFE80 ∨ UniqueLocalDigits text.toList ∨
      DottedInner text addr := by
  have lower : (Text.lowerAscii text).toList = text.toList.map Char.toLower := String.toList_ofList
  have loopback : Text.lowerAscii text = "::1" ↔ text = "::1" := by
    rw [← String.toList_inj, ← String.toList_inj, lower]
    have fixed : ∀ c ∈ [':', ':', '1'], c.isLower = false ∧ c.toLower = c := by simp
    exact Text.map_toLower_eq fixed
  have linkLocal : Text.startsWith "fe80" (Text.lowerAscii text) = true ↔
      (addr.segment 0).toNat = 0xFE80 := by
    rw [Text.startsWith, lower, List.isPrefixOf_iff_prefix]
    exact spelled.fe80
  have uniqueLocal : Text.startsWith "fc" (Text.lowerAscii text) = true ∨
      Text.startsWith "fd" (Text.lowerAscii text) = true ↔ UniqueLocalDigits text.toList := by
    rw [Text.startsWith, Text.startsWith, lower, List.isPrefixOf_iff_prefix,
      List.isPrefixOf_iff_prefix]
    rfl
  have last := lastPart_iff spelled
  rw [← lower, lastPart] at last
  unfold isPrivateIpv6
  dsimp only
  by_cases begins : text = "::1" ∨ (addr.segment 0).toNat = 0xFE80 ∨ UniqueLocalDigits text.toList
  · rw [if_pos (by rwa [loopback, linkLocal, uniqueLocal])]
    refine iff_of_true rfl ?_
    exact begins.imp_right fun more => more.imp_right .inl
  · rw [if_neg (by rwa [loopback, linkLocal, uniqueLocal])]
    obtain ⟨other, routed, plain⟩ : ¬ _ ∧ ¬ _ ∧ ¬ _ := by
      simpa only [not_or] using begins
    rw [or_iff_right other, or_iff_right routed, or_iff_right plain]
    split
    · rename_i octets read
      rw [read] at last
      exact last
    · rename_i read
      rw [read] at last
      exact last

end V6Text

/-- A host that is an address, with its text: brackets may be around one of version 6. -/
inductive AddressHost : (host text : String) → Addr → Prop where
  | plain {text : String} {addr : Addr} : Ip.parse text = some addr → AddressHost text text addr
  | bracketed {text : String} {addr : V6} :
      Ip.parse text = some (.v6 addr) → AddressHost ("[" ++ text ++ "]") text (.v6 addr)

theorem AddressHost.parsed {host text : String} {addr : Addr} (spelled : AddressHost host text addr) :
    Ip.parse text = some addr := by
  cases spelled with
  | plain parsed => exact parsed
  | bracketed parsed => exact parsed

theorem dropWhile_none {p : Char → Bool} {chars : List Char} (none : ∀ c ∈ chars, p c = false) :
    chars.dropWhile p = chars := by
  cases chars with
  | nil => rfl
  | cons c rest => simp [none c List.mem_cons_self]

theorem parse_marks {text : String} {addr : Addr} (parsed : Ip.parse text = some addr) :
    (∃ c ∈ text.toList, c = ':' ∨ c = '.') ∧ ∀ c ∈ text.toList, c ≠ '[' ∧ c ≠ ']' := by
  constructor
  · cases addr with
    | v4 addr =>
      obtain ⟨a, b, c, d, same, -⟩ := Ip.parse_v4 parsed
      exact ⟨'.', by simp [same], .inr rfl⟩
    | v6 addr => exact ⟨':', (Ip.parse_v6 parsed).colon, .inl rfl⟩
  · intro c member
    constructor
    · rintro rfl
      exact absurd (Ip.parse_char parsed _ member) (by simp [Ip.addressChar, Ip.digitValue])
    · rintro rfl
      exact absurd (Ip.parse_char parsed _ member) (by simp [Ip.addressChar, Ip.digitValue])

section Host
variable {host text : String} {addr : Addr} (spelled : AddressHost host text addr)
include spelled

theorem AddressHost.stripped :
    Text.trimEnd (· == ']') (Text.trimStart (· == '[') host) = text := by
  obtain ⟨⟨mark, inside, -⟩, bracket⟩ := parse_marks spelled.parsed
  have start : text.toList.dropWhile (· == '[') = text.toList :=
    dropWhile_none fun c member => by simpa using (bracket c member).1
  have last : text.toList.reverse.dropWhile (· == ']') = text.toList.reverse :=
    dropWhile_none fun c member => by simpa using (bracket c (List.mem_reverse.mp member)).2
  rw [← String.toList_inj, Text.trimEnd, Text.trimStart, String.toList_ofList, String.toList_ofList]
  cases spelled with
  | plain parsed => rw [start, last, List.reverse_reverse]
  | bracketed parsed =>
    rw [String.toList_append, String.toList_append]
    change ((('[' :: (text.toList ++ [']'])).dropWhile (· == '[')).reverse.dropWhile
      (· == ']')).reverse = text.toList
    have first : (text.toList ++ [']']).dropWhile (· == '[') = text.toList ++ [']'] := by
      apply dropWhile_none
      intro c member
      rcases List.mem_append.mp member with inside | outside
      · simpa using (bracket c inside).1
      · rw [List.mem_singleton.mp outside]
        rfl
    rw [List.dropWhile_cons_of_pos (by decide), first, List.reverse_append, List.reverse_singleton,
      List.singleton_append, List.dropWhile_cons_of_pos (by decide), last, List.reverse_reverse]

theorem AddressHost.not_name : ¬ (host = "" ∨ Text.lowerAscii host = "localhost") := by
  obtain ⟨⟨mark, inside, colon_or_dot⟩, -⟩ := parse_marks spelled.parsed
  have within : mark ∈ host.toList := by
    cases spelled with
    | plain parsed => exact inside
    | bracketed parsed => simp [inside]
  rintro (rfl | name)
  · cases within
  · have lower : mark.toLower ∈ (Text.lowerAscii host).toList := by
      rw [Text.lowerAscii, String.toList_ofList]
      exact List.mem_map_of_mem within
    rw [name] at lower
    rcases colon_or_dot with rfl | rfl
    · exact absurd lower (by decide)
    · exact absurd lower (by decide)

theorem AddressHost.judged_by_address : Nop.isPrivateHost host = Nop.isPrivateIp addr := by
  unfold Nop.isPrivateHost
  dsimp only
  rw [if_neg spelled.not_name, spelled.stripped, spelled.parsed]

theorem AddressHost.judged_by_text : isPrivateHost host = match addr with
    | .v4 v4 => Nop.isPrivateIpv4 v4
    | .v6 _ => isPrivateIpv6 text := by
  unfold isPrivateHost
  dsimp only
  rw [if_neg spelled.not_name, spelled.stripped]
  cases addr with
  | v4 v4 =>
    have octets := parseIpv4_dotted (Ip.parse_v4 spelled.parsed)
    rw [String.ofList_toList] at octets
    rw [octets]
    rfl
  | v6 v6 =>
    have colon := (Ip.parse_v6 spelled.parsed).colon
    rw [parseIpv4_colon colon]
    exact if_pos colon

end Host

/-- Whether each guard takes the address for a private one. -/
def verdicts (host : String) (addr : Addr) : List Bool :=
  [Nop.isPrivateHost host, isPrivateHost host, !Nop.isPublicIp addr]

/-- Loopback, link-local and unique local addresses of version 6. -/
def Secluded (addr : V6) : Prop := addr.isLoopback ∨ addr.isUnicastLinkLocal ∨ addr.isUniqueLocal

/-- Loopback, RFC 1918, link-local and unique local addresses, and those of version 4 in the form
of version 6. -/
def Sheltered : Addr → Prop
  | .v4 addr => addr.isLoopback ∨ addr.isPrivate
  | .v6 addr => Secluded addr ∨ ∃ v4, addr.toIpv4Mapped = some v4 ∧ Inner v4

/-- What one guard takes for private, all do, and sheltered addresses are. -/
def GuardsAgree (host : String) (addr : Addr) : Prop :=
  (true ∈ verdicts host addr ∨ Sheltered addr) → ∀ verdict ∈ verdicts host addr, verdict = true

/-- Where the guards agree. Only some know multicast, broadcast, site-local and unspecified
addresses and the rest of `0.0.0.0/8`, only the first one the mapped form, and the second one goes by
the spelling of version 6. -/
def Agreeable (text : String) : Addr → Prop
  | .v4 addr => (addr.octet 0 = 0 → addr.isUnspecified) ∧ ¬ addr.isMulticast ∧ ¬ addr.isBroadcast
  | .v6 addr =>
    match addr.toIpv4Mapped with
    | some v4 => ¬ Inner v4
    | none =>
      addr.segment 0 &&& 0xFFC0 ≠ 0xFEC0 ∧ ¬ addr.isMulticast ∧ ¬ addr.isUnspecified ∧
        (Secluded addr →
          text = "::1" ∨ addr.segment 0 = 0xFE80 ∨ addr.isUniqueLocal ∨ DottedInner text addr) ∧
        (UniqueLocalDigits text.toList ∨ DottedInner text addr → Secluded addr)

section Agreement
variable {host text : String}

theorem guardsAgree_iff {addr : Addr} : GuardsAgree host addr ↔
    (Nop.isPrivateHost host ∨ isPrivateHost host ∨ Nop.isPublicIp addr = false ∨ Sheltered addr →
      Nop.isPrivateHost host ∧ isPrivateHost host ∧ Nop.isPublicIp addr = false) := by
  simp only [GuardsAgree, verdicts, List.mem_cons, List.not_mem_nil, or_false, forall_eq_or_imp,
    forall_eq, Bool.not_true, or_assoc, eq_comm (a := true), Bool.not_eq_eq_eq_not]

theorem isPublicIp_v4 {addr : V4} : Nop.isPublicIp (.v4 addr) = false ↔
    addr.isPrivate ∨ addr.isLoopback ∨ addr.isLinkLocal ∨ addr.isMulticast ∨ addr.isUnspecified ∨
      addr.isBroadcast := by
  simp only [Nop.isPublicIp, Bool.and_eq_false_iff, Bool.not_eq_false', or_assoc]

theorem isPublicIp_v6 {addr : V6} : Nop.isPublicIp (.v6 addr) = false ↔
    Secluded addr ∨ addr.isMulticast ∨ addr.isUnspecified := by
  simp only [Nop.isPublicIp, Secluded, Bool.and_eq_false_iff, Bool.not_eq_false', or_assoc]

theorem agree_v4 {addr : V4} (spelled : AddressHost host text (.v4 addr)) :
    GuardsAgree host (.v4 addr) ↔ Agreeable text (.v4 addr) := by
  have first : Nop.isPrivateHost host = true ↔ Inner addr := by
    rw [spelled.judged_by_address]
    exact isPrivateIpv4_iff
  have second : isPrivateHost host = true ↔ Inner addr := by
    rw [spelled.judged_by_text]
    exact isPrivateIpv4_iff
  have unspecified : addr.isUnspecified = true → addr.octet 0 = 0 := by
    intro zero
    rw [V4.octet, eq_of_beq zero]
    rfl
  have broadcast : addr.isBroadcast = true → addr.octet 0 = 255 := by
    intro all
    rw [V4.octet, eq_of_beq all]
    rfl
  rw [guardsAgree_iff, first, second, isPublicIp_v4]
  simp only [Agreeable, Sheltered, Inner, V4.isPrivate, V4.isLoopback, V4.isLinkLocal,
    V4.isMulticast, Bool.or_eq_true, Bool.and_eq_true, decide_eq_true_eq]
  generalize addr.isUnspecified = zero at *
  generalize addr.isBroadcast = all at *
  generalize addr.octet 0 = a at *
  generalize addr.octet 1 = b at *
  grind

/-- Mapped addresses are in none of the ranges of version 6. -/
theorem mapped_ranges {addr : V6} {v4 : V4} (mapped : addr.toIpv4Mapped = some v4) :
    addr.segment 0 = 0 ∧ addr.isLoopback = false ∧ addr.isUnspecified = false := by
  obtain ⟨segments, size⟩ := addr
  unfold V6.toIpv4Mapped at mapped
  split at mapped
  · rename_i high low same
    cases same
    refine ⟨rfl, ?_, ?_⟩
    · simp [V6.isLoopback]
    · simp [V6.isUnspecified]
  · cases mapped

theorem isLoopback_first {addr : V6} (loopback : addr.isLoopback = true) :
    (addr.segment 0).toNat = 0 ∧ addr.isUnspecified = false := by
  have segments : addr.1 = [0, 0, 0, 0, 0, 0, 0, 1] := eq_of_beq loopback
  rw [V6.segment, V6.isUnspecified, segments]
  decide

theorem isUnspecified_first {addr : V6} (unspecified : addr.isUnspecified = true) :
    (addr.segment 0).toNat = 0 := by
  rw [V6.segment, eq_of_beq unspecified]
  rfl

section V6
variable {addr : V6} (spelled : AddressHost host text (.v6 addr))
include spelled

theorem judged_by_spelling : isPrivateHost host = true ↔
    text = "::1" ∨ (addr.segment 0).toNat = 0xFE80 ∨ UniqueLocalDigits text.toList ∨
      DottedInner text addr := by
  rw [spelled.judged_by_text]
  exact isPrivateIpv6_iff (Ip.parse_v6 spelled.parsed)

theorem isLoopback_text (same : text = "::1") : addr.isLoopback = true := by
  subst same
  cases spelled.parsed
  rfl

theorem agree_mapped {v4 : V4} (mapped : addr.toIpv4Mapped = some v4) :
    GuardsAgree host (.v6 addr) ↔ ¬ Inner v4 := by
  obtain ⟨first, loopback, unspecified⟩ := mapped_ranges mapped
  have zero : (addr.segment 0).toNat = 0 := congrArg UInt16.toNat first
  have digits : ¬ UniqueLocalDigits text.toList := by
    intro begins
    have range := (Ip.parse_v6 spelled.parsed).of_uniqueLocalDigits begins
    omega
  have guard : Nop.isPrivateHost host = true ↔ Inner v4 := by
    rw [spelled.judged_by_address, Nop.isPrivateIp, mapped]
    exact isPrivateIpv4_iff
  have textual : isPrivateHost host = true → Inner v4 := by
    rw [judged_by_spelling spelled]
    rintro (same | routed | begins | inner)
    · rw [isLoopback_text spelled same] at loopback
      cases loopback
    · omega
    · exact absurd begins digits
    · exact Ip.toIpv4Mapped_tail mapped ▸ inner.2
  have open_ : ¬ Secluded addr := by
    rw [Secluded, loopback, V6.isUnicastLinkLocal_iff, V6.isUniqueLocal_iff, zero]
    decide
  have multicast : ¬ addr.isMulticast = true := by
    rw [V6.isMulticast_iff, zero]
    decide
  rw [guardsAgree_iff, isPublicIp_v6, guard]
  simp only [Sheltered, mapped, Option.some.injEq, exists_eq_left', open_, unspecified, multicast,
    Bool.false_eq_true, false_or, or_false, and_false]
  constructor
  · exact fun never inner => never (.inl inner)
  · rintro outside (inner | judged | inner)
    · exact outside inner
    · exact outside (textual judged)
    · exact outside inner

theorem judged_unmapped (unmapped : addr.toIpv4Mapped = none) :
    Nop.isPrivateHost host = true ↔ Secluded addr ∨ addr.segment 0 &&& 0xFFC0 = 0xFEC0 := by
  rw [spelled.judged_by_address, Nop.isPrivateIp, unmapped]
  simp only [Nop.isPrivateIpv6, Secluded, V6.isUnicastLinkLocal, V6.isUniqueLocal, Bool.or_eq_true,
    beq_iff_eq]
  tauto

theorem agree_unmapped (unmapped : addr.toIpv4Mapped = none) :
    GuardsAgree host (.v6 addr) ↔ Agreeable text (.v6 addr) := by
  have secluded : Secluded addr → (addr.segment 0).toNat = 0 ∧ addr.isUnspecified = false ∨
      (addr.segment 0).toNat / 64 = 0xFE80 / 64 ∨ (addr.segment 0).toNat / 512 = 0xFC00 / 512 := by
    rw [Secluded, V6.isUnicastLinkLocal_iff, V6.isUniqueLocal_iff]
    exact Or.imp_left isLoopback_first
  have siteLocal : addr.segment 0 &&& 0xFFC0 = 0xFEC0 ↔
      (addr.segment 0).toNat / 64 = 0xFEC0 / 64 := Ip.land_mask 6 10 rfl rfl (by decide)
  -- the ranges that only one guard knows lie outside of those that the others know
  have site : addr.segment 0 &&& 0xFFC0 = 0xFEC0 → ¬ Secluded addr := by
    rw [siteLocal]
    intro range both
    have := secluded both
    omega
  have multicast : addr.isMulticast = true →
      ¬ Secluded addr ∧ addr.segment 0 &&& 0xFFC0 ≠ 0xFEC0 := by
    rw [V6.isMulticast_iff, Ne, siteLocal]
    intro range
    refine ⟨fun both => ?_, by omega⟩
    have := secluded both
    omega
  have unspecified : addr.isUnspecified = true →
      ¬ Secluded addr ∧ addr.segment 0 &&& 0xFFC0 ≠ 0xFEC0 := by
    intro zero
    have value := isUnspecified_first zero
    rw [Ne, siteLocal]
    refine ⟨fun both => ?_, by omega⟩
    rcases secluded both with ⟨-, other⟩ | range | range
    · rw [zero] at other
      cases other
    · omega
    · omega
  -- what the spelling says
  have one : text = "::1" → Secluded addr := fun same => .inl (isLoopback_text spelled same)
  have routed : (addr.segment 0).toNat = 0xFE80 → Secluded addr := by
    intro value
    refine .inr (.inl (addr.isUnicastLinkLocal_iff.mpr ?_))
    rw [value]
  have unique := (Ip.parse_v6 spelled.parsed).uniqueLocalDigits
  have begins : UniqueLocalDigits text.toList → Secluded addr → addr.isUniqueLocal = true := by
    intro digits both
    have range := (Ip.parse_v6 spelled.parsed).of_uniqueLocalDigits digits
    have := secluded both
    rw [V6.isUniqueLocal_iff]
    omega
  have same : addr.segment 0 = 0xFE80 ↔ (addr.segment 0).toNat = 0xFE80 := UInt16.toNat_inj.symm
  rw [guardsAgree_iff, isPublicIp_v6, judged_unmapped spelled unmapped, judged_by_spelling spelled]
  simp only [Agreeable, Sheltered, unmapped, reduceCtorEq, false_and, exists_false, or_false, same]
  constructor
  · intro agree
    have inside : addr.segment 0 &&& 0xFFC0 ≠ 0xFEC0 → Secluded addr ∨
        addr.segment 0 &&& 0xFFC0 = 0xFEC0 → Secluded addr := fun other => (Or.resolve_right · other)
    have noSite : addr.segment 0 &&& 0xFFC0 ≠ 0xFEC0 := by
      intro only
      rcases (agree (.inl (.inr only))).2.2 with both | range | range
      · exact site only both
      · exact (multicast range).2 only
      · exact (unspecified range).2 only
    refine ⟨noSite, fun range => ?_, fun range => ?_, fun both => ?_, fun spelling => ?_⟩
    · have known := (agree (.inr (.inr (.inl (.inr (.inl range)))))).1
      exact (multicast range).1 (inside noSite known)
    · have known := (agree (.inr (.inr (.inl (.inr (.inr range)))))).1
      exact (unspecified range).1 (inside noSite known)
    · rcases (agree (.inl (.inl both))).2.1 with same | value | digits | inner
      · exact .inl same
      · exact .inr (.inl value)
      · exact .inr (.inr (.inl (begins digits both)))
      · exact .inr (.inr (.inr inner))
    · exact inside noSite (agree (.inr (.inl (.inr (.inr spelling))))).1
  · rintro ⟨noSite, noMulticast, given, spelling, shown⟩ any
    have both : Secluded addr := by
      rcases any with (both | range) | (same | value | textual) | (both | range | range) | both
      · exact both
      · exact absurd range noSite
      · exact one same
      · exact routed value
      · exact shown textual
      · exact both
      · exact absurd range noMulticast
      · exact absurd range given
      · exact both
    refine ⟨.inl both, ?_, .inl both⟩
    rcases spelling both with same | value | local_ | inner
    · exact .inl same
    · exact .inr (.inl value)
    · exact .inr (.inr (.inl (unique local_)))
    · exact .inr (.inr (.inr inner))

theorem agree_v6 : GuardsAgree host (.v6 addr) ↔ Agreeable text (.v6 addr) := by
  cases mapped : addr.toIpv4Mapped with
  | some v4 =>
    rw [agree_mapped spelled mapped, Agreeable, mapped]
  | none => exact agree_unmapped spelled mapped

end V6

/-- The guards agree on an address exactly where it is outside of the ranges that only some of them
know, and its text shows what it is. -/
theorem guards_agree_iff {addr : Addr} (spelled : AddressHost host text addr) :
    GuardsAgree host addr ↔ Agreeable text addr := by
  cases addr with
  | v4 addr => exact agree_v4 spelled
  | v6 addr => exact agree_v6 spelled

end Agreement

namespace OtherLinkLocal

/-- A link-local address whose first group is not `fe80`. -/
def addr : V6 := ⟨[0xFE90, 0, 0, 0, 0, 0, 0, 1], rfl⟩

theorem spelled : AddressHost "fe90::1" "fe90::1" (.v6 addr) := .plain rfl

theorem guards_differ :
    ¬ ∀ (host text : String) (addr : Addr), AddressHost host text addr → GuardsAgree host addr := by
  intro agree
  have linkLocal : addr.isUnicastLinkLocal = true := rfl
  have all := agree _ _ _ spelled (.inr (.inl (.inr (.inl linkLocal))))
  exact absurd (all (isPrivateHost "fe90::1") (.tail _ (.head _))) (by decide +kernel)

end OtherLinkLocal

namespace UniqueLocal

def addr : V6 := ⟨[0xFD00, 0, 0, 0, 0, 0, 0, 1], rfl⟩

theorem guards_agree : GuardsAgree ("[" ++ "fd00::1" ++ "]") (.v6 addr) ↔
    Agreeable "fd00::1" (.v6 addr) :=
  guards_agree_iff (.bracketed rfl)

end UniqueLocal

end Nwp.ActionServer
end Nps
