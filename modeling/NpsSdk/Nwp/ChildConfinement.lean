import NpsSdk.Lib.Url
import NpsSdk.Nwp.AddressGuards
import NpsSdk.Nwp.ComplexNode

/-! Where the child URLs that an allowlist admits can lead. -/
namespace Nps.Nwp.ComplexNode
open ActionServer (ParsedUrl parseAbsoluteUrl isPrivateHost isPrivateIpv6 parseIpv4 parseU8 schemeChar
  hostOf)
open Url (Parts Location SameOrigin delimiter location)

section Casing
variable {text other : String}

theorem parseU8_case (text : String) : parseU8 (Text.lowerAscii text) = parseU8 text := by
  have sign : (Text.lowerAscii text).toList.head? = some '-' ↔ text.toList.head? = some '-' := by
    rw [Text.toList_lowerAscii, List.head?_map, Option.map_eq_some_iff]
    simp only [Text.toLower_mark '-' rfl rfl, exists_eq_right]
  unfold parseU8
  rw [Text.parseInt?_lowerAscii]
  simp only [sign]

theorem parseIpv4_case (text : String) : parseIpv4 (Text.lowerAscii text) = parseIpv4 text := by
  have parts : Text.split '.' (Text.lowerAscii text) =
      (Text.split '.' text).map Text.lowerAscii := by
    rw [Text.split, Text.toList_lowerAscii,
      Text.splitChars_lower fun c => Text.toLower_mark _ rfl rfl, Text.split]
    simp [Text.lowerAscii, Function.comp_def]
  unfold parseIpv4
  dsimp only
  rw [parts, List.length_map, List.mapM_map]
  simp only [Function.comp_def, parseU8_case]

theorem isPrivateIpv6_case (text : String) :
    isPrivateIpv6 (Text.lowerAscii text) = isPrivateIpv6 text := by
  unfold isPrivateIpv6
  rw [Text.lowerAscii_lowerAscii]

theorem isPrivateHost_case (host : String) :
    isPrivateHost (Text.lowerAscii host) = isPrivateHost host := by
  have stripped : Text.trimEnd (· == ']') (Text.trimStart (· == '[') (Text.lowerAscii host)) =
      Text.lowerAscii (Text.trimEnd (· == ']') (Text.trimStart (· == '[') host)) := by
    have close (c : Char) : (c.toLower == ']') = (c == ']') := by
      rw [Bool.eq_iff_iff, beq_iff_eq, beq_iff_eq, Text.toLower_mark _ rfl rfl]
    have opened (c : Char) : (c.toLower == '[') = (c == '[') := by
      rw [Bool.eq_iff_iff, beq_iff_eq, beq_iff_eq, Text.toLower_mark _ rfl rfl]
    rw [← String.toList_inj]
    simp only [Text.trimEnd, Text.trimStart, Text.toList_lowerAscii, String.toList_ofList]
    rw [Text.dropWhile_lower opened, ← List.map_reverse, Text.dropWhile_lower close,
      List.map_reverse]
  have colon (text : String) : ':' ∈ (Text.lowerAscii text).toList ↔ ':' ∈ text.toList := by
    rw [Text.toList_lowerAscii, List.mem_map]
    simp only [Text.toLower_mark ':' rfl rfl, exists_eq_right]
  have empty : Text.lowerAscii host = "" ↔ host = "" := by
    rw [← String.toList_inj, ← String.toList_inj, Text.toList_lowerAscii]
    exact List.map_eq_nil_iff
  unfold isPrivateHost
  dsimp only
  rw [stripped, parseIpv4_case, isPrivateIpv6_case, Text.lowerAscii_lowerAscii]
  simp only [colon, empty]

end Casing

def guardedHost (authority : List Char) : List Char := hostOf (Url.hostport authority)

theorem not_delimiter :
    (fun c => c ≠ '/' && c ≠ '?' && c ≠ '#' : Char → Bool) = fun c => !delimiter c := by
  funext c
  simp [delimiter, Bool.and_assoc]

theorem schemeChar_clean {c : Char} (char : schemeChar c = true) : Url.schemeEnd c = false := by
  rw [Bool.eq_false_iff]
  intro ends
  simp only [Url.schemeEnd, delimiter, Bool.or_eq_true, decide_eq_true_eq] at ends
  rcases ends with rfl | (rfl | rfl) | rfl <;> revert char <;> decide

theorem splitOnce?_scheme {url scheme rest : String} (found : Text.splitOnce? "://" url = some (scheme, rest)) :
    url.toList = scheme.toList ++ ':' :: '/' :: '/' :: rest.toList := by
  obtain ⟨⟨before, after⟩, broken, same⟩ := Option.map_eq_some_iff.mp found
  cases same
  rw [String.toList_ofList, String.toList_ofList]
  exact Text.breakOn_eq_some broken

/-- Where the parser of the guards accepts a URL, it splits it as the standard does. -/
theorem parseAbsoluteUrl_iff {url : String} {parsed : ParsedUrl} :
    parseAbsoluteUrl url = some parsed ↔ ∃ split, Url.parts url.toList = some split ∧
      split.scheme.all schemeChar = true ∧ guardedHost split.authority ≠ [] ∧
      parsed = ⟨String.ofList split.scheme, String.ofList (guardedHost split.authority)⟩ := by
  constructor
  · intro accepted
    obtain ⟨⟨scheme, rest⟩, found, accepted⟩ := Option.bind_eq_some_iff.mp accepted
    dsimp only at accepted
    rw [not_delimiter] at accepted
    split_ifs at accepted with malformed hostless
    cases accepted
    obtain ⟨some_, chars, -⟩ : scheme ≠ "" ∧ scheme.toList.all schemeChar = true ∧ rest ≠ "" := by
      simpa [not_or] using malformed
    obtain ⟨-, host⟩ := not_or.mp hostless
    refine ⟨⟨scheme.toList, _, rest.toList.dropWhile fun c => !delimiter c⟩,
      Url.parts_eq_some.mpr ⟨?_, ?_, ?_, ?_, ?_⟩, chars, host, ?_⟩
    · rw [Url.Parts.text, List.takeWhile_append_dropWhile]
      exact splitOnce?_scheme found
    · exact fun empty => some_ (String.toList_inj.mp empty)
    · exact fun c member => schemeChar_clean (List.all_eq_true.mp chars c member)
    · intro c member
      simpa using List.mem_takeWhile_imp member
    · intro c member
      have stop := List.head?_dropWhile_not (fun c => !delimiter c) rest.toList
      rw [Option.mem_def.mp member] at stop
      simpa using stop
    · rw [String.ofList_toList]
      rfl
  · rintro ⟨split, found, chars, host, rfl⟩
    obtain ⟨text, some_, clean, within, stop⟩ := Url.parts_eq_some.mp found
    have colon : ':' ∉ split.scheme := fun member => by
      have := clean ':' member
      revert this
      decide
    have broken : Text.splitOnce? "://" url =
        some (String.ofList split.scheme, String.ofList (split.authority ++ split.rest)) := by
      have once : Text.breakOn [':', '/', '/']
          (split.scheme ++ ':' :: (['/', '/'] ++ (split.authority ++ split.rest))) =
            some (split.scheme, split.authority ++ split.rest) := Text.breakOn_append colon
      rw [Text.splitOnce?, text]
      exact congrArg (Option.map _) once
    have authority : split.authority ≠ [] := by
      intro empty
      rw [empty] at host
      exact host rfl
    have whole : (split.authority ++ split.rest).takeWhile (fun c => !delimiter c) = split.authority := by
      apply Url.takeWhile_append_stop
      · simpa using within
      · simpa using stop
    unfold parseAbsoluteUrl
    rw [broken, Option.bind_eq_bind, Option.bind_some]
    dsimp only
    rw [not_delimiter, String.toList_ofList, String.toList_ofList, whole, if_neg, if_neg]
    · rfl
    · exact not_or.mpr ⟨authority, host⟩
    · simp [some_, chars, authority]

def Live (rejectPrivate allowHttp : Bool) (url : String) : Prop :=
  ∃ parsed, parseAbsoluteUrl url = some parsed ∧
    (Text.lowerAscii parsed.scheme = "https" ∨
      allowHttp ∧ Text.lowerAscii parsed.scheme = "http") ∧
    ¬ (rejectPrivate ∧ isPrivateHost parsed.host)

/-- These checks look at the scheme and the authority alone. -/
def LiveParts (rejectPrivate allowHttp : Bool) (scheme authority : List Char) : Prop :=
  (scheme.map Char.toLower = "https".toList ∨
    allowHttp ∧ scheme.map Char.toLower = "http".toList) ∧
  guardedHost authority ≠ [] ∧
  ¬ (rejectPrivate ∧ isPrivateHost (String.ofList (guardedHost authority)))

section Live
variable {rejectPrivate allowHttp : Bool}

theorem schemeChar_of_lower {c : Char} (letter : c.toLower.isLower = true) : schemeChar c = true := by
  have alpha : c.isAlpha = true := by
    rw [Text.isAlpha_iff]
    cases upper : c.isUpper with
    | true => exact .inl rfl
    | false =>
      rw [Text.toLower_other upper] at letter
      exact .inr letter
  simp [schemeChar, Char.isAlphanum, alpha]

theorem liveParts_scheme {scheme authority : List Char}
    (live : LiveParts rejectPrivate allowHttp scheme authority) : scheme.all schemeChar = true := by
  have letters : ∀ c ∈ scheme.map Char.toLower, c.isLower = true := by
    rcases live.1 with same | ⟨-, same⟩
    · rw [same]
      simp [Text.isLower_iff]
    · rw [same]
      simp [Text.isLower_iff]
  exact List.all_eq_true.mpr fun c member =>
    schemeChar_of_lower (letters _ (List.mem_map_of_mem member))

theorem live_iff {url : String} : Live rejectPrivate allowHttp url ↔
    ∃ split, Url.parts url.toList = some split ∧
      LiveParts rejectPrivate allowHttp split.scheme split.authority := by
  have scheme (chars : List Char) (name : String) :
      Text.lowerAscii (String.ofList chars) = name ↔ chars.map Char.toLower = name.toList := by
    rw [← String.toList_inj, Text.toList_lowerAscii, String.toList_ofList]
  constructor
  · rintro ⟨parsed, accepted, named, guarded⟩
    obtain ⟨split, found, -, host, rfl⟩ := parseAbsoluteUrl_iff.mp accepted
    rw [scheme, scheme] at named
    exact ⟨split, found, named, host, guarded⟩
  · rintro ⟨split, found, live⟩
    refine ⟨_, parseAbsoluteUrl_iff.mpr ⟨split, found, liveParts_scheme live, live.2.1, rfl⟩, ?_,
      live.2.2⟩
    rw [scheme, scheme]
    exact live.1

theorem guardedHost_lower (authority : List Char) :
    guardedHost (authority.map Char.toLower) = (guardedHost authority).map Char.toLower := by
  have mark (m : Char) (fixed : m.isLower = false) (own : m.toLower = m) (c : Char) :
      decide (c.toLower ≠ m) = decide (c ≠ m) := by
    simp only [ne_eq, Text.toLower_mark m fixed own]
  have bracket : ']' ∈ (Url.hostport authority).map Char.toLower ↔ ']' ∈ Url.hostport authority := by
    rw [List.mem_map]
    simp only [Text.toLower_mark ']' rfl rfl, exists_eq_right]
  have named : Url.hostport (authority.map Char.toLower) =
      (Url.hostport authority).map Char.toLower := by
    rw [Url.hostport, ← List.map_reverse, Text.takeWhile_lower (mark '@' rfl rfl), ← List.map_reverse]
    rfl
  unfold guardedHost hostOf
  rw [named, Text.takeWhile_lower (mark ']' rfl rfl), Text.takeWhile_lower (mark ':' rfl rfl)]
  simp only [bracket]
  split_ifs <;> simp

theorem liveParts_case {scheme scheme' authority authority' : List Char}
    (schemes : scheme'.map Char.toLower = scheme.map Char.toLower)
    (authorities : authority'.map Char.toLower = authority.map Char.toLower)
    (live : LiveParts rejectPrivate allowHttp scheme authority) :
    LiveParts rejectPrivate allowHttp scheme' authority' := by
  have hosts : (guardedHost authority').map Char.toLower = (guardedHost authority).map Char.toLower := by
    rw [← guardedHost_lower, authorities, guardedHost_lower]
  have guard : isPrivateHost (String.ofList (guardedHost authority')) =
      isPrivateHost (String.ofList (guardedHost authority)) := by
    rw [← isPrivateHost_case, ← isPrivateHost_case (String.ofList (guardedHost authority))]
    simp only [Text.lowerAscii, String.toList_ofList, hosts]
  obtain ⟨named, some_, guarded⟩ := live
  refine ⟨schemes ▸ named, fun empty => some_ ?_, guard ▸ guarded⟩
  rw [empty] at hosts
  exact List.map_eq_nil_iff.mp hosts.symm

theorem validateChildUrl_iff {url : String} {prefixes : List String} :
    validateChildUrl url prefixes rejectPrivate allowHttp = none ↔
      Live rejectPrivate allowHttp url ∧ (prefixes = [] ∨
        ∃ allowed ∈ prefixes, Text.startsWith (Text.lowerAscii allowed) (Text.lowerAscii url)) := by
  have listed : (prefixes ≠ [] ∧ ¬ prefixes.any fun allowed =>
      Text.startsWith (Text.lowerAscii allowed) (Text.lowerAscii url)) ↔ ¬ (prefixes = [] ∨
        ∃ allowed ∈ prefixes, Text.startsWith (Text.lowerAscii allowed) (Text.lowerAscii url)) := by
    rw [not_or, List.any_eq_true]
  unfold validateChildUrl
  dsimp only
  constructor
  · intro valid
    split at valid
    · cases valid
    · split at valid
      · cases valid
      · rename_i parsed accepted
        split_ifs at valid with named refused guarded
        refine ⟨⟨parsed, accepted, named, guarded⟩, ?_⟩
        rw [listed] at refused
        exact not_not.mp refused
  · rintro ⟨⟨parsed, accepted, named, guarded⟩, allowed⟩
    have visible : Text.trim url ≠ "" := by
      obtain ⟨split, found, -⟩ := parseAbsoluteUrl_iff.mp accepted
      obtain ⟨text, -⟩ := Url.parts_eq_some.mp found
      have colon : ':' ∈ url.toList := by
        rw [text, Url.Parts.text]
        exact List.mem_append_right _ List.mem_cons_self
      exact Text.trim_ne_empty colon (by decide)
    rw [if_neg visible, accepted]
    dsimp only
    rw [if_neg (not_not.mpr named), if_neg (mt listed.mp (not_not.mpr allowed)), if_neg guarded]

end Live

/-- The URL leads to the origin of an allowed prefix, and on from its path. -/
def Confined (prefixes : List String) (url : String) : Prop :=
  ∃ allowed ∈ prefixes, ∃ start reached, location allowed = some start ∧
    location url = some reached ∧ SameOrigin reached start ∧ start.path <+: reached.path

/-- Its authority only begins with the text of an allowed one: it has the origin of none. -/
def MerelyBegins (prefixes : List String) (url : String) : Prop :=
  ∃ whole, Url.parts url.toList = some whole ∧
    (∃ allowed ∈ prefixes, ∃ start, Url.parts allowed.toList = some start ∧
      start.authority.map Char.toLower <+: whole.authority.map Char.toLower) ∧
    ∀ allowed ∈ prefixes, ∀ start, location allowed = some start →
      ¬ SameOrigin whole.location start

def Confines (prefixes : List String) (rejectPrivate allowHttp : Bool) : Prop :=
  ∀ url, validateChildUrl url prefixes rejectPrivate allowHttp = none →
    Confined prefixes url ∧ ¬ MerelyBegins prefixes url

/-- The prefix leaves the authority unfinished: it has no `/`, `?` or `#` after it. -/
def Open (allowHttp : Bool) (allowed : String) : Prop :=
  ∃ scheme authority : List Char,
    (scheme = "https".toList ∨ allowHttp ∧ scheme = "http".toList) ∧
    (∀ c ∈ authority, delimiter c = false) ∧
    allowed.toList.map Char.toLower <+: scheme ++ ':' :: '/' :: '/' :: authority

/-- However the path of the prefix is capitalised, some prefix of its origin has a path that it
begins with. -/
def PathCovered (prefixes : List String) (allowed : String) : Prop :=
  ∀ start, location allowed = some start → ∀ path : List Char,
    path.map Char.toLower = start.path.map Char.toLower →
      ∃ other ∈ prefixes, ∃ its, location other = some its ∧ SameOrigin start its ∧ its.path <+: path

section Confinement
variable {prefixes : List String} {rejectPrivate allowHttp : Bool} {url : String}

theorem Confined.not_merelyBegins (confined : Confined prefixes url) : ¬ MerelyBegins prefixes url := by
  obtain ⟨allowed, member, start, reached, from_, to_, same, -⟩ := confined
  rintro ⟨whole, split, -, none⟩
  rw [location, split] at to_
  cases to_
  exact none allowed member start from_ same

/-- A URL that goes on from a closed prefix has its scheme and authority. -/
theorem closed_split {allowed : String} {front rest : List Char} {whole : Parts}
    (closed : ¬ Open allowHttp allowed)
    (same : front.map Char.toLower = allowed.toList.map Char.toLower)
    (found : Url.parts (front ++ rest) = some whole)
    (scheme : whole.scheme.map Char.toLower = "https".toList ∨
      allowHttp ∧ whole.scheme.map Char.toLower = "http".toList) :
    ∃ more, Url.parts front = some ⟨whole.scheme, whole.authority, more⟩ ∧
      whole.rest = more ++ rest := by
  obtain ⟨text, split⟩ := Url.parts_eq_some.mp found
  have finished : ∀ begun, whole.scheme ++ ':' :: '/' :: '/' :: whole.authority ≠ front ++ begun := by
    intro begun within
    refine closed ⟨_, whole.authority.map Char.toLower, scheme, ?_, begun.map Char.toLower, ?_⟩
    · exact Url.all_case Url.delimiter_toLower (Text.map_toLower_map_toLower _) split.authority
    · rw [← same, ← List.map_append, ← within]
      simp only [List.map_append, List.map_cons]
      rfl
  have apart : front ++ rest = (whole.scheme ++ ':' :: '/' :: '/' :: whole.authority) ++ whole.rest := by
    rw [text, Url.Parts.text]
    simp
  rcases List.append_eq_append_iff.mp apart with ⟨begun, within, -⟩ | ⟨more, longer, later⟩
  · exact absurd within (finished begun)
  · cases more with
    | nil => exact absurd (longer.trans (List.append_nil _)).symm (by simpa using finished [])
    | cons c more =>
      refine ⟨c :: more, Url.parts_eq_some.mpr ⟨?_, ?_⟩, later⟩
      · rw [longer, Url.Parts.text]
        simp
      · refine ⟨split.scheme_nonempty, split.scheme, split.authority, ?_⟩
        have stop := split.rest
        rw [later] at stop
        exact stop

theorem confined_of_closed
    (closed : ∀ allowed ∈ prefixes, ¬ Open allowHttp allowed)
    (covered : ∀ allowed ∈ prefixes, Live rejectPrivate allowHttp allowed → PathCovered prefixes allowed)
    (some_ : prefixes ≠ [])
    (valid : validateChildUrl url prefixes rejectPrivate allowHttp = none) : Confined prefixes url := by
  obtain ⟨live, listed⟩ := validateChildUrl_iff.mp valid
  obtain ⟨allowed, member, begins⟩ := listed.resolve_left some_
  obtain ⟨whole, found, live⟩ := live_iff.mp live
  have begins : allowed.toList.map Char.toLower <+: url.toList.map Char.toLower := by
    rw [← Text.toList_lowerAscii, ← Text.toList_lowerAscii]
    exact List.isPrefixOf_iff_prefix.mp begins
  obtain ⟨later, text⟩ := begins
  obtain ⟨front, rest, text, same, -⟩ := List.map_eq_append_iff.mp text.symm
  rw [text] at found
  obtain ⟨more, parted, continued⟩ := closed_split (closed allowed member) same found live.1
  obtain ⟨split, own, scheme, authority, tail⟩ := Url.parts_case same.symm parted
  have allowedLive : Live rejectPrivate allowHttp allowed :=
    live_iff.mpr ⟨split, own, liveParts_case scheme authority live⟩
  have paths : (Url.path more).map Char.toLower = split.location.path.map Char.toLower := by
    rw [← Url.path_lower, ← tail, Url.path_lower]
    rfl
  have start : location allowed = some split.location := by rw [location, own]; rfl
  obtain ⟨other, listed, its, where_, origin, on⟩ :=
    covered allowed member allowedLive split.location start (Url.path more) paths
  have reached : location url = some whole.location := by rw [location, text, found]; rfl
  refine ⟨other, listed, its, whole.location, where_, reached, ?_, ?_⟩
  · exact (Url.sameOrigin_case scheme authority).symm.trans origin
  · have further := Url.path_append more rest
    rw [← continued] at further
    exact on.trans further

/-- A host that is no address, in no brackets, is judged by its name. -/
theorem isPrivateHost_plain {name : List Char} (some_ : name ≠ [])
    (other : name.map Char.toLower ≠ "localhost".toList) (front : '[' ∉ name) (back : ']' ∉ name)
    (port : ':' ∉ name) (address : parseIpv4 (String.ofList name) = none) :
    isPrivateHost (String.ofList name) = false := by
  have named : ¬ (String.ofList name = "" ∨ Text.lowerAscii (String.ofList name) = "localhost") := by
    rw [← String.toList_inj, ← String.toList_inj, Text.toList_lowerAscii, String.toList_ofList]
    rintro (empty | localhost)
    · exact some_ empty
    · exact other localhost
  have opens : name.dropWhile (· == '[') = name :=
    ActionServer.dropWhile_none fun c member => beq_false_of_ne fun same => front (same ▸ member)
  have closes : name.reverse.dropWhile (· == ']') = name.reverse :=
    ActionServer.dropWhile_none fun c member =>
      beq_false_of_ne fun same => back (same ▸ List.mem_reverse.mp member)
  have stripped : Text.trimEnd (· == ']') (Text.trimStart (· == '[') (String.ofList name)) =
      String.ofList name := by
    rw [Text.trimEnd, Text.trimStart, String.toList_ofList, String.toList_ofList, opens, closes,
      List.reverse_reverse]
  unfold isPrivateHost
  dsimp only
  rw [if_neg named, stripped, address]
  exact if_neg (by rwa [String.toList_ofList])

theorem isPrivateHost_name {name : List Char} (some_ : name ≠ []) (all : ∀ c ∈ name, c = 'x') :
    isPrivateHost (String.ofList name) = false := by
  have free {c : Char} (other : c ≠ 'x') : c ∉ name := fun member => other (all c member)
  have lower : name.map Char.toLower = name :=
    (List.map_congr_left fun c member => (all c member).symm ▸ rfl).trans (List.map_id _)
  have other : name.map Char.toLower ≠ "localhost".toList := by
    intro localhost
    have inside : 'l' ∈ name := by rw [← lower, localhost]; decide
    exact absurd (all _ inside) (by decide)
  exact isPrivateHost_plain some_ other (free (by decide)) (free (by decide)) (free (by decide))
    (ActionServer.parseIpv4_plain (by simpa using free (by decide)))

theorem exists_longer (prefixes : List String) :
    ∃ n, ∀ allowed ∈ prefixes, allowed.toList.length < n := by
  induction prefixes with
  | nil => exact ⟨0, nofun⟩
  | cons first rest ih =>
    obtain ⟨n, longer⟩ := ih
    refine ⟨first.toList.length + n + 1, List.forall_mem_cons.mpr ⟨by omega, fun allowed member => ?_⟩⟩
    have := longer allowed member
    omega

/-- A prefix that leaves the authority unfinished makes user information of what it has, before any
other host. -/
theorem open_escapes {allowed : String} (member : allowed ∈ prefixes) (unfinished : Open allowHttp allowed) :
    ∃ url, validateChildUrl url prefixes rejectPrivate allowHttp = none ∧ ¬ Confined prefixes url := by
  obtain ⟨scheme, authority, named, within, begins⟩ := unfinished
  obtain ⟨n, longer⟩ := exists_longer prefixes
  have all : ∀ c ∈ List.replicate n 'x', c = 'x' := fun c member => List.eq_of_mem_replicate member
  have some_ : List.replicate n 'x' ≠ [] := by
    have := longer allowed member
    simp only [ne_eq, List.replicate_eq_nil_iff]
    omega
  generalize same : List.replicate n 'x' = name at all some_
  have length : name.length = n := by rw [← same, List.length_replicate]
  have free {c : Char} (other : c ≠ 'x') : c ∉ name := fun member => other (all c member)
  have lower : name.map Char.toLower = name :=
    (List.map_congr_left fun c member => (all c member).symm ▸ rfl).trans (List.map_id _)
  have letters : scheme.map Char.toLower = scheme ∧ scheme ≠ [] ∧
      ∀ c ∈ scheme, Url.schemeEnd c = false := by
    rcases named with rfl | ⟨-, rfl⟩
    · simp [Url.schemeEnd, delimiter]
    · simp [Url.schemeEnd, delimiter]
  let split : Parts := ⟨scheme, authority ++ '@' :: name, []⟩
  have parted : Url.parts split.text = some split := by
    refine Url.Parts.Split.parts_text ⟨letters.2.1, letters.2.2, fun c inside => ?_, by simp [split]⟩
    rcases List.mem_append.mp inside with user | host
    · exact within c user
    · rcases List.mem_cons.mp host with rfl | host
      · rfl
      · rw [all c host]
        rfl
  have whole : name.takeWhile (· ≠ ':') = name :=
    List.takeWhile_eq_self_iff.mpr fun c inside => by rw [all c inside]; rfl
  have guarded : guardedHost split.authority = name := by
    rw [guardedHost, Url.hostport_append (free (by decide)), hostOf, if_neg (free (by decide)), whole]
  refine ⟨String.ofList split.text, validateChildUrl_iff.mpr ⟨live_iff.mpr ⟨split, ?_, ?_⟩,
    .inr ⟨allowed, member, ?_⟩⟩, ?_⟩
  · rw [String.toList_ofList, parted]
  · refine ⟨?_, ?_, ?_⟩
    · rw [letters.1]
      exact named
    · rw [guarded]
      exact some_
    · rw [guarded, isPrivateHost_name some_ all]
      simp
  · rw [Text.startsWith, List.isPrefixOf_iff_prefix, Text.toList_lowerAscii, Text.toList_lowerAscii,
      String.toList_ofList, ← Text.map_toLower_map_toLower]
    apply List.IsPrefix.map
    refine begins.trans ⟨'@' :: name, ?_⟩
    simp [split, Url.Parts.text]
  · rintro ⟨other, listed, start, reached, from_, to_, ⟨-, host, -⟩, -⟩
    rw [location, String.toList_ofList, parted] at to_
    cases to_
    have reached : split.location.host = name := by
      have bare : name.head? ≠ some '[' := fun first =>
        free (by decide) (List.mem_of_mem_head? first)
      change Url.host (Url.hostport ((authority ++ '@' :: name).map Char.toLower)) = name
      rw [List.map_append, List.map_cons, lower, show Char.toLower '@' = '@' from rfl,
        Url.hostport_append (free (by decide)), Url.host, if_neg bare, whole]
    have short := Url.location_host from_
    have long := longer other listed
    rw [← host, reached, length] at short
    omega

/-- A prefix accepts itself with its path capitalised in any way. -/
theorem covered_of_confined {allowed : String} (member : allowed ∈ prefixes)
    (live : Live rejectPrivate allowHttp allowed)
    (confined : ∀ url, validateChildUrl url prefixes rejectPrivate allowHttp = none →
      Confined prefixes url) : PathCovered prefixes allowed := by
  intro start from_ path spelled
  obtain ⟨split, parted, rfl⟩ := Option.map_eq_some_iff.mp from_
  obtain ⟨text, valid⟩ := Url.parts_eq_some.mp parted
  obtain ⟨own, found, live⟩ := live_iff.mp live
  rw [parted] at found
  cases found
  obtain ⟨tail, same, own⟩ := Url.path_case spelled
  let other : Parts := ⟨split.scheme, split.authority, path ++ tail⟩
  have otherParts : Url.parts other.text = some other :=
    Url.Parts.Split.parts_text ⟨valid.scheme_nonempty, valid.scheme, valid.authority,
      Url.head_case Url.delimiter_toLower same valid.rest⟩
  have accepted : validateChildUrl (String.ofList other.text) prefixes rejectPrivate allowHttp = none := by
    refine validateChildUrl_iff.mpr ⟨live_iff.mpr ⟨other, ?_, live⟩, .inr ⟨allowed, member, ?_⟩⟩
    · rw [String.toList_ofList, otherParts]
    · rw [Text.startsWith, List.isPrefixOf_iff_prefix, Text.toList_lowerAscii, Text.toList_lowerAscii,
        String.toList_ofList, text, Url.Parts.text, Url.Parts.text]
      simp only [List.map_append, List.map_cons]
      rw [← List.map_append, same, List.map_append]
  obtain ⟨found, listed, its, reached, where_, to_, origin, on⟩ := confined _ accepted
  rw [location, String.toList_ofList, otherParts] at to_
  cases to_
  refine ⟨found, listed, its, where_, (Url.sameOrigin_case rfl rfl).trans origin, ?_⟩
  have whole : other.location.path = path := own
  rw [whole] at on
  exact on

/-- An allowlist confines the URLs that it admits exactly if every prefix in it ends its authority,
and the paths of those that a URL can begin with are covered however they are capitalised. -/
theorem confines_iff (some_ : prefixes ≠ []) : Confines prefixes rejectPrivate allowHttp ↔
    (∀ allowed ∈ prefixes, ¬ Open allowHttp allowed) ∧
      ∀ allowed ∈ prefixes, Live rejectPrivate allowHttp allowed → PathCovered prefixes allowed := by
  constructor
  · intro confines
    have confined := fun url valid => (confines url valid).1
    constructor
    · intro allowed member unfinished
      obtain ⟨url, valid, escaped⟩ := open_escapes member unfinished
      exact escaped (confined url valid)
    · exact fun allowed member live => covered_of_confined member live confined
  · rintro ⟨closed, covered⟩ url valid
    have confined := confined_of_closed closed covered some_ valid
    exact ⟨confined, confined.not_merelyBegins⟩

end Confinement

theorem OneOrigin.allowlist : Confines ["https://trusted.example.com/"] true false ↔
    (∀ allowed ∈ ["https://trusted.example.com/"], ¬ Open false allowed) ∧
      ∀ allowed ∈ ["https://trusted.example.com/"], Live true false allowed →
        PathCovered ["https://trusted.example.com/"] allowed :=
  ComplexNode.confines_iff (List.cons_ne_nil _ _)

/-- Without the slash, the host goes on. -/
theorem LongerHost.not_confined : ¬ ∀ (prefixes : List String) (rejectPrivate allowHttp : Bool),
    prefixes ≠ [] → Confines prefixes rejectPrivate allowHttp := by
  intro all
  -- The checks below compare characters, so the texts are spelled out first.
  have evil : "trusted.example.com.evil.net".toList = _ := String.toList_ofList
  have bare : "https://trusted.example.com".toList = _ := String.toList_ofList
  have whole : "https://trusted.example.com.evil.net/n".toList = _ := String.toList_ofList
  have split : Url.parts "https://trusted.example.com.evil.net/n".toList =
      some ⟨['h', 't', 't', 'p', 's'], "trusted.example.com.evil.net".toList, ['/', 'n']⟩ := by
    rw [whole, evil]
    rfl
  have hosted : guardedHost "trusted.example.com.evil.net".toList =
      "trusted.example.com.evil.net".toList := by
    rw [evil]
    rfl
  have guard : isPrivateHost (String.ofList "trusted.example.com.evil.net".toList) = false := by
    rw [evil]
    exact isPrivateHost_plain (List.cons_ne_nil _ _) (by decide) (by decide) (by decide) (by decide)
      (by rw [parseIpv4, Text.split, String.toList_ofList]; rfl)
  have accepted : validateChildUrl "https://trusted.example.com.evil.net/n"
      ["https://trusted.example.com"] true false = none := by
    refine validateChildUrl_iff.mpr ⟨live_iff.mpr ⟨_, split, .inl String.toList_ofList.symm, ?_, ?_⟩,
      .inr ⟨_, List.mem_singleton_self _, ?_⟩⟩
    · rw [hosted, evil]
      exact List.cons_ne_nil _ _
    · rw [hosted, guard]
      exact fun h => Bool.false_ne_true h.2
    · rw [Text.startsWith, Text.toList_lowerAscii, Text.toList_lowerAscii, whole, bare]
      rfl
  obtain ⟨⟨allowed, member, start, reached, from_, to_, ⟨-, host, -⟩, -⟩, -⟩ :=
    all _ true false (List.cons_ne_nil _ _) _ accepted
  cases List.mem_singleton.mp member
  have long : reached.host.length = 28 := by
    rw [location, split, evil] at to_
    cases to_
    rfl
  have short : start.host.length = 19 := by
    rw [location, bare] at from_
    cases from_
    rfl
  rw [← host, long] at short
  exact absurd short (by decide)

end Nps.Nwp.ComplexNode
