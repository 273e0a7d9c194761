import NpsSdk.Lib.Casing

/-! URLs of the form `scheme://authority/path`, read as RFC 3986 splits them, and what they name. -/
namespace Url

def delimiter (c : Char) : Bool := c = '/' || c = '?' || c = '#'

structure Parts where
  scheme : List Char
  authority : List Char
  rest : List Char

def schemeEnd (c : Char) : Bool := c = ':' || delimiter c

def parts (text : List Char) : Option Parts :=
  let scheme := text.takeWhile fun c => !schemeEnd c
  match text.drop scheme.length with
  | ':' :: '/' :: '/' :: rest =>
    if scheme = [] then none
    else some {
      scheme
      authority := rest.takeWhile fun c => !delimiter c
      rest := rest.dropWhile fun c => !delimiter c }
  | _ => none

def Parts.text (parts : Parts) : List Char :=
  parts.scheme ++ ':' :: '/' :: '/' :: (parts.authority ++ parts.rest)

structure Location where
  scheme : List Char
  host : List Char
  port : Option (List Char)
  path : List Char
deriving DecidableEq

def hostport (authority : List Char) : List Char :=
  (authority.reverse.takeWhile (· ≠ '@')).reverse

def host (hostport : List Char) : List Char :=
  if hostport.head? = some '[' then hostport.takeWhile (· ≠ ']')
  else hostport.takeWhile (· ≠ ':')

def portText (hostport : List Char) : List Char :=
  let after := if hostport.head? = some '[' then hostport.dropWhile (· ≠ ']') else hostport
  (after.dropWhile (· ≠ ':')).drop 1

def defaultPort (scheme : List Char) : Option (List Char) :=
  if scheme = "http".toList then some "80".toList
  else if scheme = "https".toList then some "443".toList
  else none

def port (scheme digits : List Char) : Option (List Char) :=
  if digits = [] then defaultPort scheme else some (digits.dropWhile (· = '0'))

def path (rest : List Char) : List Char := rest.takeWhile fun c => c ≠ '?' && c ≠ '#'

def Parts.location (parts : Parts) : Location :=
  let scheme := parts.scheme.map Char.toLower
  let named := hostport (parts.authority.map Char.toLower)
  { scheme, host := host named, port := port scheme (portText named), path := path parts.rest }

def location (text : String) : Option Location := (parts text.toList).map Parts.location

def SameOrigin (one other : Location) : Prop :=
  one.scheme = other.scheme ∧ one.host = other.host ∧ one.port = other.port

example : (location "HTTPS://user@Nodes.Example:0443/A?q").map (fun l => (l.host, l.port, l.path)) =
    some ("nodes.example".toList, some "443".toList, "/A".toList) := by decide

structure Parts.Split (parts : Parts) : Prop where
  scheme_nonempty : parts.scheme ≠ []
  scheme : ∀ c ∈ parts.scheme, schemeEnd c = false
  authority : ∀ c ∈ parts.authority, delimiter c = false
  rest : ∀ c ∈ parts.rest.head?, delimiter c = true

theorem takeWhile_append_stop {p : Char → Bool} {front back : List Char} (all : ∀ c ∈ front, p c = true)
    (stop : ∀ c ∈ back.head?, p c = false) : (front ++ back).takeWhile p = front := by
  rw [List.takeWhile_append_of_pos all]
  cases back with
  | nil => simp
  | cons c more => simp [stop c rfl]

theorem dropWhile_append_stop {p : Char → Bool} {front back : List Char} (all : ∀ c ∈ front, p c = true)
    (stop : ∀ c ∈ back.head?, p c = false) : (front ++ back).dropWhile p = back := by
  rw [List.dropWhile_append_of_pos all]
  cases back with
  | nil => simp
  | cons c more => simp [stop c rfl]

theorem Parts.Split.parts_text {split : Parts} (valid : split.Split) :
    parts split.text = some split := by
  obtain ⟨scheme, authority, rest⟩ := split
  obtain ⟨some_, clean, within, stop⟩ := valid
  have first : (Parts.text ⟨scheme, authority, rest⟩).takeWhile (fun c => !schemeEnd c) = scheme := by
    apply takeWhile_append_stop
    · simpa using clean
    · rintro c ⟨⟩
      rfl
  have inside : ∀ c ∈ authority, (!delimiter c) = true := by simpa using within
  have outside : ∀ c ∈ rest.head?, (!delimiter c) = false := by simpa using stop
  unfold parts
  dsimp only
  rw [first, Parts.text, List.drop_left]
  change (if scheme = [] then none else some _) = some _
  rw [if_neg some_, takeWhile_append_stop inside outside, dropWhile_append_stop inside outside]

theorem parts_eq_some {text : List Char} {split : Parts} :
    parts text = some split ↔ text = split.text ∧ split.Split := by
  constructor
  · intro found
    unfold parts at found
    dsimp only at found
    split at found
    · rename_i rest tail
      split_ifs at found with empty
      cases found
      refine ⟨?_, empty, fun c member => ?_, fun c member => ?_, fun c member => ?_⟩
      · have whole := List.prefix_iff_eq_append.mp (List.takeWhile_prefix (l := text) fun c => !schemeEnd c)
        rw [tail] at whole
        rw [Parts.text, List.takeWhile_append_dropWhile]
        exact whole.symm
      · simpa using List.mem_takeWhile_imp member
      · simpa using List.mem_takeWhile_imp member
      · have stop := List.head?_dropWhile_not (fun c => !delimiter c) rest
        rw [member] at stop
        simpa using stop
    · cases found
  · rintro ⟨rfl, valid⟩
    exact valid.parts_text

theorem delimiter_toLower (c : Char) : delimiter c.toLower = delimiter c := by
  simp only [delimiter, Text.toLower_mark '/' rfl rfl,
    Text.toLower_mark '?' rfl rfl, Text.toLower_mark '#' rfl rfl]

theorem schemeEnd_toLower (c : Char) : schemeEnd c.toLower = schemeEnd c := by
  simp only [schemeEnd, delimiter_toLower, Text.toLower_mark ':' rfl rfl]

theorem all_case {p : Char → Bool} {chars other : List Char} {value : Bool}
    (blind : ∀ c, p c.toLower = p c) (same : other.map Char.toLower = chars.map Char.toLower)
    (all : ∀ c ∈ chars, p c = value) : ∀ c ∈ other, p c = value := by
  intro c member
  have lower := List.mem_map_of_mem (f := Char.toLower) member
  rw [same] at lower
  obtain ⟨d, found, equal⟩ := List.mem_map.mp lower
  rw [← blind, ← equal, blind]
  exact all d found

theorem head_case {p : Char → Bool} {chars other : List Char} {value : Bool}
    (blind : ∀ c, p c.toLower = p c) (same : other.map Char.toLower = chars.map Char.toLower)
    (first : ∀ c ∈ chars.head?, p c = value) : ∀ c ∈ other.head?, p c = value := by
  have heads : other.head?.map Char.toLower = chars.head?.map Char.toLower := by
    rw [← List.head?_map, ← List.head?_map, same]
  intro c member
  rw [Option.mem_def.mp member] at heads
  obtain ⟨d, found, equal⟩ := Option.map_eq_some_iff.mp heads.symm
  rw [← blind, ← equal, blind]
  exact first d found

/-- Texts that differ in case only are split alike. -/
theorem parts_case {text other : List Char} {split : Parts}
    (same : other.map Char.toLower = text.map Char.toLower) (found : parts text = some split) :
    ∃ split', parts other = some split' ∧
      split'.scheme.map Char.toLower = split.scheme.map Char.toLower ∧
      split'.authority.map Char.toLower = split.authority.map Char.toLower ∧
      split'.rest.map Char.toLower = split.rest.map Char.toLower := by
  obtain ⟨rfl, some_, clean, within, stop⟩ := parts_eq_some.mp found
  simp only [Parts.text, List.map_append, List.map_cons] at same
  obtain ⟨scheme, marks, rfl, first, same⟩ := List.map_eq_append_iff.mp same
  obtain ⟨colon, marks, rfl, mark, same⟩ := List.map_eq_cons_iff.mp same
  obtain ⟨slash, marks, rfl, mark', same⟩ := List.map_eq_cons_iff.mp same
  obtain ⟨slash', tail, rfl, mark'', same⟩ := List.map_eq_cons_iff.mp same
  obtain ⟨authority, rest, rfl, second, third⟩ := List.map_eq_append_iff.mp same
  cases Text.toLower_eq mark rfl
  cases Text.toLower_eq mark' rfl
  cases Text.toLower_eq mark'' rfl
  refine ⟨⟨scheme, authority, rest⟩, parts_eq_some.mpr ⟨rfl, ?_, ?_, ?_, ?_⟩, first, second, third⟩
  · rintro rfl
    exact some_ (List.map_eq_nil_iff.mp first.symm)
  · exact all_case schemeEnd_toLower first clean
  · exact all_case delimiter_toLower second within
  · exact head_case delimiter_toLower third stop

theorem sameOrigin_case {split other : Parts}
    (scheme : other.scheme.map Char.toLower = split.scheme.map Char.toLower)
    (authority : other.authority.map Char.toLower = split.authority.map Char.toLower) :
    SameOrigin other.location split.location := by
  simp only [SameOrigin, Parts.location, scheme, authority, and_self]

theorem SameOrigin.symm {one other : Location} (same : SameOrigin one other) : SameOrigin other one :=
  ⟨same.1.symm, same.2.1.symm, same.2.2.symm⟩

theorem SameOrigin.trans {one other last : Location} (first : SameOrigin one other)
    (second : SameOrigin other last) : SameOrigin one last :=
  ⟨first.1.trans second.1, first.2.1.trans second.2.1, first.2.2.trans second.2.2⟩

theorem path_lower (rest : List Char) : path (rest.map Char.toLower) = (path rest).map Char.toLower := by
  apply Text.takeWhile_lower
  intro c
  simp only [ne_eq, Text.toLower_mark '?' rfl rfl, Text.toLower_mark '#' rfl rfl]

theorem path_case {rest spelled : List Char}
    (same : spelled.map Char.toLower = (path rest).map Char.toLower) :
    ∃ tail, (spelled ++ tail).map Char.toLower = rest.map Char.toLower ∧
      path (spelled ++ tail) = spelled := by
  have blind (c : Char) : (c.toLower ≠ '?' && c.toLower ≠ '#' : Bool) = (c ≠ '?' && c ≠ '#') := by
    simp only [ne_eq, Text.toLower_mark '?' rfl rfl, Text.toLower_mark '#' rfl rfl]
  have within : ∀ c ∈ path rest, (c ≠ '?' && c ≠ '#' : Bool) = true :=
    fun c member => List.mem_takeWhile_imp (p := fun c => c ≠ '?' && c ≠ '#') member
  refine ⟨rest.dropWhile fun c => c ≠ '?' && c ≠ '#', ?_, takeWhile_append_stop ?_ ?_⟩
  · rw [List.map_append, same, ← List.map_append, path, List.takeWhile_append_dropWhile]
  · exact all_case blind same within
  · intro c member
    have stop := List.head?_dropWhile_not (fun c => c ≠ '?' && c ≠ '#') rest
    rw [Option.mem_def.mp member] at stop
    exact stop

theorem path_append (front back : List Char) : path front <+: path (front ++ back) := by
  rw [path, path, List.takeWhile_append]
  split
  · rename_i whole
    rw [(List.takeWhile_prefix _).eq_of_length whole]
    exact List.prefix_append _ _
  · exact List.prefix_refl _

theorem hostport_append {front name : List Char} (plain : '@' ∉ name) :
    hostport (front ++ '@' :: name) = name := Text.afterLast_append plain

theorem location_host {text : String} {read : Location} (found : location text = some read) :
    read.host.length ≤ text.toList.length := by
  obtain ⟨split, parted, rfl⟩ := Option.map_eq_some_iff.mp found
  obtain ⟨whole, -⟩ := parts_eq_some.mp parted
  have named : (hostport (split.authority.map Char.toLower)).length ≤ split.authority.length := by
    rw [hostport, List.length_reverse]
    exact (List.takeWhile_sublist _).length_le.trans (by simp)
  have inside : (host (hostport (split.authority.map Char.toLower))).length ≤
      (hostport (split.authority.map Char.toLower)).length := by
    unfold host
    split
    · exact (List.takeWhile_sublist _).length_le
    · exact (List.takeWhile_sublist _).length_le
  rw [whole, Parts.text]
  simp only [Parts.location, List.length_append, List.length_cons]
  omega

end Url
