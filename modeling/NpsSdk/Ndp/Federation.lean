import NpsSdk.Core.Frames
import NpsSdk.Lib.Splitting

/-! Forwarding between federated registries. A request carries the registries that have forwarded it. -/
namespace Nps.Ndp
open Nps.Core

def maxFederationHops : Nat := 3

def federationLoop : String := "NDP-FEDERATION-LOOP"

def parseForwardedBy (header : Option String) : List String :=
  (Text.split ',' (header.getD "")).filterMap fun part =>
    let hop := Text.trim part
    if hop = "" then none else some hop

def loopError : NpsError := .frame (federationLoop ++ ": own NID already appears in ndp-forwarded-by")

def appendForwardedBy (ownNid : String) (header : Option String) : NpsResult (Option String) :=
  let hops := parseForwardedBy header
  if hops.contains ownNid then .error loopError
  else if hops.length ≥ maxFederationHops then .ok none
  else .ok (some (", ".intercalate (hops ++ [ownNid])))

example : appendForwardedBy "b" (some " a,") = .ok (some "a, b") := by decide

/-- The identifier of a registry. -/
structure RegistryNid where
  text : String
  some_ : text ≠ ""
  plain : ',' ∉ text.toList
  trimmed : Text.trim text = text

/-- The registries that forwarded a request, one after another, and the header that it carries now. -/
inductive Forwarded (peers : RegistryNid → RegistryNid → Prop) : List RegistryNid → Option String → Prop where
  | fresh {header : Option String} : parseForwardedBy header = [] → Forwarded peers [] header
  | hop {visited : List RegistryNid} {header : Option String} {nid : RegistryNid} {next : String} :
    Forwarded peers visited header → (∀ last ∈ visited.getLast?, peers last nid) →
    appendForwardedBy nid.text header = .ok (some next) → Forwarded peers (visited ++ [nid]) (some next)

theorem appendForwardedBy_ok {nid next : String} {header : Option String}
    (appended : appendForwardedBy nid header = .ok (some next)) :
    nid ∉ parseForwardedBy header ∧ (parseForwardedBy header).length < maxFederationHops ∧
      next = ", ".intercalate (parseForwardedBy header ++ [nid]) := by
  unfold appendForwardedBy at appended
  dsimp only at appended
  split_ifs at appended with again full
  · cases appended
  refine ⟨fun member => again (List.contains_iff_mem.mpr member), Nat.not_le.mp full, ?_⟩
  exact (Option.some.inj (Except.ok.inj appended)).symm

theorem appendForwardedBy_visited {nid : String} {header : Option String}
    (visited : nid ∈ parseForwardedBy header) : appendForwardedBy nid header = .error loopError := by
  rw [appendForwardedBy]
  exact if_pos (List.contains_iff_mem.mpr visited)

theorem parseForwardedBy_eq (header : String) : parseForwardedBy (some header) =
    ((Text.split ',' header).map Text.trim).filterMap fun hop => if hop = "" then none else some hop := by
  rw [parseForwardedBy, Option.getD_some, List.filterMap_map]
  refine List.filterMap_congr fun part _ => ?_
  dsimp only [Function.comp]

theorem parseForwardedBy_intercalate {nids : List RegistryNid} (some_ : nids ≠ []) :
    parseForwardedBy (some (", ".intercalate (nids.map RegistryNid.text))) = nids.map RegistryNid.text := by
  have plain : ∀ text ∈ nids.map RegistryNid.text, ',' ∉ text.toList := by
    intro text member
    obtain ⟨nid, -, rfl⟩ := List.mem_map.mp member
    exact nid.plain
  have parts := Text.trim_split_intercalate (by decide) plain (by simpa using some_)
  have blank : String.ofList [',', ' '] = ", " := by decide
  have trimmed : (nids.map RegistryNid.text).map Text.trim = nids.map RegistryNid.text := by
    rw [List.map_map]
    exact List.map_congr_left fun nid _ => nid.trimmed
  rw [parseForwardedBy_eq, ← blank, parts, trimmed, List.filterMap_map]
  have kept : nids.filterMap ((fun hop => if hop = "" then none else some hop) ∘ RegistryNid.text) =
      nids.filterMap fun nid => some nid.text := List.filterMap_congr fun nid _ => if_neg nid.some_
  rw [kept, List.filterMap_eq_map']

section
variable {peers : RegistryNid → RegistryNid → Prop} {visited : List RegistryNid} {header : Option String}

/-- The header lists the registries that forwarded the request. -/
theorem Forwarded.listed (forwarded : Forwarded peers visited header) :
    parseForwardedBy header = visited.map RegistryNid.text := by
  induction forwarded with
  | fresh none => exact none
  | hop _ _ appended ih =>
    obtain ⟨-, -, rfl⟩ := appendForwardedBy_ok appended
    rw [ih, ← List.map_singleton, ← List.map_append]
    exact parseForwardedBy_intercalate (by simp)

theorem Forwarded.distinct (forwarded : Forwarded peers visited header) :
    (visited.map RegistryNid.text).Nodup := by
  induction forwarded with
  | fresh => exact List.nodup_nil
  | hop before _ appended ih =>
    obtain ⟨new, -, -⟩ := appendForwardedBy_ok appended
    rw [before.listed] at new
    rw [List.map_append, List.map_singleton]
    refine List.nodup_append.mpr ⟨ih, List.pairwise_singleton _ _, fun text member other last same => ?_⟩
    exact new (List.mem_singleton.mp last ▸ same ▸ member)

theorem Forwarded.few (forwarded : Forwarded peers visited header) : visited.length ≤ maxFederationHops := by
  cases forwarded with
  | fresh => exact Nat.zero_le _
  | hop before _ appended =>
    obtain ⟨-, few, -⟩ := appendForwardedBy_ok appended
    rw [before.listed, List.length_map] at few
    rw [List.length_append]
    exact few

/-- No registry forwards a request twice, and no more than three do. Each that did is told that it loops. -/
theorem federation_loop_free (forwarded : Forwarded peers visited header) :
    (visited.map RegistryNid.text).Nodup ∧ visited.length ≤ maxFederationHops ∧
      parseForwardedBy header = visited.map RegistryNid.text ∧
      ∀ nid ∈ visited, appendForwardedBy nid.text header = .error loopError :=
  ⟨forwarded.distinct, forwarded.few, forwarded.listed, fun _ member =>
    appendForwardedBy_visited (forwarded.listed ▸ List.mem_map_of_mem member)⟩

end

/-- Of two registries that forward everything to each other, the first refuses the request that comes back. -/
theorem echo_refused :
    let a : RegistryNid := ⟨"urn:a", by decide, by decide, by decide⟩
    let b : RegistryNid := ⟨"urn:b", by decide, by decide, by decide⟩
    [a.text, b.text].Nodup ∧ [a, b].length ≤ maxFederationHops ∧
      parseForwardedBy (some "urn:a, urn:b") = [a.text, b.text] ∧
      ∀ nid ∈ [a, b], appendForwardedBy nid.text (some "urn:a, urn:b") = .error loopError := by
  intro a b
  have fresh : Forwarded (fun _ _ => True) [] none := .fresh (by decide)
  have first : Forwarded (fun _ _ => True) [a] (some "urn:a") := .hop fresh (fun _ _ => trivial) (by decide)
  have second : Forwarded (fun _ _ => True) [a, b] (some "urn:a, urn:b") :=
    .hop first (fun _ _ => trivial) (by decide)
  exact federation_loop_free second

end Nps.Ndp
