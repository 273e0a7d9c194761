import Mathlib.Data.List.Nodup
import Mathlib.Order.Lattice

/-! Elections: the member with the highest rank leads, and when several share it none does. -/
namespace Election

inductive Result (α : Type) where
  | none | leader (member : α) | split
deriving DecidableEq

variable {α κ : Type} (rank : α → Nat) (key : α → κ)

def elect (members : List α) : Result α :=
  match (members.map rank).max? with
  | none => .none
  | some top =>
    match members.filter fun member => rank member = top with
    | [leader] => .leader leader
    | _ => .split

/-- One member is above all others. -/
def Leads (members : List α) (member : α) : Prop :=
  member ∈ members ∧ ∀ other ∈ members, key other ≠ key member → rank other < rank member

/-- Two members share a rank that nobody exceeds. -/
def Tied (members : List α) : Prop :=
  ∃ first ∈ members, ∃ second ∈ members, key first ≠ key second ∧ rank first = rank second ∧
    ∀ other ∈ members, rank other ≤ rank first

variable {rank key} {members : List α}

theorem elect_eq_none : elect rank members = .none ↔ members = [] := by
  constructor
  · intro elected
    unfold elect at elected
    split at elected
    · rename_i top
      exact List.map_eq_nil_iff.mp (List.max?_eq_none_iff.mp top)
    · split at elected <;> cases elected
  · rintro rfl
    rfl

theorem leads_of_elect {member : α} (elected : elect rank members = .leader member) : Leads rank key members member := by
  unfold elect at elected
  split at elected
  · cases elected
  rename_i top highest
  split at elected
  · rename_i leader only
    cases elected
    have alone (other : α) (there : other ∈ members) (high : rank other = top) : other = member := by
      have kept : other ∈ members.filter fun member => rank member = top :=
        List.mem_filter.mpr ⟨there, decide_eq_true high⟩
      rw [only] at kept
      exact List.mem_singleton.mp kept
    obtain ⟨there, high⟩ := List.mem_filter.mp (only ▸ List.mem_cons_self : member ∈ members.filter _)
    refine ⟨there, fun other inside different => lt_of_le_of_ne ?_ ?_⟩
    · have bound := (List.max?_eq_some_iff.mp highest).2 _ (List.mem_map_of_mem inside)
      exact bound.trans_eq (of_decide_eq_true high).symm
    · intro same
      exact different (congrArg key (alone other inside (same.trans (of_decide_eq_true high))))
  · cases elected

/-- A split is a tie. -/
theorem tied_of_elect (distinct : (members.map key).Nodup) (elected : elect rank members = .split) :
    Tied rank key members := by
  unfold elect at elected
  split at elected
  · cases elected
  rename_i top highest
  obtain ⟨reached, bound⟩ := List.max?_eq_some_iff.mp highest
  obtain ⟨best, inside, high⟩ := List.mem_map.mp reached
  have among : best ∈ members.filter fun member => rank member = top :=
    List.mem_filter.mpr ⟨inside, decide_eq_true high⟩
  have keys : ((members.filter fun member => rank member = top).map key).Nodup :=
    distinct.sublist (List.filter_sublist.map key)
  split at elected
  · cases elected
  rename_i several
  have leader (member : α) (kept : member ∈ members.filter fun member => rank member = top) :
      member ∈ members ∧ rank member = top :=
    ⟨(List.mem_filter.mp kept).1, of_decide_eq_true (List.mem_filter.mp kept).2⟩
  match leaders : members.filter fun member => rank member = top with
  | [] =>
    rw [leaders] at among
    cases among
  | [only] => exact absurd leaders (several only)
  | first :: second :: rest =>
    rw [leaders] at keys
    obtain ⟨firstIn, firstTop⟩ := leader first (leaders ▸ List.mem_cons_self)
    obtain ⟨secondIn, secondTop⟩ := leader second
      (leaders ▸ List.mem_cons_of_mem _ List.mem_cons_self)
    refine ⟨first, firstIn, second, secondIn, ?_, firstTop.trans secondTop.symm, fun other there => ?_⟩
    · intro same
      exact (List.nodup_cons.mp keys).1 (same ▸ List.mem_cons_self)
    · exact (bound _ (List.mem_map_of_mem there)).trans_eq firstTop.symm

theorem Leads.not_tied {member : α} (leads : Leads rank key members member) :
    ¬ Tied rank key members := by
  rintro ⟨first, firstIn, second, secondIn, different, same, highest⟩
  by_cases isFirst : key first = key member
  · have below := leads.2 second secondIn fun equal => different (isFirst.trans equal.symm)
    have above := highest member leads.1
    omega
  · have below := leads.2 first firstIn isFirst
    have above := highest member leads.1
    omega

theorem Leads.unique (distinct : (members.map key).Nodup) {member other : α}
    (leads : Leads rank key members member) (leads' : Leads rank key members other) :
    other = member := by
  by_cases same : key other = key member
  · exact List.inj_on_of_nodup_map distinct leads'.1 leads.1 same
  · have below := leads.2 other leads'.1 same
    have above := leads'.2 member leads.1 (Ne.symm same)
    omega

theorem elect_eq_leader (distinct : (members.map key).Nodup) {member : α} :
    elect rank members = .leader member ↔ Leads rank key members member := by
  refine ⟨leads_of_elect, fun leads => ?_⟩
  cases elected : elect rank members with
  | none =>
    have there := leads.1
    rw [elect_eq_none.mp elected] at there
    cases there
  | leader other => rw [leads.unique distinct (leads_of_elect elected)]
  | split => exact absurd (tied_of_elect distinct elected) leads.not_tied

theorem elect_eq_split (distinct : (members.map key).Nodup) :
    elect rank members = .split ↔ Tied rank key members := by
  refine ⟨tied_of_elect distinct, fun tied => ?_⟩
  cases elected : elect rank members with
  | none =>
    obtain ⟨first, there, -⟩ := tied
    rw [elect_eq_none.mp elected] at there
    cases there
  | leader member => exact absurd tied (leads_of_elect elected).not_tied
  | split => rfl

/-- The order in which the members come does not matter. -/
theorem elect_perm {other : List α} (distinct : (members.map key).Nodup) (perm : members.Perm other) :
    elect rank members = elect rank other := by
  have distinct' : (other.map key).Nodup := (perm.map key).nodup_iff.mp distinct
  cases elected : elect rank members with
  | none =>
    rw [elect_eq_none.mp elected] at perm
    exact (elect_eq_none.mpr (List.nil_perm.mp perm)).symm
  | leader member =>
    have leads : Leads rank key members member := leads_of_elect elected
    refine ((elect_eq_leader distinct').mpr ⟨perm.mem_iff.mp leads.1, fun other there => ?_⟩).symm
    exact leads.2 other (perm.mem_iff.mpr there)
  | split =>
    obtain ⟨first, firstIn, second, secondIn, tied⟩ := tied_of_elect distinct elected
    refine ((elect_eq_split distinct').mpr ⟨first, perm.mem_iff.mp firstIn, second,
      perm.mem_iff.mp secondIn, tied.1, tied.2.1, fun other there => ?_⟩).symm
    exact tied.2.2 other (perm.mem_iff.mpr there)

end Election
