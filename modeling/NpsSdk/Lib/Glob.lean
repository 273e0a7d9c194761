import Mathlib.Algebra.GroupWithZero.Nat
import Mathlib.Algebra.Order.BigOperators.Group.List
import Mathlib.Algebra.Order.Group.Nat
import Mathlib.Data.List.Basic

/-! Patterns with two wildcards, one for any run of symbols and one for a single symbol. Where a symbol is made
of several units, a matcher of units fills a run of wildcards by their number: for which patterns and
for which texts that makes no difference. -/
namespace Glob
variable {α : Type}

inductive Language (any one : α) : List α → List α → Prop where
  | nil : Language any one [] []
  | any {pattern rest : List α} (run : List α) :
    Language any one pattern rest → Language any one (any :: pattern) (run ++ rest)
  | one {pattern rest : List α} (symbol : α) :
    Language any one pattern rest → Language any one (one :: pattern) (symbol :: rest)
  | same {symbol : α} {pattern rest : List α} : symbol ≠ any → symbol ≠ one →
    Language any one pattern rest → Language any one (symbol :: pattern) (symbol :: rest)

section
variable {any one symbol : α} {pattern text : List α}

theorem language_nil : Language any one [] text ↔ text = [] := by
  constructor
  · rintro ⟨⟩
    rfl
  · rintro rfl
    exact .nil

theorem language_any : Language any one (any :: pattern) text ↔ Language any one pattern text ∨
    ∃ symbol rest, text = symbol :: rest ∧ Language any one (any :: pattern) rest := by
  constructor
  · intro member
    generalize whole : any :: pattern = p at member
    cases member with
    | nil => cases whole
    | any run inside =>
      cases whole
      cases run with
      | nil => exact .inl inside
      | cons symbol run => exact .inr ⟨symbol, _, rfl, .any run inside⟩
    | one symbol inside =>
      cases whole
      exact .inr ⟨symbol, _, rfl, .any [] inside⟩
    | same plain => exact absurd (List.cons.inj whole).1.symm plain
  · rintro (inside | ⟨symbol, rest, rfl, inside⟩)
    · exact .any [] inside
    · generalize whole : any :: pattern = p at inside
      cases inside with
      | nil => cases whole
      | any run inside =>
        cases whole
        exact .any (symbol :: run) inside
      | one first inside =>
        cases whole
        exact .any [symbol, first] inside
      | same plain => exact absurd (List.cons.inj whole).1.symm plain

theorem language_one (different : any ≠ one) : Language any one (one :: pattern) text ↔
    ∃ symbol rest, text = symbol :: rest ∧ Language any one pattern rest := by
  constructor
  · intro member
    generalize whole : one :: pattern = p at member
    cases member with
    | nil => cases whole
    | any => exact absurd (List.cons.inj whole).1.symm different
    | one symbol inside =>
      cases whole
      exact ⟨symbol, _, rfl, inside⟩
    | same _ plain => exact absurd (List.cons.inj whole).1.symm plain
  · rintro ⟨symbol, rest, rfl, inside⟩
    exact .one symbol inside

theorem language_same (plain : symbol ≠ any) (plain' : symbol ≠ one) :
    Language any one (symbol :: pattern) text ↔
      ∃ rest, text = symbol :: rest ∧ Language any one pattern rest := by
  constructor
  · intro member
    generalize whole : symbol :: pattern = p at member
    cases member with
    | nil => cases whole
    | any => exact absurd (List.cons.inj whole).1 plain
    | one => exact absurd (List.cons.inj whole).1 plain'
    | same _ _ inside =>
      cases whole
      exact ⟨_, rfl, inside⟩
  · rintro ⟨rest, rfl, inside⟩
    exact .same plain plain' inside

/-- Symbols that stand for themselves. -/
theorem language_append {literal : List α} (plain : ∀ symbol ∈ literal, symbol ≠ any ∧ symbol ≠ one) :
    Language any one (literal ++ pattern) text ↔
      ∃ rest, text = literal ++ rest ∧ Language any one pattern rest := by
  induction literal generalizing text with
  | nil => simp
  | cons symbol literal ih =>
    obtain ⟨star, mark⟩ := plain symbol List.mem_cons_self
    rw [List.cons_append, language_same star mark]
    constructor
    · rintro ⟨_, rfl, inside⟩
      obtain ⟨rest, rfl, later⟩ := (ih fun c member => plain c (List.mem_cons_of_mem _ member)).mp inside
      exact ⟨rest, rfl, later⟩
    · rintro ⟨rest, rfl, inside⟩
      exact ⟨_, rfl, (ih fun c member => plain c (List.mem_cons_of_mem _ member)).mpr ⟨rest, rfl, inside⟩⟩

end

structure Run where
  least : Nat := 0
  more : Bool := false
deriving DecidableEq

def Run.Fits (run : Run) (n : Nat) : Prop := run.least ≤ n ∧ (run.more = false → n = run.least)

theorem Run.fits_least (run : Run) : run.Fits run.least := ⟨Nat.le_refl _, fun _ => rfl⟩

theorem Run.fits_one {run : Run} {n : Nat} :
    Run.Fits { run with least := run.least + 1 } n ↔ ∃ m, n = m + 1 ∧ run.Fits m := by
  simp only [Fits]
  constructor
  · rintro ⟨enough, exactly⟩
    exact ⟨n - 1, by omega, by omega, fun closed => by have := exactly closed; omega⟩
  · rintro ⟨m, rfl, enough, exactly⟩
    exact ⟨by omega, fun closed => by rw [exactly closed]⟩

theorem Run.fits_any {run : Run} {n : Nat} : Run.Fits { run with more := true } n ↔
    run.Fits n ∨ ∃ m, n = m + 1 ∧ Run.Fits { run with more := true } m := by
  simp only [Fits]
  constructor
  · rintro ⟨enough, -⟩
    rcases Nat.eq_or_lt_of_le enough with equal | more
    · exact .inl ⟨enough, fun _ => equal.symm⟩
    · exact .inr ⟨n - 1, by omega, by omega, nofun⟩
  · rintro (⟨enough, -⟩ | ⟨m, rfl, enough, -⟩)
    · exact ⟨enough, nofun⟩
    · exact ⟨by omega, nofun⟩

/-- The first run of a pattern, and every other symbol with the run after it. -/
def runs [DecidableEq α] (any one : α) : List α → Run × List (α × Run)
  | [] => ({}, [])
  | symbol :: pattern =>
    let (first, rest) := runs any one pattern
    if symbol = any then ({ first with more := true }, rest)
    else if symbol = one then ({ first with least := first.least + 1 }, rest)
    else ({}, (symbol, first) :: rest)

def weight (size : α → Nat) (text : List α) : Nat := (text.map size).sum

/-- What follows the first run: each symbol, and what fills the run after it. -/
def Follows (size : α → Nat) : List (α × Run) → List α → Prop
  | [], text => text = []
  | (symbol, run) :: rest, text => ∃ front back, text = symbol :: (front ++ back) ∧
      run.Fits (weight size front) ∧ Follows size rest back

/-- So many units and then a text, of which the front fills the first run. -/
def Filled (size : α → Nat) (k : Nat) (run : Run) (rest : List (α × Run)) (text : List α) : Prop :=
  ∃ front back, text = front ++ back ∧ run.Fits (k + weight size front) ∧ Follows size rest back

theorem follows_cons {size : α → Nat} {symbol : α} {run : Run} {rest : List (α × Run)} {text : List α} :
    Follows size ((symbol, run) :: rest) text ↔
      ∃ back, text = symbol :: back ∧ Filled size 0 run rest back := by
  simp only [Follows, Filled, Nat.zero_add]
  constructor
  · rintro ⟨front, back, rfl, fits, later⟩
    exact ⟨_, rfl, front, back, rfl, fits, later⟩
  · rintro ⟨_, rfl, front, back, rfl, fits, later⟩
    exact ⟨front, back, rfl, fits, later⟩

/-- One unit off: of those that are left of a symbol, or the first of the next symbol. -/
inductive Pop (size : α → Nat) : Nat → List α → Nat → List α → Prop where
  | unit (k : Nat) (text : List α) : Pop size (k + 1) text k text
  | symbol (symbol : α) (text : List α) : Pop size 0 (symbol :: text) (size symbol - 1) text

theorem pop_single {text : List α} {P : Nat → List α → Prop} :
    (∃ k' text', Pop (fun _ => 1) 0 text k' text' ∧ P k' text') ↔
      ∃ symbol rest, text = symbol :: rest ∧ P 0 rest := by
  constructor
  · rintro ⟨k', text', ⟨⟩, holds⟩
    exact ⟨_, _, rfl, holds⟩
  · rintro ⟨symbol, rest, rfl, holds⟩
    exact ⟨0, rest, .symbol symbol rest, holds⟩

section
variable {size : α → Nat} (positive : ∀ symbol, 0 < size symbol)
include positive

/-- A front of one unit more is a front after one unit. -/
theorem pop_front {k : Nat} {text : List α} {P : Nat → Prop} {Q : List α → Prop} :
    (∃ front back, text = front ++ back ∧ (∃ m, k + weight size front = m + 1 ∧ P m) ∧ Q back) ↔
      ∃ k' text', Pop size k text k' text' ∧
        ∃ front back, text' = front ++ back ∧ P (k' + weight size front) ∧ Q back := by
  constructor
  · rintro ⟨front, back, rfl, ⟨m, count, holds⟩, later⟩
    cases k with
    | succ k =>
      refine ⟨k, _, .unit k _, front, back, rfl, ?_, later⟩
      rwa [show k + weight size front = m by omega]
    | zero =>
      cases front with
      | nil => cases count
      | cons symbol front =>
        have some_ := positive symbol
        simp only [weight, List.map_cons, List.sum_cons] at count
        refine ⟨_, _, .symbol symbol _, front, back, rfl, ?_, later⟩
        rwa [show size symbol - 1 + weight size front = m by rw [weight]; omega]
  · rintro ⟨k', text', pop, front, back, rfl, holds, later⟩
    cases pop with
    | unit => exact ⟨front, back, rfl, ⟨_, by omega, holds⟩, later⟩
    | symbol symbol =>
      have some_ := positive symbol
      refine ⟨symbol :: front, back, rfl, ⟨_, ?_, holds⟩, later⟩
      simp only [weight, List.map_cons, List.sum_cons]
      omega

theorem weight_eq_zero {text : List α} : weight size text = 0 ↔ text = [] := by
  cases text with
  | nil => exact ⟨fun _ => rfl, fun _ => rfl⟩
  | cons symbol text =>
    have some_ := positive symbol
    simp only [weight, List.map_cons, List.sum_cons, List.cons_ne_nil, iff_false]
    omega

theorem filled_closed {k : Nat} {rest : List (α × Run)} {text : List α} :
    Filled size k {} rest text ↔ k = 0 ∧ Follows size rest text := by
  constructor
  · rintro ⟨front, back, rfl, ⟨-, exactly⟩, later⟩
    have none : k + weight size front = 0 := exactly rfl
    obtain rfl := (weight_eq_zero positive).mp (by omega : weight size front = 0)
    exact ⟨by omega, later⟩
  · rintro ⟨rfl, later⟩
    exact ⟨[], text, rfl, Run.fits_least _, later⟩

theorem filled_one {k : Nat} {run : Run} {rest : List (α × Run)} {text : List α} :
    Filled size k { run with least := run.least + 1 } rest text ↔
      ∃ k' text', Pop size k text k' text' ∧ Filled size k' run rest text' := by
  simp only [Filled, Run.fits_one]
  exact pop_front positive

theorem filled_any {k : Nat} {run : Run} {rest : List (α × Run)} {text : List α} :
    Filled size k { run with more := true } rest text ↔ Filled size k run rest text ∨
      ∃ k' text', Pop size k text k' text' ∧ Filled size k' { run with more := true } rest text' := by
  have popped := @pop_front α size positive k text (Run.Fits { run with more := true })
    (Follows size rest)
  rw [Filled, Filled]
  refine .trans ?_ (or_congr_right popped)
  rw [← exists_or]
  refine exists_congr fun front => ?_
  rw [← exists_or]
  refine exists_congr fun back => ?_
  rw [Run.fits_any, or_and_right, and_or_left]

end

section
variable [DecidableEq α] (any one : α)

/-- So many units and then a text match the pattern, counted in units. -/
def Stands (size : α → Nat) (k : Nat) (pattern text : List α) : Prop :=
  Filled size k (runs any one pattern).1 (runs any one pattern).2 text

section
variable {size : α → Nat} (positive : ∀ symbol, 0 < size symbol) {k : Nat} {pattern text : List α}
include positive

theorem stands_nil : Stands any one size k [] text ↔ k = 0 ∧ text = [] := filled_closed positive

theorem stands_any : Stands any one size k (any :: pattern) text ↔ Stands any one size k pattern text ∨
    ∃ k' text', Pop size k text k' text' ∧ Stands any one size k' (any :: pattern) text' := by
  simp only [Stands, runs, if_true]
  exact filled_any positive

variable {any one}

theorem stands_one (different : any ≠ one) : Stands any one size k (one :: pattern) text ↔
    ∃ k' text', Pop size k text k' text' ∧ Stands any one size k' pattern text' := by
  simp only [Stands, runs, if_neg different.symm, if_true]
  exact filled_one positive

theorem stands_same {symbol : α} (plain : symbol ≠ any) (plain' : symbol ≠ one) :
    Stands any one size k (symbol :: pattern) text ↔
      k = 0 ∧ ∃ back, text = symbol :: back ∧ Stands any one size 0 pattern back := by
  simp only [Stands, runs, if_neg plain, if_neg plain', filled_closed positive, follows_cons]

end

variable {any one}

/-- A matcher of symbols accepts the language. -/
theorem language_iff (different : any ≠ one) {pattern text : List α} :
    Language any one pattern text ↔ Stands any one (fun _ => 1) 0 pattern text := by
  have positive : ∀ symbol : α, 0 < (fun _ : α => 1) symbol := fun _ => Nat.one_pos
  induction pattern generalizing text with
  | nil => rw [language_nil, stands_nil any one positive, and_iff_right rfl]
  | cons symbol pattern ih =>
    by_cases star : symbol = any
    · subst star
      induction text with
      | nil =>
        rw [language_any, stands_any symbol one positive, pop_single]
        refine or_congr ih (exists_congr fun _ => exists_congr fun _ => and_congr_right fun same => ?_)
        cases same
      | cons first rest ihText =>
        rw [language_any, stands_any symbol one positive, pop_single]
        refine or_congr ih (exists_congr fun _ => exists_congr fun _ => and_congr_right fun same => ?_)
        cases same
        exact ihText
    · by_cases mark : symbol = one
      · subst mark
        rw [language_one different, stands_one positive different, pop_single]
        simp only [ih]
      · rw [language_same star mark, stands_same positive star mark, and_iff_right rfl]
        simp only [ih]

/-- A run that is filled by as many units as symbols: nothing, anything, or anything but nothing. -/
def Run.Steady (run : Run) : Prop := run.least = 0 ∨ run.least = 1 ∧ run.more = true

variable (any one) in
def allRuns (pattern : List α) : List Run :=
  (runs any one pattern).1 :: (runs any one pattern).2.map Prod.snd

variable (any one) in
def Steady (pattern : List α) : Prop := ∀ run ∈ allRuns any one pattern, run.Steady

end

theorem weight_single (text : List α) : weight (fun _ => 1) text = text.length := by
  simp [weight]

theorem weight_append (size : α → Nat) (front back : List α) :
    weight size (front ++ back) = weight size front + weight size back := by
  simp [weight]

theorem weight_replicate (size : α → Nat) (n : Nat) (symbol : α) :
    weight size (List.replicate n symbol) = n * size symbol := by
  simp [weight]

section
variable {size : α → Nat} {run : Run} {rest : List (α × Run)} {text : List α}

theorem Run.Steady.fits_iff (steady : run.Steady) (positive : ∀ symbol, 0 < size symbol) :
    run.Fits (weight size text) ↔ run.Fits text.length := by
  have none := @weight_eq_zero _ _ positive text
  have none' := @List.length_eq_zero_iff _ text
  rw [← none] at none'
  simp only [Fits]
  rcases steady with least | ⟨least, more⟩
  · rw [least]
    exact and_congr (iff_of_true (Nat.zero_le _) (Nat.zero_le _)) (imp_congr_right fun _ => none'.symm)
  · rw [least, more]
    simp only [Bool.true_eq_false, false_imp_iff, and_true]
    omega

theorem follows_congr {size' : α → Nat} (alike : ∀ run ∈ rest.map Prod.snd, ∀ front, front ⊆ text →
    (run.Fits (weight size front) ↔ run.Fits (weight size' front))) :
    Follows size rest text ↔ Follows size' rest text := by
  induction rest generalizing text with
  | nil => rfl
  | cons entry rest ih =>
    obtain ⟨symbol, run⟩ := entry
    refine exists_congr fun front => exists_congr fun back => and_congr_right fun whole => ?_
    have inFront : front ⊆ text := fun c member => by simp [whole, member]
    have inBack : back ⊆ text := fun c member => by simp [whole, member]
    refine and_congr (alike run List.mem_cons_self front inFront) (ih fun run member front' inside => ?_)
    exact alike run (List.mem_cons_of_mem _ member) front' fun c within => inBack (inside within)

theorem filled_congr {size' : α → Nat} (alike : ∀ r ∈ run :: rest.map Prod.snd, ∀ front, front ⊆ text →
    (r.Fits (weight size front) ↔ r.Fits (weight size' front))) :
    Filled size 0 run rest text ↔ Filled size' 0 run rest text := by
  refine exists_congr fun front => exists_congr fun back => and_congr_right fun whole => ?_
  have inFront : front ⊆ text := fun c member => by simp [whole, member]
  have inBack : back ⊆ text := fun c member => by simp [whole, member]
  rw [Nat.zero_add, Nat.zero_add]
  refine and_congr (alike run List.mem_cons_self front inFront) (follows_congr fun r member front' inside => ?_)
  exact alike r (List.mem_cons_of_mem _ member) front' fun c within => inBack (inside within)

def fill (choose : Run → List α) (rest : List (α × Run)) : List α :=
  rest.flatMap fun entry => entry.1 :: choose entry.2

theorem follows_fill {choose : Run → List α}
    (fits : ∀ r ∈ rest.map Prod.snd, r.Fits (weight size (choose r))) :
    Follows size rest (fill choose rest) := by
  induction rest with
  | nil => rfl
  | cons entry rest ih =>
    refine ⟨choose entry.2, fill choose rest, rfl, fits _ List.mem_cons_self, ih fun r member => ?_⟩
    exact fits r (List.mem_cons_of_mem _ member)

theorem filled_fill {choose : Run → List α}
    (fits : ∀ r ∈ run :: rest.map Prod.snd, r.Fits (weight size (choose r))) :
    Filled size 0 run rest (choose run ++ fill choose rest) := by
  refine ⟨choose run, _, rfl, ?_, follows_fill fun r member => fits r (List.mem_cons_of_mem _ member)⟩
  rw [Nat.zero_add]
  exact fits run List.mem_cons_self

theorem length_fill (choose : Run → List α) (rest : List (α × Run)) : (fill choose rest).length =
    ((rest.map Prod.snd).map fun r => (choose r).length).sum + rest.length := by
  induction rest with
  | nil => rfl
  | cons entry rest ih =>
    rw [fill] at ih ⊢
    simp only [List.flatMap_cons, List.length_append, List.length_cons, List.map_cons, List.sum_cons, ih]
    omega

/-- Symbol by symbol, no text is shorter than its pattern. -/
theorem length_of_follows (follows : Follows (fun _ => 1) rest text) :
    ((rest.map Prod.snd).map Run.least).sum + rest.length ≤ text.length := by
  induction rest generalizing text with
  | nil => exact Nat.zero_le _
  | cons entry rest ih =>
    obtain ⟨front, back, rfl, fits, later⟩ := follows
    have shorter := ih later
    have least := fits.1
    rw [weight_single] at least
    simp only [List.map_cons, List.sum_cons, List.length_cons, List.length_append]
    omega

theorem length_of_filled (filled : Filled (fun _ => 1) 0 run rest text) :
    ((run :: rest.map Prod.snd).map Run.least).sum + rest.length ≤ text.length := by
  obtain ⟨front, back, rfl, fits, later⟩ := filled
  have shorter := length_of_follows later
  have least := fits.1
  rw [weight_single] at least
  simp only [List.map_cons, List.sum_cons, List.length_append]
  omega

variable [DecidableEq α] {symbol : α}

def others (symbol : α) (text : List α) : Nat := text.countP (· ≠ symbol)

theorem eq_replicate_of_others (none : others symbol text = 0) :
    text = List.replicate text.length symbol := by
  refine List.eq_replicate_of_mem fun c member => ?_
  simpa using List.countP_eq_zero.mp none c member

theorem others_replicate (n : Nat) : others symbol (List.replicate n symbol) = 0 := by
  refine List.countP_eq_zero.mpr fun c member => ?_
  simpa using List.eq_of_mem_replicate member

/-- A text with no more of the other symbols than its pattern fills each run with this symbol. -/
theorem others_of_follows (follows : Follows size rest text) :
    others symbol (rest.map Prod.fst) ≤ others symbol text ∧
      (others symbol text = others symbol (rest.map Prod.fst) →
        ∀ r ∈ rest.map Prod.snd, ∃ m, r.Fits (m * size symbol)) := by
  induction rest generalizing text with
  | nil => exact ⟨Nat.zero_le _, fun _ _ => nofun⟩
  | cons entry rest ih =>
    obtain ⟨front, back, rfl, fits, later⟩ := follows
    obtain ⟨fewer, only⟩ := ih later
    simp only [others, List.map_cons, List.countP_cons, List.countP_append] at fewer only ⊢
    refine ⟨by omega, fun same r member => ?_⟩
    rcases List.mem_cons.mp member with rfl | member
    · have plain := eq_replicate_of_others (by rw [others]; omega : others symbol front = 0)
      rw [plain, weight_replicate] at fits
      exact ⟨_, fits⟩
    · exact only (by omega) r member

theorem others_of_filled (filled : Filled size 0 run rest text)
    (same : others symbol text = others symbol (rest.map Prod.fst)) :
    ∀ r ∈ run :: rest.map Prod.snd, ∃ m, r.Fits (m * size symbol) := by
  obtain ⟨front, back, rfl, fits, later⟩ := filled
  obtain ⟨fewer, only⟩ := @others_of_follows _ _ _ _ _ symbol later
  simp only [others, List.countP_append] at same fewer only
  intro r member
  rcases List.mem_cons.mp member with rfl | member
  · have plain := eq_replicate_of_others (by rw [others]; omega : others symbol front = 0)
    rw [plain, weight_replicate, Nat.zero_add] at fits
    exact ⟨_, fits⟩
  · exact only (by omega) r member

theorem others_fill (count : Run → Nat) (rest : List (α × Run)) :
    others symbol (fill (fun r => List.replicate (count r) symbol) rest) =
      others symbol (rest.map Prod.fst) := by
  induction rest with
  | nil => rfl
  | cons entry rest ih =>
    have none := @others_replicate _ _ symbol (count entry.2)
    simp only [fill, others, List.flatMap_cons, List.map_cons, List.cons_append, List.countP_cons,
      List.countP_append] at ih none ⊢
    omega

variable {any one wide narrow : α} {pattern : List α}

theorem stands_of_steady (different : any ≠ one) (positive : ∀ symbol, 0 < size symbol)
    (steady : Steady any one pattern) :
    Stands any one size 0 pattern text ↔ Language any one pattern text := by
  rw [language_iff different]
  refine filled_congr fun r member front _ => ?_
  rw [(steady r member).fits_iff positive, weight_single]

theorem stands_of_narrow (different : any ≠ one) (single : ∀ symbol ∈ text, size symbol = 1) :
    Stands any one size 0 pattern text ↔ Language any one pattern text := by
  rw [language_iff different]
  refine filled_congr fun r _ front inside => ?_
  have same : weight size front = weight (fun _ => 1) front :=
    congrArg List.sum (List.map_congr_left fun c member => single c (inside member))
  rw [same]

/-- Two narrow symbols in one wide one: fewer symbols than the pattern takes. -/
theorem differs_of_two (different : any ≠ one) (two : size wide = 2) (single : size narrow = 1) {bad : Run}
    (member : bad ∈ allRuns any one pattern) (many : 2 ≤ bad.least) :
    ∃ text, Stands any one size 0 pattern text ∧ ¬ Language any one pattern text := by
  let choose (r : Run) : List α :=
    if 2 ≤ r.least then wide :: List.replicate (r.least - 2) narrow else List.replicate r.least narrow
  have fits (r : Run) : r.Fits (weight size (choose r)) := by
    have least : weight size (choose r) = r.least := by
      dsimp only [choose]
      split_ifs with twice
      · rw [← List.singleton_append, weight_append, weight_replicate, single]
        simp only [weight, List.map_cons, List.map_nil, List.sum_cons, List.sum_nil, two]
        omega
      · rw [weight_replicate, single, Nat.mul_one]
    rw [least]
    exact r.fits_least
  have shorter (r : Run) : (choose r).length ≤ r.least := by
    dsimp only [choose]
    split_ifs with twice
    · rw [List.length_cons, List.length_replicate]
      omega
    · rw [List.length_replicate]
  have shortest : (choose bad).length < bad.least := by
    dsimp only [choose]
    rw [if_pos many, List.length_cons, List.length_replicate]
    omega
  refine ⟨_, filled_fill fun r _ => fits r, fun inside => ?_⟩
  have least := length_of_filled ((language_iff different).mp inside)
  have total := List.sum_lt_sum (fun r => (choose r).length) Run.least (fun r _ => shorter r)
    ⟨bad, member, shortest⟩
  simp only [allRuns, List.map_cons, List.sum_cons] at total
  rw [List.length_append, length_fill] at least
  simp only [List.map_cons, List.sum_cons] at least
  omega

/-- A wide symbol where the pattern takes a single one: no run is filled by anything else. -/
theorem differs_of_one (different : any ≠ one) (two : size wide = 2) {bad : Run}
    (member : bad ∈ allRuns any one pattern) (single : bad.least = 1) (closed : bad.more = false) :
    ∃ text, Language any one pattern text ∧ ¬ Stands any one size 0 pattern text := by
  have fits (r : Run) : r.Fits (weight (fun _ => 1) (List.replicate r.least wide)) := by
    rw [weight_single, List.length_replicate]
    exact r.fits_least
  refine ⟨_, (language_iff different).mpr (filled_fill fun r _ => fits r), fun filled => ?_⟩
  have same : others wide (List.replicate (runs any one pattern).1.least wide ++
      fill (fun r => List.replicate r.least wide) (runs any one pattern).2) =
        others wide ((runs any one pattern).2.map Prod.fst) := by
    have first := @others_replicate _ _ wide (runs any one pattern).1.least
    have later := @others_fill _ _ wide Run.least (runs any one pattern).2
    simp only [others, List.countP_append] at first later ⊢
    omega
  obtain ⟨m, -, exactly⟩ := others_of_filled filled same bad member
  have even := exactly closed
  rw [two, single] at even
  omega

/-- Counting units accepts the language of a pattern just when every run of its wildcards is filled by
as many units as symbols. -/
theorem stands_all_iff (different : any ≠ one) (positive : ∀ symbol, 0 < size symbol)
    (two : size wide = 2) (single : size narrow = 1) :
    (∀ text, Stands any one size 0 pattern text ↔ Language any one pattern text) ↔
      Steady any one pattern := by
  refine ⟨fun same bad member => ?_, fun steady _ => stands_of_steady different positive steady⟩
  rcases Nat.lt_or_ge bad.least 2 with few | many
  · by_cases least : bad.least = 0
    · exact .inl least
    · refine .inr ⟨by omega, ?_⟩
      cases more : bad.more with
      | true => rfl
      | false =>
        obtain ⟨text, inside, outside⟩ := differs_of_one different two member (by omega) more
        exact absurd ((same text).mpr inside) outside
  · obtain ⟨text, stands, outside⟩ := differs_of_two different two single member many
    exact absurd ((same text).mp stands) outside

theorem runs_replicate (different : any ≠ one) (n : Nat) :
    runs any one (List.replicate n one) = ({ least := n }, []) := by
  induction n with
  | zero => rfl
  | succ n ih => rw [List.replicate_succ, runs, ih]; simp [different.symm]

/-- Counting units is right about a text, whatever the pattern, just when its symbols are single units. -/
theorem every_pattern_iff (different : any ≠ one) (positive : ∀ symbol, 0 < size symbol) :
    (∀ pattern, Stands any one size 0 pattern text ↔ Language any one pattern text) ↔
      ∀ symbol ∈ text, size symbol = 1 := by
  refine ⟨fun same => ?_, fun single _ => stands_of_narrow different single⟩
  have inside : Language any one (List.replicate text.length one) text := by
    rw [language_iff different, Stands, runs_replicate different]
    refine ⟨text, [], (List.append_nil text).symm, ?_, rfl⟩
    rw [Nat.zero_add, weight_single]
    exact Run.fits_least _
  have stands := (same _).mpr inside
  rw [Stands, runs_replicate different] at stands
  obtain ⟨front, back, whole, ⟨-, exactly⟩, rfl⟩ := stands
  obtain rfl := whole.trans (List.append_nil front)
  have total : weight size text = text.length := by simpa using exactly rfl
  intro symbol member
  by_contra wide
  have more := List.sum_lt_sum (fun _ => 1) size (fun symbol _ => positive symbol)
    ⟨symbol, member, by have := positive symbol; omega⟩
  have count := weight_single text
  rw [weight] at total count
  omega

end
end Glob
