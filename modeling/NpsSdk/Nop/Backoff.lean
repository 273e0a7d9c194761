import NpsSdk.Lib.Outcome
import NpsSdk.Nop.Models

/-! The delay before a retry, in 64-bit integers and as a retry policy computes it. -/
namespace Nps.Nop
open Outcome

inductive BackoffStrategy where
  | fixed | linear | exponential
deriving DecidableEq

def BackoffStrategy.text : BackoffStrategy → String
  | fixed => "fixed"
  | linear => "linear"
  | exponential => "exponential"

/-- Built with overflow checks, a result that is too long for 64 bits is none; built without them, it
is cut off. -/
inductive Overflow where
  | multiply
  | shiftLeft
deriving DecidableEq

def mulU64 (a b : UInt64) : Except Overflow UInt64 :=
  if a.toNat * b.toNat < 2 ^ 64 then .ok (a * b) else .error .multiply

def shlU64 (a : UInt64) (bits : UInt32) : Except Overflow UInt64 :=
  if bits.toNat < 64 then .ok (a <<< bits.toUInt64) else .error .shiftLeft

namespace BackoffStrategy

def computeDelayMs (strategy : BackoffStrategy) (baseMs maxMs : UInt64) (attempt : UInt32) :
    Except Overflow UInt64 := do
  let raw ← match strategy with
    | fixed => pure baseMs
    | linear => mulU64 baseMs (attempt.toUInt64 + 1)
    | exponential => mulU64 baseMs (← shlU64 1 attempt)
  return min raw maxMs

/-- How often the base is waited before the retry. -/
def factor (attempt : Nat) : BackoffStrategy → Nat
  | fixed => 1
  | linear => attempt + 1
  | exponential => 2 ^ attempt

theorem factor_mono (strategy : BackoffStrategy) {earlier later : Nat} (order : earlier ≤ later) :
    strategy.factor earlier ≤ strategy.factor later := by
  cases strategy with
  | fixed => exact Nat.le_refl 1
  | linear => exact Nat.succ_le_succ order
  | exponential => exact Nat.pow_le_pow_right Nat.two_pos order

def Fits (strategy : BackoffStrategy) (baseMs : UInt64) (attempt : UInt32) : Prop :=
  (strategy = exponential → attempt.toNat < 64) ∧ baseMs.toNat * strategy.factor attempt.toNat < 2 ^ 64

section Delays
variable {strategy : BackoffStrategy} {baseMs maxMs delay : UInt64} {attempt : UInt32}

theorem Fits.mono (fits : Fits strategy baseMs attempt) {earlier : UInt32} (order : earlier ≤ attempt) :
    Fits strategy baseMs earlier := by
  have order' : earlier.toNat ≤ attempt.toNat := UInt32.le_iff_toNat_le.mp order
  refine ⟨fun exponential => Nat.lt_of_le_of_lt order' (fits.1 exponential), ?_⟩
  exact Nat.lt_of_le_of_lt (Nat.mul_le_mul_left _ (factor_mono strategy order')) fits.2

theorem mulU64_ok {a b product : UInt64} :
    mulU64 a b = .ok product ↔ product.toNat = a.toNat * b.toNat := by
  unfold mulU64
  split
  · rename_i short
    rw [Except.ok.injEq, ← UInt64.toNat_inj, UInt64.toNat_mul, Nat.mod_eq_of_lt short, eq_comm]
  · rename_i long
    refine ⟨nofun, fun same => ?_⟩
    exact absurd product.toNat_lt (same ▸ long)

theorem shlU64_one {power : UInt64} :
    shlU64 1 attempt = .ok power ↔ attempt.toNat < 64 ∧ power.toNat = 2 ^ attempt.toNat := by
  unfold shlU64
  split
  · rename_i few
    have short : 2 ^ attempt.toNat < 2 ^ 64 := Nat.pow_lt_pow_right Nat.one_lt_two few
    have shifted : ((1 : UInt64) <<< attempt.toUInt64).toNat = 2 ^ attempt.toNat := by
      rw [UInt64.toNat_shiftLeft, UInt32.toNat_toUInt64, Nat.mod_eq_of_lt few, Nat.shiftLeft_eq,
        UInt64.toNat_one, Nat.one_mul, Nat.mod_eq_of_lt short]
    rw [Except.ok.injEq, ← UInt64.toNat_inj, shifted]
    simp [few, eq_comm]
  · rename_i many
    refine ⟨fun refused => ?_, fun both => absurd both.1 many⟩
    cases refused

theorem toUInt64_succ (attempt : UInt32) : (attempt.toUInt64 + 1).toNat = attempt.toNat + 1 := by
  have short := attempt.toNat_lt
  rw [UInt64.toNat_add, UInt32.toNat_toUInt64, UInt64.toNat_one]
  omega

/-- The delay is computed just when it fits, and is then the shorter of the mathematical one and the
longest allowed. -/
theorem computeDelayMs_ok : computeDelayMs strategy baseMs maxMs attempt = .ok delay ↔
    Fits strategy baseMs attempt ∧
      delay.toNat = min (baseMs.toNat * strategy.factor attempt.toNat) maxMs.toNat := by
  have clamped (raw : UInt64) : (pure (min raw maxMs) : Except Overflow UInt64) = .ok delay ↔
      delay.toNat = min raw.toNat maxMs.toNat := by
    rw [pure_eq, Except.ok.injEq, ← UInt64.toNat_inj, UInt64.toNat_min, eq_comm]
  have product (by_ : UInt64) : (∃ raw, mulU64 baseMs by_ = .ok raw ∧
      delay.toNat = min raw.toNat maxMs.toNat) ↔ baseMs.toNat * by_.toNat < 2 ^ 64 ∧
        delay.toNat = min (baseMs.toNat * by_.toNat) maxMs.toNat := by
    constructor
    · rintro ⟨raw, multiplied, same⟩
      rw [← mulU64_ok.mp multiplied]
      exact ⟨raw.toNat_lt, same⟩
    · rintro ⟨short, same⟩
      have raw : (baseMs * by_).toNat = baseMs.toNat * by_.toNat := by
        rw [UInt64.toNat_mul, Nat.mod_eq_of_lt short]
      exact ⟨baseMs * by_, mulU64_ok.mpr raw, raw ▸ same⟩
  cases strategy with
  | fixed =>
    have short := baseMs.toNat_lt
    change (pure (min baseMs maxMs) : Except Overflow UInt64) = _ ↔ _
    simp only [clamped, Fits, factor, Nat.mul_one, short, reduceCtorEq, false_implies, and_self,
      true_and]
  | linear =>
    simp only [computeDelayMs, bind_ok, clamped, product, toUInt64_succ, Fits, factor, reduceCtorEq,
      false_implies, true_and]
  | exponential =>
    simp only [computeDelayMs, bind_ok, clamped, product, Fits, factor, shlU64_one, true_implies]
    constructor
    · rintro ⟨power, ⟨few, same⟩, whole⟩
      rw [same] at whole
      exact ⟨⟨few, whole.1⟩, whole.2⟩
    · rintro ⟨⟨few, short⟩, same⟩
      have power : (UInt64.ofNat (2 ^ attempt.toNat)).toNat = 2 ^ attempt.toNat :=
        UInt64.toNat_ofNat_of_lt' (Nat.pow_lt_pow_right Nat.one_lt_two few)
      exact ⟨_, ⟨few, power⟩, by rw [power]; exact ⟨short, same⟩⟩

/-- The delay is the mathematical one up to the longest allowed, no earlier one is longer, and a retry
policy that says the same waits as long. -/
structure Meets (strategy : BackoffStrategy) (baseMs maxMs : UInt64) (attempt : UInt32)
    (delay : UInt64) : Prop where
  computed : computeDelayMs strategy baseMs maxMs attempt = .ok delay
  value : delay.toNat = min (baseMs.toNat * strategy.factor attempt.toNat) maxMs.toNat
  monotone : ∀ earlier ≤ attempt, ∃ before ≤ delay,
    computeDelayMs strategy baseMs maxMs earlier = .ok before
  policy : ∀ policy : RetryPolicy, policy.backoff = strategy.text →
    policy.initialDelayMs = baseMs.toNat → policy.maxDelayMs = maxMs.toNat →
      attempt.toNat < policy.maxRetries → policy.computeDelayMs attempt.toNat = delay.toNat

theorem policy_delay {policy : RetryPolicy} (same : policy.backoff = strategy.text) (attempt : Nat) :
    policy.computeDelayMs attempt =
      min (policy.initialDelayMs * strategy.factor attempt) policy.maxDelayMs := by
  cases strategy with
  | fixed => simp [RetryPolicy.computeDelayMs, same, text, factor]
  | linear => simp [RetryPolicy.computeDelayMs, same, text, factor]
  | exponential => simp [RetryPolicy.computeDelayMs, same, text, factor]

/-- The delay is what it should be just when what it is made of has 64 bits. -/
theorem delay_iff_fits (strategy : BackoffStrategy) (baseMs maxMs : UInt64) (attempt : UInt32) :
    (∃ delay, Meets strategy baseMs maxMs attempt delay) ↔ Fits strategy baseMs attempt := by
  constructor
  · rintro ⟨delay, meets⟩
    exact (computeDelayMs_ok.mp meets.computed).1
  · intro fits
    have delayed {earlier : UInt32} (order : earlier ≤ attempt) :
        ∃ delay, computeDelayMs strategy baseMs maxMs earlier = .ok delay ∧
          delay.toNat = min (baseMs.toNat * strategy.factor earlier.toNat) maxMs.toNat := by
      have short : min (baseMs.toNat * strategy.factor earlier.toNat) maxMs.toNat < 2 ^ 64 :=
        Nat.lt_of_le_of_lt (Nat.min_le_right ..) maxMs.toNat_lt
      have value := UInt64.toNat_ofNat_of_lt' short
      exact ⟨_, computeDelayMs_ok.mpr ⟨fits.mono order, value⟩, value⟩
    obtain ⟨delay, computed, value⟩ := delayed (UInt32.le_refl attempt)
    refine ⟨delay, computed, value, fun earlier order => ?_, fun policy backoff base max _ => ?_⟩
    · obtain ⟨before, computed', value'⟩ := delayed order
      refine ⟨before, UInt64.le_iff_toNat_le.mpr ?_, computed'⟩
      have scaled := Nat.mul_le_mul_left baseMs.toNat
        (factor_mono strategy (UInt32.le_iff_toNat_le.mp order))
      omega
    · rw [policy_delay backoff, base, max, value]

/-- The 64th doubling is shifted out, however short the longest delay is. -/
theorem doubling_overflows : ¬ ∀ (strategy : BackoffStrategy) (baseMs maxMs : UInt64)
    (attempt : UInt32), ∃ delay, Meets strategy baseMs maxMs attempt delay := by
  intro always
  obtain ⟨delay, meets⟩ := always exponential 1000 30000 64
  have fits := (computeDelayMs_ok.mp meets.computed).1
  exact absurd (fits.1 rfl) (by decide)

end Delays
end BackoffStrategy
end Nps.Nop
