import Mathlib.Algebra.Order.Archimedean.Basic
import Mathlib.Algebra.Order.Ring.Unbundled.Rat
import Mathlib.Data.Rat.Cast.Order
import Mathlib.Tactic.Linarith
import ClusterJobs.Proofs.Retrying

/-!
# Delays without rounding

Where delays are exact numbers of milliseconds, the delays before jitter grow by a factor from the first
one on, as long as they stay within the longest one. The first delay itself is not held to that bound. A
delay that is negative or too long is no duration, and nothing can pause for it.
-/

namespace ClusterJobs

/-- So many milliseconds are a duration: they are not negative, and less than `2 ^ 64` seconds. -/
def isDuration (ms : Rat) : Bool :=
  0 ≤ ms && ms < 18446744073709551616000

/-- Delays in milliseconds that are multiplied exactly, after attempts without number. -/
instance : Pacing Rat Rat where
  counts _ := true
  stretch? delay jitter := (some (delay * jitter)).filter isDuration
  grow? delay multiplier longest := (some (min (delay * multiplier) longest)).filter isDuration
  ticks pause := pause.ceil.toNat

/-- A backoff whose delays are exact numbers of milliseconds. -/
abbrev ExactBackoff := Backoff Rat Rat

namespace Backoff

/-- The standard backoff, with its delays in milliseconds. -/
def exactStandard : ExactBackoff := ⟨0, 500, 10000, 2⟩

/-- The delay after attempt `k`, before jitter. -/
def delayAfter (b : ExactBackoff) : Nat → Rat
  | 0 => b.initialDelay
  | k + 1 => min (b.delayAfter k * b.multiplier) b.maxDelay

variable {b : ExactBackoff} {jitter : Nat → Rat} {d d' : Rat} {k n : Nat}

/-! ## Durations -/

theorem isDuration_iff : isDuration d = true ↔ 0 ≤ d ∧ d < 18446744073709551616000 := by
  simp [isDuration]

theorem isDuration_of_le (hd : isDuration d = true) (hnonneg : 0 ≤ d') (hle : d' ≤ d) :
    isDuration d' = true :=
  isDuration_iff.2 ⟨hnonneg, hle.trans_lt (isDuration_iff.1 hd).2⟩

/-! ## Delays -/

theorem delayAfter_succ (b : ExactBackoff) (k : Nat) :
    b.delayAfter (k + 1) = min (b.delayAfter k * b.multiplier) b.maxDelay :=
  rfl

theorem delayAfter_succ_le (b : ExactBackoff) (k : Nat) : b.delayAfter (k + 1) ≤ b.maxDelay := by
  rw [delayAfter_succ]
  exact min_le_right _ _

/-- All delays but the first are held to the longest one. -/
theorem delayAfter_eq_or_le (b : ExactBackoff) (k : Nat) :
    b.delayAfter k = b.initialDelay ∨ b.delayAfter k ≤ b.maxDelay := by
  cases k with
  | zero => exact .inl rfl
  | succ k => exact .inr (b.delayAfter_succ_le k)

theorem delayAfter_nonneg (hinitial : 0 ≤ b.initialDelay) (hmax : 0 ≤ b.maxDelay)
    (hmultiplier : 0 ≤ b.multiplier) (k : Nat) : 0 ≤ b.delayAfter k := by
  induction k with
  | zero => exact hinitial
  | succ k ih =>
    rw [delayAfter_succ]
    exact le_min (mul_nonneg ih hmultiplier) hmax

/-- Up to the longest delay, the delays are the powers of the factor times the first one. -/
theorem min_delayAfter (hmax : 0 ≤ b.maxDelay) (hmultiplier : 1 ≤ b.multiplier) (k : Nat) :
    min (b.delayAfter k) b.maxDelay = min (b.initialDelay * b.multiplier ^ k) b.maxDelay := by
  induction k with
  | zero => rw [delayAfter, pow_zero, mul_one]
  | succ k ih =>
    have hgrows : b.maxDelay ≤ b.maxDelay * b.multiplier := le_mul_of_one_le_right hmax hmultiplier
    have hpos : (0 : Rat) ≤ b.multiplier := zero_le_one.trans hmultiplier
    calc min (b.delayAfter (k + 1)) b.maxDelay
        = min (b.delayAfter k * b.multiplier) b.maxDelay := by
          rw [delayAfter_succ, min_assoc, min_self]
      _ = min (min (b.delayAfter k) b.maxDelay * b.multiplier) b.maxDelay := by
          rw [min_mul_of_nonneg _ _ hpos, min_assoc, min_eq_right hgrows]
      _ = min (min (b.initialDelay * b.multiplier ^ k) b.maxDelay * b.multiplier) b.maxDelay := by
          rw [ih]
      _ = min (b.initialDelay * b.multiplier ^ (k + 1)) b.maxDelay := by
          rw [min_mul_of_nonneg _ _ hpos, min_assoc, min_eq_right hgrows, mul_assoc, ← pow_succ]

/-! ## Pauses -/

theorem filter_isDuration_of_eq (h : (some d).filter isDuration = some d') : d' = d := by
  rw [Option.filter_some] at h
  split at h
  · exact (Option.some.inj h).symm
  · cases h

theorem eq_delayAfter (h : b.delay? k = some d) : d = b.delayAfter k := by
  induction k generalizing d with
  | zero => exact (Option.some.inj h).symm
  | succ k ih =>
    obtain ⟨previous, hprevious, hnext⟩ := Option.bind_eq_some_iff.1 h
    rw [filter_isDuration_of_eq hnext, ih hprevious, delayAfter_succ]

theorem eq_of_pause? (h : b.pause? jitter k = some d) : d = b.delayAfter k * jitter k := by
  obtain ⟨delay, hdelay, hpause⟩ := Option.bind_eq_some_iff.1 h
  rw [filter_isDuration_of_eq hpause, eq_delayAfter hdelay]

theorem delay?_eq (h : ∀ j < k, isDuration (b.delayAfter (j + 1)) = true) :
    b.delay? k = some (b.delayAfter k) := by
  induction k with
  | zero => rfl
  | succ k ih =>
    rw [delay?_succ (ih fun j hj => h j (hj.trans (Nat.lt_succ_self k)))]
    exact Option.filter_some_pos (h k (Nat.lt_succ_self k))

/-- What is between the attempts are durations. -/
theorem Spaced.of_isDuration (h : ∀ k, k + 1 < n →
    isDuration (b.delayAfter k * jitter k) = true ∧ isDuration (b.delayAfter (k + 1)) = true) :
    b.Spaced jitter n := by
  intro k hk
  have hdelay : b.delay? k = some (b.delayAfter k) :=
    delay?_eq fun j hj => (h j (by omega)).2
  have hnext : b.delay? (k + 1) = some (b.delayAfter (k + 1)) :=
    delay?_eq fun j hj => (h j (by omega)).2
  have hpause : b.pause? jitter k = some (b.delayAfter k * jitter k) := by
    rw [pause?_eq hdelay]
    exact Option.filter_some_pos (h k hk).1
  rw [hpause, hnext]
  exact ⟨nofun, nofun⟩

/-- The factor is not negative, and no jitter stretches a delay beyond the durations. -/
structure Moderate (b : ExactBackoff) : Prop where
  initial : isDuration (b.initialDelay * (3 / 2)) = true
  longest : isDuration (b.maxDelay * (3 / 2)) = true
  multiplier : 0 ≤ b.multiplier

theorem Moderate.spaced (hb : b.Moderate) (hjitter : ∀ k, 0 ≤ jitter k ∧ jitter k ≤ 3 / 2) (n : Nat) :
    b.Spaced jitter n := by
  have hinitial := isDuration_iff.1 hb.initial
  have hlongest := isDuration_iff.1 hb.longest
  have hnonneg : ∀ k, 0 ≤ b.delayAfter k :=
    delayAfter_nonneg (by linarith) (by linarith) hb.multiplier
  refine .of_isDuration fun k _ => ?_
  obtain ⟨hjitter0, hjitter1⟩ := hjitter k
  have hpause : b.delayAfter k * jitter k ≤ b.delayAfter k * (3 / 2) :=
    mul_le_mul_of_nonneg_left hjitter1 (hnonneg k)
  have hdelay : b.delayAfter k * (3 / 2) < 18446744073709551616000 := by
    rcases b.delayAfter_eq_or_le k with hfirst | hle
    · exact hfirst ▸ hinitial.2
    · linarith
  refine ⟨isDuration_iff.2 ⟨mul_nonneg (hnonneg k) hjitter0, hpause.trans_lt hdelay⟩, ?_⟩
  refine isDuration_of_le hb.longest (hnonneg _) ((b.delayAfter_succ_le k).trans ?_)
  linarith

end Backoff

end ClusterJobs
