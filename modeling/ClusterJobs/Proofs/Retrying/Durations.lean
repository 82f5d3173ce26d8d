import ClusterJobs.Proofs.Decimal.Bounds
import ClusterJobs.Proofs.Retrying

/-!
# Pauses on a clock

On a clock, delays are multiplied as floats and rounded to nanoseconds. A factor that is no number, or
infinite, makes the longest delay of any. So with delays of at most half the longest duration, all pauses
are durations unless the factor is negative. A product below zero is no duration.
-/

namespace ClusterJobs

open Decimal

/-! ## Nanoseconds -/

/-- Rounding to the nearest whole number does. -/
theorem Decimal.nearest_spec {x : Rat} (hx : 0 ≤ x) : Nearest (nearest x) x := by
  have hnum : 0 ≤ x.num := Rat.num_nonneg.2 hx
  have hden : (0 : Rat) < x.den := by exact_mod_cast x.den_pos
  have hvalue : x = (x.num.toNat : Rat) / x.den := by
    have hcast : ((x.num.toNat : Int) : Rat) = x.num := by rw [Int.toNat_of_nonneg hnum]
    rw [Int.cast_natCast] at hcast
    rw [hcast, Rat.num_div_den]
  unfold nearest
  dsimp only
  generalize x.num.toNat = m at hvalue
  generalize x.den = d at hvalue hden
  have hsplit : (m : Rat) = d * (m / d : Nat) + (m % d : Nat) := by
    exact_mod_cast (Nat.div_add_mod m d).symm
  have hrest : ((m % d : Nat) : Rat) < d := by exact_mod_cast Nat.mod_lt m (by exact_mod_cast hden)
  have hnonneg : (0 : Rat) ≤ (m % d : Nat) := Nat.cast_nonneg _
  have hx : x = (m / d : Nat) + (m % d : Nat) / d := by
    rw [hvalue]
    field_simp
    linarith
  generalize m / d = n at hx
  generalize m % d = rest at hx hrest hnonneg
  rcases Nat.lt_trichotomy (2 * rest) d with hlt | heq | hgt
  · have hlt' : 2 * (rest : Rat) < d := by exact_mod_cast hlt
    have hhalf : (rest : Rat) / d < 1 / 2 := by rw [div_lt_div_iff₀ hden two_pos]; linarith
    rw [if_pos (.inl hlt)]
    exact .of_lt (by have := div_nonneg hnonneg hden.le; linarith) (by linarith)
  · have heq' : 2 * (rest : Rat) = d := by exact_mod_cast heq
    have hhalf : x = n + 1 / 2 := by
      rw [hx, ← heq']
      have hpos : (rest : Rat) ≠ 0 := by
        rintro hzero
        rw [hzero, mul_zero] at heq'
        exact hden.ne heq'
      field_simp
    have h := Nearest.of_half hhalf
    rcases Nat.mod_two_eq_zero_or_one n with heven | hodd
    · rw [if_pos (.inr ⟨heq, heven⟩)]
      rwa [heven] at h
    · rw [if_neg (by omega)]
      rwa [hodd] at h
  · have hgt' : (d : Rat) < 2 * rest := by exact_mod_cast hgt
    have hhalf : (1 : Rat) / 2 < rest / d := by rw [div_lt_div_iff₀ two_pos hden]; linarith
    have hone : (rest : Rat) / d < 1 := (div_lt_one hden).2 hrest
    rw [if_neg (by omega)]
    refine .of_lt ?_ ?_ <;> push_cast <;> linarith

namespace Duration

variable {d longest : Duration} {x y : Float} {c n : Nat} {v : Rat}

theorem isFloat_whole {p : Nat} (hc : c < 2 ^ 53) (hp : p ≤ 900) :
    IsFloat ((c * 2 ^ p : Nat) : Rat) := by
  refine ⟨⟨c, p, hc, by omega, by push_cast; rfl⟩, ?_⟩
  calc ((c * 2 ^ p : Nat) : Rat) < (2 ^ 53 * 2 ^ p : Nat) := by
        exact_mod_cast Nat.mul_lt_mul_of_pos_right hc (Nat.two_pow_pos p)
    _ = 2 ^ (53 + p : Int) := by
        rw [zpow_add₀ (by norm_num), zpow_natCast]
        push_cast
        rfl
    _ ≤ 2 ^ (1024 : Int) := two_zpow_le_iff.2 (by omega)

theorem isFloat_one : IsFloat 1 :=
  ⟨⟨1, 0, by decide, by decide, by norm_num⟩, by
    rw [← zpow_zero (2 : Rat)]
    exact two_zpow_lt_iff.2 (by decide)⟩

theorem parts_billion : Parts 1000000000.0 .positive 8388608000000000 (-23) :=
  ⟨by decide, rfl⟩

/-- The fraction of a second is at most one. -/
theorem atMost_fraction (hn : n < 1000000000) : AtMost 1 (n.toUInt64.toFloat / 1000000000.0) := by
  have hnanos : IsFloat ((1000000000 : Nat) : Rat) := by
    refine ⟨⟨1000000000, 0, by decide, by decide, by norm_num⟩, ?_⟩
    calc ((1000000000 : Nat) : Rat) < 2 ^ (30 : Int) := by norm_num
      _ ≤ 2 ^ (1024 : Int) := two_zpow_le_iff.2 (by decide)
  have hfloat : AtMost ((1000000000 : Nat) : Rat) n.toUInt64.toFloat :=
    atMost_toFloat (by omega) hnanos (by exact_mod_cast hn.le)
  exact hfloat.div parts_billion isFloat_one (by norm_num)

/-- A duration in seconds, which may be rounded up. -/
theorem atMost_seconds {p : Nat} (hc : c + 1 < 2 ^ 53) (hp : p ≤ 900)
    (h : d.nanos ≤ c * 2 ^ p * 1000000000) : AtMost (((c + 1) * 2 ^ p : Nat) : Rat) d.seconds := by
  have hbounded := d.bounded
  have hwhole : d.nanos / 1000000000 ≤ c * 2 ^ p := Nat.div_le_of_le_mul (by omega)
  have hseconds : AtMost ((c * 2 ^ p : Nat) : Rat) (d.nanos / 1000000000).toUInt64.toFloat :=
    atMost_toFloat (by omega) (isFloat_whole (by omega) hp) (by exact_mod_cast hwhole)
  refine hseconds.add (atMost_fraction (Nat.mod_lt _ (by decide))) (isFloat_whole hc hp) ?_
  have hone := Nat.two_pow_pos p
  exact_mod_cast (by rw [Nat.succ_mul]; omega : c * 2 ^ p + 1 ≤ (c + 1) * 2 ^ p)

/-- A float that is not too large is rounded to nanoseconds. -/
theorem exists_ofSeconds? (h : AtMost (n : Rat) x) (hn : n < 2 ^ 64) :
    ∃ d, ofSeconds? x = some d ∧ d.nanos ≤ n * 1000000000 := by
  obtain ⟨v, hv, hnonneg, hle⟩ := h.exists_value
  have hnanos : nearest (v * 1000000000) ≤ n * 1000000000 := by
    refine (nearest_spec (by positivity)).le_of_le ?_
    push_cast
    linarith
  have hbound : nearest (v * 1000000000) < 18446744073709551616 * 1000000000 := by omega
  refine ⟨⟨_, hbound⟩, ?_, hnanos⟩
  unfold ofSeconds?
  rw [if_neg h.not_lt_zero, hv, Option.bind_some]
  exact dif_pos hbound

theorem ofSeconds?_eq_none (h : x < 0.0) : ofSeconds? x = none := by
  unfold ofSeconds?
  exact if_pos h

/-! ## Products -/

theorem atMost_lesser (hy : AtMost v y) (hx : ¬ x < 0.0) : AtMost v (lesser x y) := by
  unfold lesser
  split
  · exact hy
  · split
    · exact hy
    · next hnumber hlt => exact hy.of_not_lt hlt hx (Bool.eq_false_iff.2 hnumber)

/-- Half of the longest duration. -/
def half : Nat := 9223372036854775808 * 1000000000

/-- Where a factor is not negative, a product that is not above the longest delay is a duration, and the
longest delay is where the product is above it or no number. -/
theorem exists_grow? {factor : Float} (hd : d.nanos ≤ (2 ^ 52 + 1) * 2 ^ 11 * 1000000000)
    (hfactor : ¬ factor < 0.0) (hlongest : longest.nanos ≤ half) :
    ∃ next, d.grow? factor longest = some next ∧
      next.nanos ≤ (2 ^ 52 + 1) * 2 ^ 11 * 1000000000 := by
  have hproduct : ¬ d.seconds * factor < 0.0 :=
    (atMost_seconds (by decide) (by decide) hd).not_mul_lt_zero hfactor
  have hbound : AtMost (((2 ^ 52 + 1) * 2 ^ 11 : Nat) : Rat) longest.seconds :=
    atMost_seconds (by decide) (by decide) (by rw [half] at hlongest; omega)
  exact exists_ofSeconds? (atMost_lesser hbound hproduct) (by decide)

theorem exists_stretch? {factor : Float} (hd : d.nanos ≤ (2 ^ 52 + 1) * 2 ^ 11 * 1000000000)
    (hfactor : AtMost (3 / 2) factor) : d.stretch? factor ≠ none := by
  have hseconds : AtMost (((2 ^ 52 + 1 + 1) * 2 ^ 11 : Nat) : Rat) d.seconds :=
    atMost_seconds (by decide) (by decide) hd
  have hproduct : AtMost (((3 * 2 ^ 51 + 3) * 2 ^ 11 : Nat) : Rat) (d.seconds * factor) := by
    refine hseconds.mul hfactor (isFloat_whole (by decide) (by decide)) ?_
    push_cast
    norm_num
  obtain ⟨pause, hpause, -⟩ := exists_ofSeconds? hproduct (by decide)
  rw [stretch?, hpause]
  exact nofun

/-- A product below zero is below the longest delay, and no duration. -/
theorem grow?_eq_none {factor : Float} (h : d.seconds * factor < 0.0) (longest : Duration) :
    d.grow? factor longest = none := by
  have hbounded := longest.bounded
  have hlongest : AtMost (((2 ^ 52 + 1) * 2 ^ 12 : Nat) : Rat) longest.seconds :=
    atMost_seconds (by decide) (by decide) (by omega)
  obtain ⟨hlt, hnumber⟩ := hlongest.not_lt_negative h
  have hlesser : lesser (d.seconds * factor) longest.seconds = d.seconds * factor := by
    rw [lesser, hnumber, if_neg Bool.false_ne_true, if_neg hlt]
  rw [grow?, hlesser]
  exact ofSeconds?_eq_none h

end Duration

/-! ## Jitter -/

/-- The jitter shortens or stretches each delay by up to a half. -/
def Jitters (jitter : Nat → Float) : Prop :=
  ∀ k, 0.5 ≤ jitter k ∧ jitter k < 1.5

theorem Jitters.atMost {jitter : Nat → Float} (h : Jitters jitter) (k : Nat) :
    AtMost (3 / 2) (jitter k) := by
  have hlow : Parts 0.5 .positive (2 ^ 52) (-53) := ⟨by decide, rfl⟩
  have hhigh : Parts 1.5 .positive (3 * 2 ^ 51) (-52) := ⟨by decide, rfl⟩
  refine (AtMost.of_between hlow hhigh (h k).1 (h k).2).mono ?_
  norm_num

/-! ## Delays -/

namespace Backoff

variable {b : ClockBackoff} {jitter : Nat → Float} {k n : Nat} {d : Duration}

/-- The factor is not negative, and no delay is more than half of the longest duration. -/
structure Steady (b : ClockBackoff) : Prop where
  initial : b.initialDelay.nanos ≤ Duration.half
  longest : b.maxDelay.nanos ≤ Duration.half
  multiplier : ¬ b.multiplier < 0.0

/-- Delays do not drift, since all but the first are held to the longest one as a float. -/
theorem Steady.exists_delay? (hb : b.Steady) (k : Nat) :
    ∃ d, b.delay? k = some d ∧ d.nanos ≤ (2 ^ 52 + 1) * 2 ^ 11 * 1000000000 := by
  induction k with
  | zero =>
    have hinitial := hb.initial
    exact ⟨b.initialDelay, rfl, by rw [Duration.half] at hinitial; omega⟩
  | succ k ih =>
    obtain ⟨d, hd, hle⟩ := ih
    rw [delay?_succ hd]
    exact Duration.exists_grow? hle hb.multiplier hb.longest

theorem Steady.spaced (hb : b.Steady) (hjitter : Jitters jitter) (n : Nat) : b.Spaced jitter n := by
  intro k _
  obtain ⟨d, hd, hle⟩ := hb.exists_delay? k
  obtain ⟨next, hnext, -⟩ := hb.exists_delay? (k + 1)
  refine ⟨?_, hnext ▸ nofun⟩
  rw [pause?_eq hd]
  exact Duration.exists_stretch? hle (hjitter.atMost k)

/-- A delay that is multiplied to less than zero is followed by none. -/
theorem not_spaced_of_negative (hd : b.delay? k = some d) (hneg : d.seconds * b.multiplier < 0.0)
    (hn : k + 1 < n) : ¬ b.Spaced jitter n := by
  intro hspaced
  refine (hspaced k hn).2 ?_
  rw [delay?_succ hd]
  exact Duration.grow?_eq_none hneg b.maxDelay

end Backoff

end ClusterJobs
