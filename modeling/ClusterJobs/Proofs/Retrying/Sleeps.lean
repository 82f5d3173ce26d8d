import Mathlib.Algebra.Order.Archimedean.Basic
import Mathlib.Algebra.Order.Ring.Unbundled.Rat
import Mathlib.Data.Rat.Cast.Order
import ClusterJobs.Proofs.Retrying.Delays

/-!
# How long a retried operation sleeps

Between two attempts a run sleeps for the delay, which the jitter stretches or shortens by up to a half.
The longest delay bounds the delays before jitter, and not the first one, so a sleep may last longer.
It is never shorter than half of what it is meant to be.
-/

namespace ClusterJobs

namespace Backoff

section Rounds

variable {α ε δ φ : Type} [Pacing δ φ] {b : Backoff δ φ} {w : RetryWorld φ}
  {attempt : Nat → Attempt α ε} {fuel j k t s s' ready ready' last ended ended' slept woken : Nat}
  {result result' : Except ε α} {run : RetryRun α ε}

/-! ## Rounds are determined -/

theorem Yields.unique (hy : b.Yields w attempt k t result ended)
    (hy' : b.Yields w attempt k t result' ended') : ended = ended' := by
  obtain ⟨-, hattempt, -⟩ := hy
  obtain ⟨-, hattempt', -⟩ := hy'
  cases hattempt.symm.trans hattempt'
  rfl

theorem Passes.unique (hp : b.Passes w attempt k t ready) (hp' : b.Passes w attempt k t ready') :
    ready = ready' := by
  obtain ⟨hy, -, hpause, -, -⟩ := hp
  obtain ⟨hy', -, hpause', -, -⟩ := hp'
  cases hpause.symm.trans hpause'
  rw [hy.unique hy']

theorem Reaches.unique (hr : b.Reaches w attempt last s k t) (hr' : b.Reaches w attempt last s' k t) :
    s = s' := by
  induction hr with
  | here =>
    cases hr' with
    | here => rfl
    | later _ hrest => exact absurd hrest.le_last (Nat.not_succ_le_self last)
  | later hpasses hrest ih =>
    cases hr' with
    | here => exact absurd hrest.le_last (Nat.not_succ_le_self last)
    | later hpasses' hrest' => exact ih (hpasses.unique hpasses' ▸ hrest')

/-- A run comes to an attempt by way of all those before it. -/
theorem Reaches.through (hr : b.Reaches w attempt last s k t) (hk : k ≤ j) (hj : j < last) :
    ∃ s' ready, b.Reaches w attempt j s' k t ∧ b.Passes w attempt j s' ready := by
  induction hr with
  | here => omega
  | later hpasses _ ih =>
    obtain rfl | hlt := hk.eq_or_lt
    · exact ⟨_, _, .here, hpasses⟩
    · obtain ⟨s', ready, hreaches, hnext⟩ := ih hlt
      exact ⟨s', ready, .later hpasses hreaches, hnext⟩

/-! ## Sleeps -/

/-- A run from the time `t` on sleeps between attempts `k` and `k + 1`, from the time `slept` at which
the first of them has failed to the time `woken` at which the second is due. -/
structure Sleeps (b : Backoff δ φ) (w : RetryWorld φ) (attempt : Nat → Attempt α ε)
    (t k slept woken : Nat) : Prop where
  fails : ∃ s e, b.Reaches w attempt k s 0 t ∧ b.Yields w attempt k s (.error e) slept
  wakes : b.Reaches w attempt (k + 1) woken 0 t

theorem Reaches.exists_sleeps (hr : b.Reaches w attempt last s 0 t) (hk : k < last) :
    ∃ slept woken, b.Sleeps w attempt t k slept woken := by
  obtain ⟨s', ready, hreaches, hpasses⟩ := hr.through (Nat.zero_le k) hk
  have hwakes := hreaches.snoc hpasses
  obtain ⟨hy, -⟩ := hpasses
  exact ⟨_, _, ⟨_, _, hreaches, hy⟩, hwakes⟩

/-- If the token never fires and all attempts fail, a run sleeps after each attempt that is not the last
permitted one. -/
theorem exists_sleeps_of_never (hnever : w.firesAt = none) (hfailing : ∀ j, Failing attempt j)
    (hcounted : ∀ j ≤ k, Pacing.counts δ (j + 1) = true) (hlast : b.isLast k = false)
    (hspaced : b.Spaced w.jitter (k + 2)) (t : Nat) :
    ∃ slept woken, b.Sleeps w attempt t k slept woken := by
  have hpermitted : ∀ j < k + 1, b.isLast j = false := by
    intro j hj
    rw [isLast_eq_false_iff] at hlast ⊢
    omega
  obtain ⟨s, hreaches⟩ : ∃ s, b.Reaches w attempt (k + 1) s 0 t := exists_reaches_of_never hnever t
    fun j hj =>
      have hspace := hspaced j (Nat.succ_lt_succ hj)
      ⟨hcounted j (Nat.le_of_lt_succ hj), hfailing j, hpermitted j hj, hspace.1, hspace.2⟩
  exact hreaches.exists_sleeps (Nat.lt_succ_self k)

/-- Between any two attempts of a run it sleeps. -/
theorem exists_sleeps_of_retry (h : b.retry w attempt fuel t = some run)
    (hk : k + 1 < run.attempts) : ∃ slept woken, b.Sleeps w attempt t k slept woken := by
  obtain ⟨last, s, hreaches, hends, -⟩ := retry_eq_some_iff.1 h
  exact hreaches.exists_sleeps (by rcases hends.attempts_eq with heq | heq <;> omega)

/-- A sleep lasts for the pause that is due. -/
theorem Sleeps.lasts (hs : b.Sleeps w attempt t k slept woken) :
    ∃ pause, b.pause? w.jitter k = some pause ∧ woken = wake slept pause := by
  obtain ⟨⟨s, e, hreaches, hy⟩, hwakes⟩ := hs
  obtain ⟨s', ready, hreaches', hpasses⟩ := hwakes.through (Nat.zero_le k) (Nat.lt_succ_self k)
  obtain rfl := hreaches.unique hreaches'
  obtain rfl := hwakes.unique (hreaches'.snoc hpasses)
  obtain ⟨hy', -, hpause, -, -⟩ := hpasses
  exact ⟨_, hpause, by rw [hy.unique hy']⟩

theorem Sleeps.not_last (hs : b.Sleeps w attempt t k slept woken) : b.isLast k = false :=
  (hs.wakes.before (Nat.zero_le k) (Nat.lt_succ_self k)).permitted

end Rounds

variable {α ε : Type} {b : ExactBackoff} {w : RetryWorld Rat} {attempt : Nat → Attempt α ε}
  {jitter : Nat → Rat} {k t slept woken : Nat} {pause : Rat}

/-- A sleep lasts for the delay with its jitter. -/
theorem Sleeps.eq_wake (hs : b.Sleeps w attempt t k slept woken) :
    woken = wake slept (b.delayAfter k * w.jitter k) := by
  obtain ⟨pause, hpause, hwoken⟩ := hs.lasts
  rwa [eq_of_pause? hpause] at hwoken

/-- Clocks tick in whole milliseconds, so a pause is over with the first tick that is not too early. -/
theorem le_wake_sub (t : Nat) (pause : Rat) : pause ≤ (wake t pause : Rat) - t := by
  have hle : pause.ceil ≤ (pause.ceil.toNat : Int) := Int.self_le_toNat _
  have hle' : (pause.ceil : Rat) ≤ (pause.ceil.toNat : Rat) := by exact_mod_cast hle
  have hceil : pause ≤ pause.ceil := Rat.le_ceil
  change pause ≤ ((t + pause.ceil.toNat : Nat) : Rat) - t
  rw [Nat.cast_add]
  linarith

theorem wake_sub_lt (t : Nat) (hpause : 0 ≤ pause) : (wake t pause : Rat) - t < pause + 1 := by
  have hceil : pause ≤ pause.ceil := Rat.le_ceil
  have hnonneg : 0 ≤ pause.ceil := by exact_mod_cast hpause.trans hceil
  have heq : (pause.ceil.toNat : Rat) = pause.ceil := by exact_mod_cast Int.toNat_of_nonneg hnonneg
  have hlt : (pause.ceil : Rat) < pause + 1 := Rat.ceil_lt
  change ((t + pause.ceil.toNat : Nat) : Rat) - t < pause + 1
  rw [Nat.cast_add, heq]
  linarith

/-! ## Bounds -/

/-- The jitter shortens or stretches each delay by up to a half. -/
def Jittered (jitter : Nat → Rat) : Prop :=
  ∀ k, 1 / 2 ≤ jitter k ∧ jitter k < 3 / 2

/-- The delays are durations, and do not get shorter. -/
structure Growing (b : ExactBackoff) : Prop where
  initial : isDuration b.initialDelay = true
  longest : isDuration b.maxDelay = true
  multiplier : 1 ≤ b.multiplier

/-- An operation that always fails at once. -/
def neverSucceeding : Nat → Attempt Unit Unit :=
  fun _ => some (0, .error ())

theorem failing_neverSucceeding (k : Nat) : Failing neverSucceeding k :=
  ⟨0, (), rfl⟩

/-- An operation that always fails sleeps after each attempt but the last for as long as is due. -/
theorem Moderate.exists_sleeps (hb : b.Moderate) (hjitter : Jittered jitter)
    (hlast : b.isLast k = false) {ticks : Nat}
    (hticks : (b.delayAfter k * jitter k).ceil.toNat = ticks) :
    ∃ slept, b.Sleeps ⟨none, jitter, fun _ => true⟩ neverSucceeding 0 k slept (slept + ticks) := by
  have hspaced : b.Spaced jitter (k + 2) :=
    hb.spaced (fun j => ⟨le_trans (by norm_num) (hjitter j).1, (hjitter j).2.le⟩) _
  obtain ⟨slept, woken, hsleeps⟩ := exists_sleeps_of_never
    (w := ⟨none, jitter, fun _ => true⟩) rfl failing_neverSucceeding (fun _ _ => rfl) hlast hspaced 0
  have hwoken : woken = slept + (b.delayAfter k * jitter k).ceil.toNat := hsleeps.eq_wake
  rw [hticks] at hwoken
  exact ⟨slept, hwoken ▸ hsleeps⟩

namespace Growing

variable (hb : b.Growing)

include hb

theorem initial_nonneg : 0 ≤ b.initialDelay :=
  (isDuration_iff.1 hb.initial).1

theorem longest_nonneg : 0 ≤ b.maxDelay :=
  (isDuration_iff.1 hb.longest).1

theorem delay_nonneg (k : Nat) : 0 ≤ b.delayAfter k :=
  delayAfter_nonneg hb.initial_nonneg hb.longest_nonneg (zero_le_one.trans hb.multiplier) k

theorem delay_isDuration (k : Nat) : isDuration (b.delayAfter k) = true := by
  rcases b.delayAfter_eq_or_le k with hfirst | hle
  · exact hfirst ▸ hb.initial
  · exact isDuration_of_le hb.longest (hb.delay_nonneg k) hle

theorem half_le (hjitter : Jittered jitter) (k : Nat) :
    min (b.initialDelay * b.multiplier ^ k) b.maxDelay / 2 ≤ b.delayAfter k * jitter k := by
  calc min (b.initialDelay * b.multiplier ^ k) b.maxDelay / 2
      = min (b.delayAfter k) b.maxDelay / 2 := by
        rw [min_delayAfter hb.longest_nonneg hb.multiplier]
    _ ≤ b.delayAfter k / 2 := by linarith [min_le_left (b.delayAfter k) b.maxDelay]
    _ = b.delayAfter k * (1 / 2) := by rw [mul_one_div]
    _ ≤ b.delayAfter k * jitter k :=
        mul_le_mul_of_nonneg_left (hjitter k).1 (hb.delay_nonneg k)

theorem le_stretched (hjitter : Jittered jitter) (k : Nat) :
    b.delayAfter k * jitter k ≤ b.delayAfter k * (3 / 2) :=
  mul_le_mul_of_nonneg_left (hjitter k).2.le (hb.delay_nonneg k)

theorem delay_succ (k : Nat) :
    b.delayAfter (k + 1) = min (b.initialDelay * b.multiplier ^ (k + 1)) b.maxDelay := by
  rw [← min_delayAfter hb.longest_nonneg hb.multiplier, min_eq_left (b.delayAfter_succ_le k)]

theorem delay_le (k : Nat) : b.delayAfter k ≤ b.initialDelay * b.multiplier ^ k := by
  cases k with
  | zero => rw [delayAfter, pow_zero, mul_one]
  | succ k =>
    rw [hb.delay_succ]
    exact min_le_left _ _

/-! ## Sleeps that are too long -/

/-- If some jitter may stretch a delay beyond the longest one, then some makes a duration of it. -/
theorem exists_factor (hlong : b.maxDelay < b.delayAfter k * (3 / 2)) :
    ∃ q : Rat, (1 / 2 ≤ q ∧ q < 3 / 2) ∧ b.maxDelay < b.delayAfter k * q ∧
      isDuration (b.delayAfter k * q) = true := by
  have hmax := isDuration_iff.1 hb.longest
  have hdelay := (isDuration_iff.1 (hb.delay_isDuration k)).2
  have hpos : 0 < b.delayAfter k := by linarith
  have hroom : max b.maxDelay (b.delayAfter k * (1 / 2)) <
      min (b.delayAfter k * (3 / 2)) 18446744073709551616000 :=
    max_lt (lt_min hlong hmax.2) (lt_min (by linarith) (by linarith))
  obtain ⟨pause, hlow, hhigh⟩ := exists_between hroom
  obtain ⟨hmaxlow, hlow⟩ := max_lt_iff.1 hlow
  obtain ⟨hhigh, hlimit⟩ := lt_min_iff.1 hhigh
  refine ⟨pause / b.delayAfter k, ⟨?_, ?_⟩, ?_⟩
  · exact (le_div_iff₀' hpos).2 hlow.le
  · exact (div_lt_iff₀' hpos).2 hhigh
  · rw [mul_div_cancel₀ pause hpos.ne']
    exact ⟨hmaxlow, isDuration_iff.2 ⟨hmax.1.trans hmaxlow.le, hlimit⟩⟩

/-- A run that sleeps beyond the longest delay, if some jitter may stretch a delay so far. -/
theorem exists_overlong (hlast : b.isLast k = false) (hlong : b.maxDelay < b.delayAfter k * (3 / 2)) :
    ∃ (w : RetryWorld Rat) (attempt : Nat → Attempt Unit Unit) (slept woken : Nat),
      Jittered w.jitter ∧ b.Sleeps w attempt 0 k slept woken ∧
        b.maxDelay < b.delayAfter k * w.jitter k := by
  obtain ⟨q, hq, hexceeds, hduration⟩ := hb.exists_factor hlong
  let jitter : Nat → Rat := Function.update (fun _ => 1 / 2) k q
  have hself : jitter k = q := Function.update_self ..
  have hother : ∀ j, j ≠ k → jitter j = 1 / 2 := fun j hj => Function.update_of_ne hj ..
  have hjitter : Jittered jitter := by
    intro j
    by_cases hj : j = k
    · exact hj ▸ hself.symm ▸ hq
    · rw [hother j hj]
      norm_num
  have hpause : ∀ j, isDuration (b.delayAfter j * jitter j) = true := by
    intro j
    by_cases hj : j = k
    · rw [hj, hself]
      exact hduration
    · have hnonneg := hb.delay_nonneg j
      rw [hother j hj]
      exact isDuration_of_le (hb.delay_isDuration j) (by linarith) (by linarith)
  have hspaced : b.Spaced jitter (k + 2) :=
    .of_isDuration fun j _ => ⟨hpause j, hb.delay_isDuration (j + 1)⟩
  obtain ⟨slept, woken, hsleeps⟩ := exists_sleeps_of_never
    (w := ⟨none, jitter, fun _ => true⟩) rfl failing_neverSucceeding (fun _ _ => rfl) hlast hspaced 0
  exact ⟨_, _, slept, woken, hjitter, hsleeps, by simpa only [hself] using hexceeds⟩

/-- All delays leave room for their jitter if and only if their nominal values do. -/
theorem delays_fit_iff : (∀ k, b.isLast k = false → b.delayAfter k * (3 / 2) ≤ b.maxDelay) ↔
    ∀ k, b.isLast k = false → b.initialDelay * b.multiplier ^ k * (3 / 2) ≤ b.maxDelay := by
  constructor
  · intro h k hlast
    cases k with
    | zero =>
      rw [pow_zero, mul_one]
      exact h 0 hlast
    | succ k =>
      have hfits := h (k + 1) hlast
      rw [hb.delay_succ] at hfits
      rcases min_choice (b.initialDelay * b.multiplier ^ (k + 1)) b.maxDelay with heq | heq <;>
        rw [heq] at hfits
      · exact hfits
      · -- Only a longest delay of zero leaves room for its own jitter. Then all delays are zero.
        have hfirst : b.initialDelay * (3 / 2) ≤ b.maxDelay := by
          refine h 0 (isLast_eq_false_iff.2 ?_)
          rw [isLast_eq_false_iff] at hlast
          omega
        have hinitial := hb.initial_nonneg
        have hmax := hb.longest_nonneg
        rw [show b.initialDelay = 0 by linarith, zero_mul, zero_mul]
        exact hmax
  · intro h k hlast
    exact (mul_le_mul_of_nonneg_right (hb.delay_le k) (by norm_num)).trans (h k hlast)

/-- No sleep is longer than the longest delay, whatever the jitter, if and only if all nominal delays
leave room for it. -/
theorem bounded_iff :
    (∀ (α ε : Type) (w : RetryWorld Rat) (attempt : Nat → Attempt α ε) (t k slept woken : Nat),
      Jittered w.jitter → b.Sleeps w attempt t k slept woken →
        b.delayAfter k * w.jitter k ≤ b.maxDelay) ↔
    ∀ k, b.isLast k = false → b.initialDelay * b.multiplier ^ k * (3 / 2) ≤ b.maxDelay := by
  rw [← hb.delays_fit_iff]
  constructor
  · intro h k hlast
    by_contra hlong
    obtain ⟨w, attempt, slept, woken, hjitter, hsleeps, hexceeds⟩ :=
      hb.exists_overlong hlast (not_le.1 hlong)
    exact absurd (h _ _ w attempt 0 k slept woken hjitter hsleeps) (not_le.2 hexceeds)
  · intro h _ _ w _ _ k _ _ hjitter hsleeps
    exact (hb.le_stretched hjitter k).trans (h k hsleeps.not_last)

/-- If the attempts are without bound, only delays that do not grow leave room for jitter. -/
theorem nominal_fit_iff (hzero : b.maxAttempts = 0) :
    (∀ k, b.isLast k = false → b.initialDelay * b.multiplier ^ k * (3 / 2) ≤ b.maxDelay) ↔
      b.initialDelay = 0 ∨ b.multiplier = 1 ∧ b.initialDelay * (3 / 2) ≤ b.maxDelay := by
  constructor
  · intro h
    have hall := fun k => h k (isLast_eq_false_iff.2 (.inl (congrArg UInt32.toNat hzero)))
    rcases hb.initial_nonneg.eq_or_lt with hinitial | hpos
    · exact .inl hinitial.symm
    rcases hb.multiplier.eq_or_lt with hone | hgrows
    · exact .inr ⟨hone.symm, by simpa using hall 0⟩
    · obtain ⟨k, hk⟩ := pow_unbounded_of_one_lt (b.maxDelay / b.initialDelay) hgrows
      have hexceeds := (div_lt_iff₀' hpos).1 hk
      have hmax := hb.longest_nonneg
      linarith [hall k]
  · rintro (hinitial | ⟨hone, hfirst⟩) k -
    · rw [hinitial, zero_mul, zero_mul]
      exact hb.longest_nonneg
    · rw [hone, one_pow, mul_one]
      exact hfirst

end Growing

/-! ## Main result -/

/-- How long the sleeps of a retried operation last. -/
structure SleepingSpec (b : ExactBackoff) : Prop where
  /-- Between any two attempts of a run it sleeps. -/
  sleeps : ∀ (α ε : Type) (w : RetryWorld Rat) (attempt : Nat → Attempt α ε) (t fuel : Nat)
    (run : RetryRun α ε), b.retry w attempt fuel t = some run →
      ∀ k, k + 1 < run.attempts → ∃ slept woken, b.Sleeps w attempt t k slept woken
  /-- Each sleep takes at least half of the nominal delay, up to the longest one, and at most one and
  a half times the delay. It ends with the first millisecond that is not too early. -/
  lasts : ∀ (α ε : Type) (w : RetryWorld Rat) (attempt : Nat → Attempt α ε) (t k slept woken : Nat),
    Jittered w.jitter → b.Sleeps w attempt t k slept woken →
      (min (b.initialDelay * b.multiplier ^ k) b.maxDelay / 2 ≤ b.delayAfter k * w.jitter k ∧
        b.delayAfter k * w.jitter k ≤ b.delayAfter k * (3 / 2)) ∧
      b.delayAfter k * w.jitter k ≤ (woken : Rat) - slept ∧
      (woken : Rat) - slept < b.delayAfter k * w.jitter k + 1
  /-- But for the first one, the delays before jitter are the nominal ones up to the longest. -/
  delays : b.delayAfter 0 = b.initialDelay ∧
    ∀ k, b.delayAfter (k + 1) = min (b.initialDelay * b.multiplier ^ (k + 1)) b.maxDelay
  /-- All sleeps are within the longest delay exactly if all nominal delays leave room for jitter. -/
  bounded_iff :
    (∀ (α ε : Type) (w : RetryWorld Rat) (attempt : Nat → Attempt α ε) (t k slept woken : Nat),
      Jittered w.jitter → b.Sleeps w attempt t k slept woken →
        b.delayAfter k * w.jitter k ≤ b.maxDelay) ↔
    ∀ k, b.isLast k = false → b.initialDelay * b.multiplier ^ k * (3 / 2) ≤ b.maxDelay
  /-- Without a bound on the attempts, they do so exactly if they do not grow and the first does. -/
  unbounded_iff : b.maxAttempts = 0 →
    ((∀ k, b.isLast k = false → b.initialDelay * b.multiplier ^ k * (3 / 2) ≤ b.maxDelay) ↔
      b.initialDelay = 0 ∨ b.multiplier = 1 ∧ b.initialDelay * (3 / 2) ≤ b.maxDelay)

theorem sleeping_spec (b : ExactBackoff) (hb : b.Growing) : SleepingSpec b where
  sleeps _ _ _ _ _ _ _ hrun _ := exists_sleeps_of_retry hrun
  lasts _ _ w _ _ k slept woken hjitter hsleeps := by
    have hnonneg : 0 ≤ b.delayAfter k * w.jitter k :=
      mul_nonneg (hb.delay_nonneg k) (le_trans (by norm_num) (hjitter k).1)
    rw [hsleeps.eq_wake]
    exact ⟨⟨hb.half_le hjitter k, hb.le_stretched hjitter k⟩, le_wake_sub _ _, wake_sub_lt _ hnonneg⟩
  delays := ⟨rfl, hb.delay_succ⟩
  bounded_iff := hb.bounded_iff
  unbounded_iff := hb.nominal_fit_iff

theorem growing_standard : exactStandard.Growing :=
  ⟨by decide +kernel, by decide +kernel, by decide +kernel⟩

theorem sleeping_of_standard : exactStandard.Growing ∧ SleepingSpec exactStandard :=
  ⟨growing_standard, sleeping_spec exactStandard growing_standard⟩

/-- A backoff with a first delay of a second, although the longest is to be a tenth of that. -/
def steep : ExactBackoff :=
  ⟨0, 1000, 100, 2⟩

/-- Its first sleep is too long whatever the jitter. The sixth sleep of the standard backoff is too
long with a jitter of five quarters. -/
theorem overlong_of_steep :
    (steep.Growing ∧ (∀ jitter, Jittered jitter → steep.maxDelay < steep.delayAfter 0 * jitter 0) ∧
      ∃ slept, steep.Sleeps ⟨none, fun _ => 1, fun _ => true⟩ neverSucceeding 0 0 slept
        (slept + 1000)) ∧
    exactStandard.Growing ∧ Jittered (fun _ => 5 / 4) ∧
      exactStandard.maxDelay < exactStandard.delayAfter 5 * (5 / 4) ∧
      ∃ slept, exactStandard.Sleeps ⟨none, fun _ => 5 / 4, fun _ => true⟩ neverSucceeding 0 5 slept
        (slept + 12500) := by
  have hsteep : steep.Moderate := ⟨by decide +kernel, by decide +kernel, by decide +kernel⟩
  have hstandard : exactStandard.Moderate :=
    ⟨by decide +kernel, by decide +kernel, by decide +kernel⟩
  refine ⟨⟨⟨by decide +kernel, by decide +kernel, by decide +kernel⟩, fun jitter hjitter => ?_, ?_⟩,
    growing_standard, fun _ => by norm_num, by decide +kernel, ?_⟩
  · have hhalf := (hjitter 0).1
    simp only [steep, delayAfter]
    linarith
  · exact hsteep.exists_sleeps (fun _ => by norm_num) rfl (by decide +kernel)
  · exact hstandard.exists_sleeps (fun _ => by norm_num) rfl (by decide +kernel)

end Backoff

end ClusterJobs
