import Mathlib.Order.Lattice
import Mathlib.Order.Nat
import ClusterJobs.Backoff

/-!
# Retried operations

One round of a retried operation ends the run or leads to the next round, and a run that ends is a row
of rounds with one at its end that ends it. So what is known of rounds holds of whole runs. A run
succeeds with the first attempt that does, and it is over no later than the token has fired.
-/

namespace ClusterJobs

/-! ## Races with the token -/

namespace RetryWorld

variable {φ : Type} {w : RetryWorld φ} {race t ready f : Nat}

theorem le_of_not_beaten (h : w.beaten race t ready = false) (hf : w.firesAt = some f) :
    ready ≤ max t f := by
  simp only [beaten, hf, Bool.or_eq_false_iff, decide_eq_false_iff_not] at h
  exact Nat.le_of_not_lt h.1

theorem not_beatenAtOnce (h : ∀ f, w.firesAt = some f → t < f) : w.beatenAtOnce race t = false := by
  cases hf : w.firesAt with
  | none => simp [beatenAtOnce, hf]
  | some f => simp [beatenAtOnce, hf, h f hf]

theorem not_beaten (h : ∀ f, w.firesAt = some f → ready < f) : w.beaten race t ready = false := by
  cases hf : w.firesAt with
  | none => simp [beaten, hf]
  | some f =>
    have hlt := h f hf
    simp only [beaten, hf, Bool.or_eq_false_iff, decide_eq_false_iff_not, Bool.and_eq_false_imp,
      beq_iff_eq]
    exact ⟨by omega, fun heq => by omega⟩

theorem not_beatenAtOnce_of_never (h : w.firesAt = none) : w.beatenAtOnce race t = false := by
  simp [beatenAtOnce, h]

theorem not_beaten_of_never (h : w.firesAt = none) : w.beaten race t ready = false := by
  simp [beaten, h]

end RetryWorld

namespace Backoff

section Rounds

variable {α ε δ φ : Type}

theorem isLast_iff {b : Backoff δ φ} {k : Nat} :
    b.isLast k = true ↔ 0 < b.maxAttempts.toNat ∧ b.maxAttempts.toNat ≤ k + 1 := by
  simp [isLast, UInt32.lt_iff_toNat_lt]

theorem isLast_eq_false_iff {b : Backoff δ φ} {k : Nat} :
    b.isLast k = false ↔ b.maxAttempts.toNat = 0 ∨ k + 1 < b.maxAttempts.toNat := by
  rw [← Bool.not_eq_true, isLast_iff]
  omega

variable [Pacing δ φ]

/-! ## Delays -/

/-- The delay that is due after attempt `k`, before jitter. -/
def delay? (b : Backoff δ φ) : Nat → Option δ
  | 0 => some b.initialDelay
  | k + 1 => (b.delay? k).bind fun d => Pacing.grow? d b.multiplier b.maxDelay

/-- The pause that is due after attempt `k`. -/
def pause? (b : Backoff δ φ) (jitter : Nat → φ) (k : Nat) : Option δ :=
  (b.delay? k).bind fun d => Pacing.stretch? d (jitter k)

/-- Between the first `n` attempts there are all pauses, and the delays after them. -/
def Spaced (b : Backoff δ φ) (jitter : Nat → φ) (n : Nat) : Prop :=
  ∀ k, k + 1 < n → b.pause? jitter k ≠ none ∧ b.delay? (k + 1) ≠ none

/-! ## Rounds -/

/-- Attempt `k` ends with a failure. -/
def Failing (attempt : Nat → Attempt α ε) (k : Nat) : Prop :=
  ∃ takes e, attempt k = some (takes, .error e)

/-- Attempt `k` is counted, and made at the time `t`. -/
structure Starts (b : Backoff δ φ) (w : RetryWorld φ) (k t : Nat) : Prop where
  counted : Pacing.counts δ (k + 1) = true
  unbeaten : w.beatenAtOnce (2 * k) t = false

/-- Attempt `k` is made at the time `t`, and its result is there at the time `ended`, before the token
comes. -/
inductive Yields (b : Backoff δ φ) (w : RetryWorld φ) (attempt : Nat → Attempt α ε) (k t : Nat)
    (result : Except ε α) : Nat → Prop where
  | intro {takes : Nat} : b.Starts w k t → attempt k = some (takes, result) →
      w.beaten (2 * k) t (t + takes) = false → Yields b w attempt k t result (t + takes)

/-- Attempt `k` is made at the time `t` and fails, and the next one is due at the time `ready`. -/
inductive Passes (b : Backoff δ φ) (w : RetryWorld φ) (attempt : Nat → Attempt α ε) (k t : Nat) :
    Nat → Prop where
  | intro {ended : Nat} {e : ε} {pause : δ} : b.Yields w attempt k t (.error e) ended →
      b.isLast k = false → b.pause? w.jitter k = some pause →
      w.beaten (2 * k + 1) ended (wake ended pause) = false → b.delay? (k + 1) ≠ none →
      Passes b w attempt k t (wake ended pause)

/-- Attempt `k` is due at the time `t`, and the run ends before the one after it. -/
inductive Ends (b : Backoff δ φ) (w : RetryWorld φ) (attempt : Nat → Attempt α ε) (k t : Nat) :
    RetryRun α ε → Prop where
  | uncounted : Pacing.counts δ (k + 1) = false → Ends b w attempt k t ⟨none, k, t⟩
  | beatenAtOnce : Pacing.counts δ (k + 1) = true → w.beatenAtOnce (2 * k) t = true →
      Ends b w attempt k t ⟨some .cancelled, k, t⟩
  | hangs {f : Nat} : b.Starts w k t → attempt k = none → w.firesAt = some f →
      Ends b w attempt k t ⟨some .cancelled, k + 1, max t f⟩
  | beaten {takes : Nat} {result : Except ε α} : b.Starts w k t →
      attempt k = some (takes, result) → w.beaten (2 * k) t (t + takes) = true →
      Ends b w attempt k t ⟨some .cancelled, k + 1, w.cancelTime t⟩
  | succeeds {a : α} {ended : Nat} : b.Yields w attempt k t (.ok a) ended →
      Ends b w attempt k t ⟨some (.succeeded a), k + 1, ended⟩
  | exhausts {e : ε} {ended : Nat} : b.Yields w attempt k t (.error e) ended → b.isLast k = true →
      Ends b w attempt k t ⟨some (.exhausted e), k + 1, ended⟩
  | noPause {e : ε} {ended : Nat} : b.Yields w attempt k t (.error e) ended → b.isLast k = false →
      b.pause? w.jitter k = none → Ends b w attempt k t ⟨none, k + 1, ended⟩
  | beatenAsleep {e : ε} {ended : Nat} {pause : δ} : b.Yields w attempt k t (.error e) ended →
      b.isLast k = false → b.pause? w.jitter k = some pause →
      w.beaten (2 * k + 1) ended (wake ended pause) = true →
      Ends b w attempt k t ⟨some .cancelled, k + 1, w.cancelTime ended⟩
  | noDelay {e : ε} {ended : Nat} {pause : δ} : b.Yields w attempt k t (.error e) ended →
      b.isLast k = false → b.pause? w.jitter k = some pause →
      w.beaten (2 * k + 1) ended (wake ended pause) = false → b.delay? (k + 1) = none →
      Ends b w attempt k t ⟨none, k + 1, wake ended pause⟩

/-- A run that is at attempt `k` at the time `t` comes to attempt `last` at the time `s`. -/
inductive Reaches (b : Backoff δ φ) (w : RetryWorld φ) (attempt : Nat → Attempt α ε)
    (last s : Nat) : Nat → Nat → Prop where
  | here : Reaches b w attempt last s last s
  | later {k t ready : Nat} : b.Passes w attempt k t ready →
      Reaches b w attempt last s (k + 1) ready → Reaches b w attempt last s k t

variable {b : Backoff δ φ} {w : RetryWorld φ} {attempt : Nat → Attempt α ε} {jitter : Nat → φ}
  {fuel k t s ready takes ended last ended' last' : Nat} {result : Except ε α} {a a' : α} {e : ε}
  {d : δ} {run : RetryRun α ε}

theorem le_wake (t : Nat) (pause : δ) : t ≤ wake t pause :=
  Nat.le_add_right _ _

theorem pause?_eq (hd : b.delay? k = some d) (jitter : Nat → φ) :
    b.pause? jitter k = Pacing.stretch? d (jitter k) := by
  rw [pause?, hd, Option.bind_some]

theorem delay?_succ (hd : b.delay? k = some d) :
    b.delay? (k + 1) = Pacing.grow? d b.multiplier b.maxDelay := by
  rw [delay?, hd, Option.bind_some]

theorem Yields.starts (hy : b.Yields w attempt k t result ended) : b.Starts w k t := by
  obtain ⟨hstart, -, -⟩ := hy
  exact hstart

theorem Yields.failing {e : ε} (hy : b.Yields w attempt k t (.error e) ended) :
    Failing attempt k := by
  obtain ⟨-, hattempt, -⟩ := hy
  exact ⟨_, _, hattempt⟩

theorem Yields.retryFrom_of_ok (hy : b.Yields w attempt k t (.ok a) ended) :
    b.retryFrom w attempt (fuel + 1) k d t = some ⟨some (.succeeded a), k + 1, ended⟩ := by
  obtain ⟨⟨hcounted, hstart⟩, hattempt, hflight⟩ := hy
  simp [retryFrom, hcounted, hstart, hattempt, hflight]

theorem Yields.retryFrom_of_error (hy : b.Yields w attempt k t (.error e) ended) :
    b.retryFrom w attempt (fuel + 1) k d t =
      match b.afterFailure (α := α) w k d ended e with
      | .error run => some run
      | .ok (next, ready) => b.retryFrom w attempt fuel (k + 1) next ready := by
  obtain ⟨⟨hcounted, hstart⟩, hattempt, hflight⟩ := hy
  simp only [retryFrom, hcounted, hstart, hattempt, hflight]
  rfl

theorem Passes.retryFrom_eq (hp : b.Passes w attempt k t ready) (hd : b.delay? k = some d) :
    ∃ next, b.delay? (k + 1) = some next ∧
      b.retryFrom w attempt (fuel + 1) k d t = b.retryFrom w attempt fuel (k + 1) next ready := by
  obtain ⟨hy, hlast, hpause, hasleep, hnext⟩ := hp
  obtain ⟨next, hnext⟩ := Option.ne_none_iff_exists'.1 hnext
  refine ⟨next, hnext, ?_⟩
  rw [pause?_eq hd] at hpause
  rw [delay?_succ hd] at hnext
  simp [hy.retryFrom_of_error, afterFailure, hlast, hpause, hasleep, hnext]

theorem Ends.retryFrom_eq (he : b.Ends w attempt k t run) (hd : b.delay? k = some d) :
    b.retryFrom w attempt (fuel + 1) k d t = some run := by
  cases he with
  | uncounted hcounted => simp [retryFrom, hcounted]
  | beatenAtOnce hcounted hstart => simp [retryFrom, hcounted, hstart]
  | hangs hstart hattempt hfires =>
    simp [retryFrom, hstart.counted, hstart.unbeaten, hattempt, hfires]
  | beaten hstart hattempt hflight =>
    simp [retryFrom, hstart.counted, hstart.unbeaten, hattempt, hflight]
  | succeeds hy => exact hy.retryFrom_of_ok
  | exhausts hy hlast => simp [hy.retryFrom_of_error, afterFailure, hlast]
  | noPause hy hlast hpause =>
    rw [pause?_eq hd] at hpause
    simp [hy.retryFrom_of_error, afterFailure, hlast, hpause]
  | beatenAsleep hy hlast hpause hasleep =>
    rw [pause?_eq hd] at hpause
    simp [hy.retryFrom_of_error, afterFailure, hlast, hpause, hasleep]
  | noDelay hy hlast hpause hasleep hnext =>
    rw [pause?_eq hd] at hpause
    rw [delay?_succ hd] at hnext
    simp [hy.retryFrom_of_error, afterFailure, hlast, hpause, hasleep, hnext]

theorem Ends.attempts_eq (he : b.Ends w attempt k t run) :
    run.attempts = k ∨ run.attempts = k + 1 := by
  cases he with
  | uncounted | beatenAtOnce => exact .inl rfl
  | _ => exact .inr rfl

/-- A failure ends the run or leads to the next attempt. -/
theorem ends_or_passes_of_yields (hy : b.Yields w attempt k t (.error e) ended) :
    (∃ run, b.Ends w attempt k t run) ∨ ∃ ready, b.Passes w attempt k t ready := by
  cases hlast : b.isLast k with
  | true => exact .inl ⟨_, .exhausts hy hlast⟩
  | false =>
  cases hpause : b.pause? w.jitter k with
  | none => exact .inl ⟨_, .noPause hy hlast hpause⟩
  | some pause =>
  cases hasleep : w.beaten (2 * k + 1) ended (wake ended pause) with
  | true => exact .inl ⟨_, .beatenAsleep hy hlast hpause hasleep⟩
  | false =>
  by_cases hnext : b.delay? (k + 1) = none
  · exact .inl ⟨_, .noDelay hy hlast hpause hasleep hnext⟩
  · exact .inr ⟨_, .intro hy hlast hpause hasleep hnext⟩

/-- A round ends the run or leads to the next round, unless its attempt never ends and the token
never fires. -/
theorem round_cases (b : Backoff δ φ) (w : RetryWorld φ) (attempt : Nat → Attempt α ε) (k t : Nat) :
    (∃ run, b.Ends w attempt k t run) ∨ (∃ ready, b.Passes w attempt k t ready) ∨
      b.Starts w k t ∧ attempt k = none ∧ w.firesAt = none := by
  cases hcounted : Pacing.counts δ (k + 1) with
  | false => exact .inl ⟨_, .uncounted hcounted⟩
  | true =>
  cases hunbeaten : w.beatenAtOnce (2 * k) t with
  | true => exact .inl ⟨_, .beatenAtOnce hcounted hunbeaten⟩
  | false =>
  have hstart : b.Starts w k t := ⟨hcounted, hunbeaten⟩
  cases hattempt : attempt k with
  | none =>
    cases hfires : w.firesAt with
    | none => exact .inr (.inr ⟨hstart, rfl, rfl⟩)
    | some f => exact .inl ⟨_, .hangs hstart hattempt hfires⟩
  | some p =>
  obtain ⟨takes, result⟩ := p
  cases hflight : w.beaten (2 * k) t (t + takes) with
  | true => exact .inl ⟨_, .beaten hstart hattempt hflight⟩
  | false =>
  have hy : b.Yields w attempt k t result (t + takes) := .intro hstart hattempt hflight
  cases result with
  | ok a => exact .inl ⟨_, .succeeds hy⟩
  | error e => exact (ends_or_passes_of_yields hy).imp_right .inl

/-- A round ends the run, or what follows it does. -/
theorem retryFrom_succ_eq_some_iff (hd : b.delay? k = some d) :
    b.retryFrom w attempt (fuel + 1) k d t = some run ↔ b.Ends w attempt k t run ∨
      ∃ next ready, b.delay? (k + 1) = some next ∧ b.Passes w attempt k t ready ∧
        b.retryFrom w attempt fuel (k + 1) next ready = some run := by
  constructor
  · intro h
    rcases round_cases b w attempt k t with
      ⟨run', hends⟩ | ⟨ready, hpasses⟩ | ⟨hstart, hattempt, hfires⟩
    · cases (hends.retryFrom_eq hd).symm.trans h
      exact .inl hends
    · obtain ⟨next, hnext, heq⟩ := hpasses.retryFrom_eq hd
      exact .inr ⟨next, ready, hnext, hpasses, heq.symm.trans h⟩
    · simp [retryFrom, hstart.counted, hstart.unbeaten, hattempt, hfires] at h
  · rintro (hends | ⟨next, ready, hnext, hpasses, hrest⟩)
    · exact hends.retryFrom_eq hd
    · obtain ⟨next', hnext', heq⟩ := hpasses.retryFrom_eq hd
      cases hnext.symm.trans hnext'
      exact heq.trans hrest

/-! ## Runs -/

theorem Reaches.le_last (hr : b.Reaches w attempt last s k t) : k ≤ last := by
  induction hr with
  | here => exact le_rfl
  | later _ _ ih => exact Nat.le_of_succ_le ih

theorem Passes.delay?_ne_none (hp : b.Passes w attempt k t ready) : b.delay? (k + 1) ≠ none := by
  obtain ⟨-, -, -, -, hnext⟩ := hp
  exact hnext

/-- A run ends if and only if it comes to an attempt that ends it. -/
theorem retryFrom_eq_some_iff (hd : b.delay? k = some d) :
    b.retryFrom w attempt fuel k d t = some run ↔
      ∃ last s, b.Reaches w attempt last s k t ∧ b.Ends w attempt last s run ∧ last < k + fuel := by
  induction fuel generalizing k d t with
  | zero =>
    refine ⟨nofun, ?_⟩
    rintro ⟨last, s, hreaches, -, hlt⟩
    exact absurd hreaches.le_last (Nat.not_le.2 hlt)
  | succ fuel ih =>
    rw [retryFrom_succ_eq_some_iff hd]
    constructor
    · rintro (hends | ⟨next, ready, hnext, hpasses, hrest⟩)
      · exact ⟨k, t, .here, hends, by omega⟩
      · obtain ⟨last, s, hreaches, hends, hlt⟩ := (ih hnext).1 hrest
        exact ⟨last, s, .later hpasses hreaches, hends, by omega⟩
    · rintro ⟨last, s, hreaches, hends, hlt⟩
      cases hreaches with
      | here => exact .inl hends
      | later hpasses hrest =>
        obtain ⟨next, hnext⟩ := Option.ne_none_iff_exists'.1 hpasses.delay?_ne_none
        exact .inr ⟨next, _, hnext, hpasses, (ih hnext).2 ⟨last, s, hrest, hends, by omega⟩⟩

theorem retry_eq_some_iff : b.retry w attempt fuel t = some run ↔
    ∃ last s, b.Reaches w attempt last s 0 t ∧ b.Ends w attempt last s run ∧ last < fuel := by
  rw [retry, retryFrom_eq_some_iff rfl, Nat.zero_add]

/-- After attempt `k` there is another one, unless the token comes. -/
structure Proceeds (b : Backoff δ φ) (jitter : Nat → φ) (attempt : Nat → Attempt α ε) (k : Nat) :
    Prop where
  counted : Pacing.counts δ (k + 1) = true
  failing : Failing attempt k
  permitted : b.isLast k = false
  pause : b.pause? jitter k ≠ none
  delay : b.delay? (k + 1) ≠ none

theorem Passes.proceeds (hp : b.Passes w attempt k t ready) : b.Proceeds w.jitter attempt k := by
  obtain ⟨hy, hlast, hpause, -, hnext⟩ := hp
  obtain ⟨hstart, hattempt, -⟩ := hy
  exact ⟨hstart.counted, ⟨_, _, hattempt⟩, hlast, by rw [hpause]; exact nofun, hnext⟩

/-- The attempts before one that a run comes to were followed by others. -/
theorem Reaches.before (hr : b.Reaches w attempt last s k t) {j : Nat} (hk : k ≤ j) (hj : j < last) :
    b.Proceeds w.jitter attempt j := by
  induction hr with
  | here => omega
  | later hpasses _ ih =>
    obtain heq | hlt := hk.eq_or_lt
    · exact heq ▸ hpasses.proceeds
    · exact ih hlt

theorem Reaches.snoc (hr : b.Reaches w attempt last s k t)
    (hp : b.Passes w attempt last s ready) : b.Reaches w attempt (last + 1) ready k t := by
  induction hr with
  | here => exact .later hp .here
  | later hpasses _ ih => exact .later hpasses ih

/-! ## Tokens that do not fire -/

theorem Starts.of_never (hnever : w.firesAt = none) (hcounted : Pacing.counts δ (k + 1) = true)
    (t : Nat) : b.Starts w k t :=
  ⟨hcounted, RetryWorld.not_beatenAtOnce_of_never hnever⟩

theorem Yields.of_never (hnever : w.firesAt = none) (hcounted : Pacing.counts δ (k + 1) = true)
    (hattempt : attempt k = some (takes, result)) (t : Nat) :
    b.Yields w attempt k t result (t + takes) :=
  .intro (.of_never hnever hcounted t) hattempt (RetryWorld.not_beaten_of_never hnever)

theorem Proceeds.exists_passes (hp : b.Proceeds w.jitter attempt k) (hnever : w.firesAt = none)
    (t : Nat) : ∃ ready, b.Passes w attempt k t ready := by
  obtain ⟨hcounted, ⟨takes, e, hattempt⟩, hlast, hpause, hnext⟩ := hp
  obtain ⟨pause, hpause⟩ := Option.ne_none_iff_exists'.1 hpause
  exact ⟨_, .intro (.of_never hnever hcounted hattempt t) hlast hpause
    (RetryWorld.not_beaten_of_never hnever) hnext⟩

/-- If the token never fires, a run comes to each attempt before which all are followed by others. -/
theorem exists_reaches_of_never (hnever : w.firesAt = none) (t : Nat)
    (hbefore : ∀ j < last, b.Proceeds w.jitter attempt j) :
    ∃ s, b.Reaches w attempt last s 0 t := by
  induction last with
  | zero => exact ⟨t, .here⟩
  | succ last ih =>
    obtain ⟨s, hreaches⟩ := ih fun j hj => hbefore j (hj.trans (Nat.lt_succ_self _))
    obtain ⟨ready, hpasses⟩ := (hbefore last (Nat.lt_succ_self _)).exists_passes hnever s
    exact ⟨ready, hreaches.snoc hpasses⟩

/-! ## Times -/

/-- The time `ended` is not before `t`, and if it is after that, not after the token has fired. -/
structure Within (w : RetryWorld φ) (t ended : Nat) : Prop where
  le : t ≤ ended
  le_fires : ∀ f, w.firesAt = some f → ended ≤ max t f

theorem Within.refl : Within w t t :=
  ⟨le_rfl, fun _ _ => le_max_left _ _⟩

theorem Within.trans (hw : Within w t ended) (hw' : Within w ended ended') : Within w t ended' :=
  ⟨hw.le.trans hw'.le, fun f hf =>
    (hw'.le_fires f hf).trans (max_le (hw.le_fires f hf) (le_max_right _ _))⟩

theorem within_cancelTime (w : RetryWorld φ) (t : Nat) : Within w t (w.cancelTime t) := by
  refine ⟨le_max_left _ _, fun f hf => ?_⟩
  rw [RetryWorld.cancelTime, hf]
  exact le_rfl

theorem within_wake {race : Nat} {pause : δ} (h : w.beaten race t (wake t pause) = false) :
    Within w t (wake t pause) :=
  ⟨le_wake _ _, fun _ => RetryWorld.le_of_not_beaten h⟩

theorem Yields.within (hy : b.Yields w attempt k t result ended) : Within w t ended := by
  obtain ⟨-, -, hflight⟩ := hy
  exact ⟨Nat.le_add_right _ _, fun _ => RetryWorld.le_of_not_beaten hflight⟩

theorem Passes.within (hp : b.Passes w attempt k t ready) : Within w t ready := by
  obtain ⟨hy, -, -, hasleep, -⟩ := hp
  exact hy.within.trans (within_wake hasleep)

theorem Ends.within (he : b.Ends w attempt k t run) : Within w t run.endedAt := by
  cases he with
  | uncounted | beatenAtOnce => exact .refl
  | hangs _ _ hfires =>
    refine ⟨le_max_left _ _, fun f hf => ?_⟩
    cases hfires.symm.trans hf
    exact le_rfl
  | beaten => exact within_cancelTime w t
  | succeeds hy => exact hy.within
  | exhausts hy => exact hy.within
  | noPause hy => exact hy.within
  | beatenAsleep hy => exact hy.within.trans (within_cancelTime w _)
  | noDelay hy _ _ hasleep => exact hy.within.trans (within_wake hasleep)

theorem Reaches.within (hr : b.Reaches w attempt last s k t) : Within w t s := by
  induction hr with
  | here => exact .refl
  | later hpasses _ ih => exact hpasses.within.trans ih

theorem within_of_retry (h : b.retry w attempt fuel t = some run) : Within w t run.endedAt := by
  obtain ⟨last, s, hreaches, hends, -⟩ := retry_eq_some_iff.1 h
  exact hreaches.within.trans hends.within

/-! ## Successes -/

/-- Attempt `k` is made at the time `t` and fails, and the next one is made at the time `ready`,
whenever the token fires. -/
inductive Fails (b : Backoff δ φ) (jitter : Nat → φ) (attempt : Nat → Attempt α ε) (k t : Nat) :
    Nat → Prop where
  | intro {takes : Nat} {e : ε} {pause : δ} : Pacing.counts δ (k + 1) = true →
      attempt k = some (takes, .error e) → b.isLast k = false → b.pause? jitter k = some pause →
      b.delay? (k + 1) ≠ none → Fails b jitter attempt k t (wake (t + takes) pause)

/-- Attempts are made from attempt `k` at the time `t` on. The first that does not fail is attempt
`last`, which yields `a` at the time `ended`. -/
inductive Succeeds (b : Backoff δ φ) (jitter : Nat → φ) (attempt : Nat → Attempt α ε)
    (last ended : Nat) (a : α) : Nat → Nat → Prop where
  | now {t takes : Nat} : Pacing.counts δ (last + 1) = true →
      attempt last = some (takes, .ok a) → ended = t + takes →
      Succeeds b jitter attempt last ended a last t
  | later {k t ready : Nat} : b.Fails jitter attempt k t ready →
      Succeeds b jitter attempt last ended a (k + 1) ready →
      Succeeds b jitter attempt last ended a k t

theorem Passes.fails (hp : b.Passes w attempt k t ready) : b.Fails w.jitter attempt k t ready := by
  obtain ⟨⟨hstart, hattempt, -⟩, hlast, hpause, -, hnext⟩ := hp
  exact .intro hstart.counted hattempt hlast hpause hnext

theorem Reaches.succeeds (hr : b.Reaches w attempt last s k t)
    (hcounted : Pacing.counts δ (last + 1) = true) (hattempt : attempt last = some (takes, .ok a)) :
    b.Succeeds w.jitter attempt last (s + takes) a k t := by
  induction hr with
  | here => exact .now hcounted hattempt rfl
  | later hpasses _ ih => exact .later hpasses.fails ih

theorem succeeds_of_retry (h : b.retry w attempt fuel t = some run)
    (ha : run.result = some (.succeeded a)) :
    ∃ last, b.Succeeds w.jitter attempt last run.endedAt a 0 t ∧ run.attempts = last + 1 := by
  obtain ⟨last, s, hreaches, hends, -⟩ := retry_eq_some_iff.1 h
  cases hends with
  | succeeds hy =>
    obtain ⟨hstart, hattempt, -⟩ := hy
    cases ha
    exact ⟨last, hreaches.succeeds hstart.counted hattempt, rfl⟩
  | _ => cases ha

theorem Fails.le (hf : b.Fails jitter attempt k t ready) : t ≤ ready := by
  cases hf
  exact (Nat.le_add_right _ _).trans (le_wake _ _)

theorem Succeeds.le (hs : b.Succeeds jitter attempt last ended a k t) : t ≤ ended := by
  induction hs with
  | now _ _ hended => exact hended ▸ Nat.le_add_right _ _
  | later hfails _ ih => exact hfails.le.trans ih

theorem Succeeds.unique (hs : b.Succeeds jitter attempt last ended a k t)
    (hs' : b.Succeeds jitter attempt last' ended' a' k t) :
    last = last' ∧ ended = ended' ∧ a = a' := by
  induction hs with
  | now _ hattempt hended =>
    cases hs' with
    | now _ hattempt' hended' =>
      cases hattempt.symm.trans hattempt'
      exact ⟨rfl, hended.trans hended'.symm, rfl⟩
    | later hfails' _ =>
      obtain ⟨-, hattempt', -, -, -⟩ := hfails'
      cases hattempt.symm.trans hattempt'
  | later hfails hlater ih =>
    obtain ⟨-, hattempt, -, hpause, -⟩ := hfails
    cases hs' with
    | now _ hattempt' _ => cases hattempt.symm.trans hattempt'
    | later hfails' hlater' =>
      obtain ⟨-, hattempt', -, hpause', -⟩ := hfails'
      cases hattempt.symm.trans hattempt'
      cases hpause.symm.trans hpause'
      exact ih hlater'

theorem Succeeds.attempt_last (hs : b.Succeeds jitter attempt last ended a k t) :
    ∃ takes, attempt last = some (takes, .ok a) := by
  induction hs with
  | now _ hattempt _ => exact ⟨_, hattempt⟩
  | later _ _ ih => exact ih

/-- The attempts before the first success fail. -/
theorem Succeeds.fails_before (hs : b.Succeeds jitter attempt last ended a k t) {j : Nat}
    (hk : k ≤ j) (hj : j < last) : ∃ takes e, attempt j = some (takes, .error e) := by
  induction hs with
  | now => omega
  | @later k t ready hfails _ ih =>
    obtain heq | hlt := hk.eq_or_lt
    · obtain ⟨-, hattempt, -, -, -⟩ := hfails
      exact heq ▸ ⟨_, _, hattempt⟩
    · exact ih hlt

/-- A failure leads to the next attempt if the token does not fire before it. -/
theorem Fails.passes (hf : b.Fails w.jitter attempt k t ready)
    (hfires : ∀ f, w.firesAt = some f → ready < f) : b.Passes w attempt k t ready := by
  have hle := hf.le
  obtain ⟨hcounted, hattempt, hlast, hpause, hnext⟩ := hf
  refine .intro (.intro ⟨hcounted, ?_⟩ hattempt ?_) hlast hpause (RetryWorld.not_beaten hfires) hnext
  · exact RetryWorld.not_beatenAtOnce fun f hf => hle.trans_lt (hfires f hf)
  · exact RetryWorld.not_beaten fun f hf => (le_wake _ _).trans_lt (hfires f hf)

/-- The first success is come to if the token does not fire before it. -/
theorem Succeeds.exists_reaches (hs : b.Succeeds w.jitter attempt last ended a k t)
    (hfires : ∀ f, w.firesAt = some f → ended < f) :
    ∃ s, b.Reaches w attempt last s k t ∧ b.Yields w attempt last s (.ok a) ended := by
  induction hs with
  | @now t takes hcounted hattempt hended =>
    subst hended
    have hstart : w.beatenAtOnce (2 * last) t = false :=
      RetryWorld.not_beatenAtOnce fun f hf => (Nat.le_add_right _ _).trans_lt (hfires f hf)
    exact ⟨t, .here, .intro ⟨hcounted, hstart⟩ hattempt (RetryWorld.not_beaten hfires)⟩
  | later hfails hlater ih =>
    have hpasses := hfails.passes fun f hf => hlater.le.trans_lt (hfires f hf)
    obtain ⟨s, hreaches, hy⟩ := ih
    exact ⟨s, .later hpasses hreaches, hy⟩

theorem retry_of_succeeds (hs : b.Succeeds w.jitter attempt last ended a 0 t)
    (hfires : ∀ f, w.firesAt = some f → ended < f) (hfuel : last < fuel) :
    b.retry w attempt fuel t = some ⟨some (.succeeded a), last + 1, ended⟩ := by
  obtain ⟨s, hreaches, hy⟩ := hs.exists_reaches hfires
  exact retry_eq_some_iff.2 ⟨last, s, hreaches, .succeeds hy, hfuel⟩

end Rounds

end Backoff

end ClusterJobs
