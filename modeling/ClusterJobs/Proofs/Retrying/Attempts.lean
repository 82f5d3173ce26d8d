import ClusterJobs.Proofs.Retrying.Durations

/-!
# What a retried operation tells of its attempts

A run that has ended tells how many attempts it has made and how the last one ended. Attempts after
that are not made, whatever they would have come to. If the token never fires, the number of attempts
is that of the first success or of the last permitted one, exactly if all pauses before it are
durations and it can be counted.
-/

namespace ClusterJobs

namespace RetryWorld

variable {φ : Type} {w : RetryWorld φ} {race t ready f : Nat}

theorem exists_fires_of_beatenAtOnce (h : w.beatenAtOnce race t = true) :
    ∃ f, w.firesAt = some f ∧ f ≤ t := by
  cases hf : w.firesAt with
  | none => simp [beatenAtOnce, hf] at h
  | some f =>
    simp only [beatenAtOnce, hf, Bool.and_eq_true, decide_eq_true_eq] at h
    exact ⟨f, rfl, h.1⟩

theorem exists_fires_of_beaten (h : w.beaten race t ready = true) (t' : Nat) :
    ∃ f, w.firesAt = some f ∧ f ≤ w.cancelTime t' := by
  cases hf : w.firesAt with
  | none => simp [beaten, hf] at h
  | some f => exact ⟨f, rfl, by simp [cancelTime, hf]⟩

end RetryWorld

namespace Backoff

variable {α ε : Type} {b : ClockBackoff} {w : RetryWorld Float} {attempt attempt' : Nat → Attempt α ε}
  {fuel k n t s ready last ended : Nat} {result : Except ε α} {run : RetryRun α ε}

/-! ## Permitted attempts -/

/-- Attempts are counted with 32 bits. -/
theorem counts_iff : Pacing.counts Duration n = true ↔ n < 2 ^ 32 :=
  decide_eq_true_iff

theorem not_counts_iff : Pacing.counts Duration n = false ↔ 2 ^ 32 ≤ n :=
  decide_eq_false_iff_not.trans Nat.not_lt

theorem Reaches.permitted (hr : b.Reaches w attempt last s 0 t) (hpos : 0 < b.maxAttempts.toNat) :
    last < b.maxAttempts.toNat := by
  cases last with
  | zero => exact hpos
  | succ last =>
    have hlast := (hr.before (Nat.zero_le _) (Nat.lt_succ_self last)).permitted
    rcases isLast_eq_false_iff.1 hlast with hzero | hlt
    · omega
    · exact hlt

/-! ## Reports -/

/-- What a run that has ended tells of its attempts. -/
structure Reports (b : ClockBackoff) (w : RetryWorld Float) (attempt : Nat → Attempt α ε)
    (run : RetryRun α ε) : Prop where
  /-- All attempts but the last one have failed, so none is made after a success. -/
  failed : ∀ k, k + 1 < run.attempts → Failing attempt k
  succeeded : ∀ a, run.result = some (.succeeded a) →
    ∃ last takes, run.attempts = last + 1 ∧ attempt last = some (takes, .ok a)
  exhausted : ∀ e, run.result = some (.exhausted e) →
    0 < b.maxAttempts.toNat ∧ run.attempts = b.maxAttempts.toNat ∧
      ∃ last takes, run.attempts = last + 1 ∧ attempt last = some (takes, .error e)
  cancelled : run.result = some .cancelled → ∃ f, w.firesAt = some f ∧ f ≤ run.endedAt
  /-- Without a result, the last attempt has failed and more are permitted, but what follows it is no
  duration, or the next attempt cannot be counted. -/
  broken : run.result = none → ∃ last, run.attempts = last + 1 ∧ Failing attempt last ∧
    b.isLast last = false ∧ (¬ b.Spaced w.jitter (last + 2) ∨ 2 ^ 32 ≤ last + 2)
  permitted : 0 < b.maxAttempts.toNat → run.attempts ≤ b.maxAttempts.toNat
  counted : run.attempts < 2 ^ 32

section Ended

variable (hr : b.Reaches w attempt last s 0 t) (he : b.Ends w attempt last s run)

include hr he

theorem Ends.exhausted {e : ε} (hresult : run.result = some (.exhausted e)) :
    0 < b.maxAttempts.toNat ∧ run.attempts = b.maxAttempts.toNat ∧
      ∃ last takes, run.attempts = last + 1 ∧ attempt last = some (takes, .error e) := by
  cases he with
  | exhausts hy hlast =>
    cases hresult
    obtain ⟨-, hattempt, -⟩ := hy
    obtain ⟨hpos, hle⟩ := isLast_iff.1 hlast
    exact ⟨hpos, le_antisymm (hr.permitted hpos) hle, last, _, rfl, hattempt⟩
  | _ => cases hresult

omit hr in
theorem Ends.cancelled (hresult : run.result = some .cancelled) :
    ∃ f, w.firesAt = some f ∧ f ≤ run.endedAt := by
  cases he with
  | beatenAtOnce _ hstart => exact RetryWorld.exists_fires_of_beatenAtOnce hstart
  | hangs _ _ hfires => exact ⟨_, hfires, le_max_right _ _⟩
  | beaten _ _ hflight => exact RetryWorld.exists_fires_of_beaten hflight _
  | beatenAsleep _ _ _ hasleep => exact RetryWorld.exists_fires_of_beaten hasleep _
  | _ => cases hresult

theorem Ends.broken (hresult : run.result = none) :
    ∃ last, run.attempts = last + 1 ∧ Failing attempt last ∧ b.isLast last = false ∧
      (¬ b.Spaced w.jitter (last + 2) ∨ 2 ^ 32 ≤ last + 2) := by
  cases he with
  | uncounted hcounted =>
    have hlarge := not_counts_iff.1 hcounted
    obtain ⟨k, rfl⟩ : ∃ k, last = k + 1 := ⟨last - 1, by omega⟩
    have hbefore := hr.before (Nat.zero_le k) (Nat.lt_succ_self k)
    exact ⟨k, rfl, hbefore.failing, hbefore.permitted, .inr hlarge⟩
  | noPause hy hlast hpause =>
    exact ⟨last, rfl, hy.failing, hlast, .inl fun hspaced =>
      (hspaced last (Nat.lt_succ_self _)).1 hpause⟩
  | noDelay hy hlast _ _ hnext =>
    exact ⟨last, rfl, hy.failing, hlast, .inl fun hspaced =>
      (hspaced last (Nat.lt_succ_self _)).2 hnext⟩
  | _ => cases hresult

theorem Ends.permitted (hpos : 0 < b.maxAttempts.toNat) : run.attempts ≤ b.maxAttempts.toNat := by
  have hlt := hr.permitted hpos
  rcases he.attempts_eq with heq | heq <;> omega

theorem Ends.counted : run.attempts < 2 ^ 32 := by
  have hlast : last < 2 ^ 32 := by
    cases last with
    | zero => decide
    | succ k => exact counts_iff.1 (hr.before (Nat.zero_le k) (Nat.lt_succ_self k)).counted
  cases he with
  | uncounted | beatenAtOnce => exact hlast
  | hangs hstart => exact counts_iff.1 hstart.counted
  | beaten hstart => exact counts_iff.1 hstart.counted
  | succeeds hy => exact counts_iff.1 hy.starts.counted
  | exhausts hy => exact counts_iff.1 hy.starts.counted
  | noPause hy => exact counts_iff.1 hy.starts.counted
  | beatenAsleep hy => exact counts_iff.1 hy.starts.counted
  | noDelay hy => exact counts_iff.1 hy.starts.counted

theorem Ends.reports : Reports b w attempt run where
  failed k hk :=
    (hr.before (Nat.zero_le k) (by rcases he.attempts_eq with heq | heq <;> omega)).failing
  succeeded a hresult := by
    cases he with
    | succeeds hy =>
      cases hresult
      obtain ⟨-, hattempt, -⟩ := hy
      exact ⟨last, _, rfl, hattempt⟩
    | _ => cases hresult
  exhausted _ := he.exhausted hr
  cancelled := he.cancelled
  broken := he.broken hr
  permitted := he.permitted hr
  counted := he.counted hr

end Ended

theorem reports_of_retry (h : b.retry w attempt fuel t = some run) : Reports b w attempt run := by
  obtain ⟨last, s, hreaches, hends, -⟩ := retry_eq_some_iff.1 h
  exact hends.reports hreaches

/-! ## Attempts that are not made -/

theorem Yields.congr (hy : b.Yields w attempt k t result ended) (h : attempt' k = attempt k) :
    b.Yields w attempt' k t result ended := by
  obtain ⟨hstart, hattempt, hflight⟩ := hy
  exact .intro hstart (h.trans hattempt) hflight

theorem Passes.congr (hp : b.Passes w attempt k t ready) (h : attempt' k = attempt k) :
    b.Passes w attempt' k t ready := by
  obtain ⟨hy, hlast, hpause, hasleep, hnext⟩ := hp
  exact .intro (hy.congr h) hlast hpause hasleep hnext

theorem Reaches.congr (hr : b.Reaches w attempt last s k t)
    (h : ∀ j < last, attempt' j = attempt j) : b.Reaches w attempt' last s k t := by
  induction hr with
  | here => exact .here
  | later hpasses hrest ih => exact .later (hpasses.congr (h _ hrest.le_last)) ih

theorem Ends.congr (he : b.Ends w attempt k t run) (h : k < run.attempts → attempt' k = attempt k) :
    b.Ends w attempt' k t run := by
  cases he with
  | uncounted hcounted => exact .uncounted hcounted
  | beatenAtOnce hcounted hstart => exact .beatenAtOnce hcounted hstart
  | hangs hstart hattempt hfires =>
    exact .hangs hstart ((h (Nat.lt_succ_self k)).trans hattempt) hfires
  | beaten hstart hattempt hflight =>
    exact .beaten hstart ((h (Nat.lt_succ_self k)).trans hattempt) hflight
  | succeeds hy => exact .succeeds (hy.congr (h (Nat.lt_succ_self k)))
  | exhausts hy hlast => exact .exhausts (hy.congr (h (Nat.lt_succ_self k))) hlast
  | noPause hy hlast hpause => exact .noPause (hy.congr (h (Nat.lt_succ_self k))) hlast hpause
  | beatenAsleep hy hlast hpause hasleep =>
    exact .beatenAsleep (hy.congr (h (Nat.lt_succ_self k))) hlast hpause hasleep
  | noDelay hy hlast hpause hasleep hnext =>
    exact .noDelay (hy.congr (h (Nat.lt_succ_self k))) hlast hpause hasleep hnext

/-- Only the attempts that a run counts make a difference to it. -/
theorem retry_congr (hrun : b.retry w attempt fuel t = some run)
    (h : ∀ k < run.attempts, attempt' k = attempt k) : b.retry w attempt' fuel t = some run := by
  obtain ⟨last, s, hreaches, hends, hfuel⟩ := retry_eq_some_iff.1 hrun
  have hle : last ≤ run.attempts := by rcases hends.attempts_eq with heq | heq <;> omega
  exact retry_eq_some_iff.2 ⟨last, s, hreaches.congr fun j hj => h j (hj.trans_le hle),
    hends.congr (h last), hfuel⟩

/-! ## The number of attempts -/

/-- Attempt `n` is the first that does not fail, and it succeeds. -/
structure FirstSuccess (attempt : Nat → Attempt α ε) (n : Nat) : Prop where
  before : ∀ k < n, Failing attempt k
  succeeds : ∃ takes a, attempt n = some (takes, .ok a)

/-- So many attempts, or as many as are permitted if these are fewer. -/
def capped (b : ClockBackoff) (n : Nat) : Nat :=
  if b.maxAttempts = 0 then n else min n b.maxAttempts.toNat

/-- Attempt `last` is the first that succeeds or is the last permitted one. -/
structure Final (b : ClockBackoff) (attempt : Nat → Attempt α ε) (last : Nat) : Prop where
  before : ∀ k < last, Failing attempt k ∧ b.isLast k = false
  ends : (∃ takes a, attempt last = some (takes, .ok a)) ∨
    Failing attempt last ∧ b.isLast last = true

theorem FirstSuccess.exists_final (hf : FirstSuccess attempt n) (b : ClockBackoff) :
    ∃ last, b.capped (n + 1) = last + 1 ∧ last ≤ n ∧ b.Final attempt last := by
  by_cases hzero : b.maxAttempts = 0
  · refine ⟨n, if_pos hzero, le_rfl, ⟨fun k hk => ?_, .inl hf.succeeds⟩⟩
    exact ⟨hf.before k hk, isLast_eq_false_iff.2 (.inl (congrArg UInt32.toNat hzero))⟩
  · have hcapped : b.capped (n + 1) = min (n + 1) b.maxAttempts.toNat := if_neg hzero
    have hpos : b.maxAttempts.toNat ≠ 0 := fun h => hzero (UInt32.toNat_inj.1 h)
    rcases Nat.lt_or_ge n b.maxAttempts.toNat with hlt | hge
    · refine ⟨n, by omega, le_rfl, ⟨fun k hk => ?_, .inl hf.succeeds⟩⟩
      exact ⟨hf.before k hk, isLast_eq_false_iff.2 (.inr (by omega))⟩
    · refine ⟨b.maxAttempts.toNat - 1, by omega, by omega, ⟨fun k hk => ?_, .inr ?_⟩⟩
      · exact ⟨hf.before k (by omega), isLast_eq_false_iff.2 (.inr (by omega))⟩
      · exact ⟨hf.before _ (by omega), isLast_iff.2 (by omega)⟩

theorem final_of_failing (hpos : 0 < b.maxAttempts.toNat)
    (hf : ∀ k < b.maxAttempts.toNat, Failing attempt k) :
    b.Final attempt (b.maxAttempts.toNat - 1) where
  before k hk := ⟨hf k (by omega), isLast_eq_false_iff.2 (.inr (by omega))⟩
  ends := .inr ⟨hf _ (by omega), isLast_iff.2 (by omega)⟩

/-- The attempts before attempt `n` can be counted, and there are all pauses between them. -/
def Makes (b : ClockBackoff) (jitter : Nat → Float) (n : Nat) : Prop :=
  n < 2 ^ 32 ∧ b.Spaced jitter n

theorem exists_first_unmade (h : ¬ b.Makes w.jitter (n + 1)) :
    ∃ k, k < n ∧ b.Makes w.jitter (k + 1) ∧ ¬ b.Makes w.jitter (k + 2) := by
  induction n with
  | zero => exact absurd ⟨by decide, fun _ hk => absurd hk (by omega)⟩ h
  | succ n ih =>
    by_cases hn : b.Makes w.jitter (n + 1)
    · exact ⟨n, Nat.lt_succ_self _, hn, h⟩
    · obtain ⟨k, hk, hmakes⟩ := ih hn
      exact ⟨k, hk.trans (Nat.lt_succ_self n), hmakes⟩

section Never

variable (hnever : w.firesAt = none)

include hnever

theorem exists_reaches_of_makes (hmakes : b.Makes w.jitter (last + 1))
    (hbefore : ∀ k < last, Failing attempt k ∧ b.isLast k = false) (t : Nat) :
    ∃ s, b.Reaches w attempt last s 0 t :=
  exists_reaches_of_never hnever t fun j hj =>
    have hspaced := hmakes.2 j (Nat.succ_lt_succ hj)
    ⟨counts_iff.2 (by have := hmakes.1; omega), (hbefore j hj).1, (hbefore j hj).2, hspaced.1,
      hspaced.2⟩

/-- A failure that is not followed by another attempt ends the run, without a result. -/
theorem exists_run_of_unmade (hbefore : ∀ j < k + 1, Failing attempt j ∧ b.isLast j = false)
    (hmakes : b.Makes w.jitter (k + 1)) (hunmade : ¬ b.Makes w.jitter (k + 2)) (t : Nat) :
    ∃ run, run.result = none ∧ run.attempts = k + 1 ∧
      ∀ fuel, k + 1 < fuel → b.retry w attempt fuel t = some run := by
  obtain ⟨⟨takes, e, hattempt⟩, hlast⟩ := hbefore k (Nat.lt_succ_self k)
  obtain ⟨s, hreaches⟩ := exists_reaches_of_makes hnever hmakes
    (fun j hj => hbefore j (hj.trans (Nat.lt_succ_self k))) t
  have hy := Yields.of_never (b := b) hnever (counts_iff.2 hmakes.1) hattempt s
  have hends {run : RetryRun α ε} (he : b.Ends w attempt k s run) :
      ∀ fuel, k + 1 < fuel → b.retry w attempt fuel t = some run :=
    fun fuel hfuel => retry_eq_some_iff.2 ⟨k, s, hreaches, he, by omega⟩
  by_cases hpause : b.pause? w.jitter k = none
  · exact ⟨_, rfl, rfl, hends (.noPause hy hlast hpause)⟩
  obtain ⟨pause, hpause⟩ := Option.ne_none_iff_exists'.1 hpause
  have hasleep : w.beaten (2 * k + 1) (s + takes) (wake (s + takes) pause) = false :=
    RetryWorld.not_beaten_of_never hnever
  by_cases hnext : b.delay? (k + 1) = none
  · exact ⟨_, rfl, rfl, hends (.noDelay hy hlast hpause hasleep hnext)⟩
  -- All pauses are durations, so it is the next attempt that cannot be counted.
  have hpasses := Passes.intro hy hlast hpause hasleep hnext
  have hspaced : b.Spaced w.jitter (k + 2) := by
    intro j hj
    rcases Nat.lt_or_ge j k with hlt | hge
    · exact hmakes.2 j (Nat.succ_lt_succ hlt)
    · obtain rfl : j = k := by omega
      exact ⟨by rw [hpause]; exact nofun, hnext⟩
  have hlarge : 2 ^ 32 ≤ k + 2 := Nat.not_lt.1 fun hlt => hunmade ⟨hlt, hspaced⟩
  exact ⟨_, rfl, rfl, fun fuel hfuel => retry_eq_some_iff.2
    ⟨k + 1, _, hreaches.snoc hpasses, .uncounted (not_counts_iff.2 hlarge), hfuel⟩⟩

theorem Final.exists_run (hfinal : b.Final attempt last) (hfuel : last < fuel) (t : Nat) :
    ∃ run, b.retry w attempt fuel t = some run ∧
      (run.attempts = last + 1 ↔ b.Makes w.jitter (last + 1)) := by
  by_cases hmakes : b.Makes w.jitter (last + 1)
  · obtain ⟨s, hreaches⟩ := exists_reaches_of_makes hnever hmakes hfinal.before t
    have hcounted := counts_iff.2 hmakes.1
    have hends : ∃ run, b.Ends w attempt last s run ∧ run.attempts = last + 1 := by
      rcases hfinal.ends with ⟨takes, a, hattempt⟩ | ⟨⟨takes, e, hattempt⟩, hlast⟩
      · exact ⟨_, .succeeds (.of_never hnever hcounted hattempt s), rfl⟩
      · exact ⟨_, .exhausts (.of_never hnever hcounted hattempt s) hlast, rfl⟩
    obtain ⟨run, hends, hattempts⟩ := hends
    exact ⟨run, retry_eq_some_iff.2 ⟨last, s, hreaches, hends, by omega⟩,
      iff_of_true hattempts hmakes⟩
  · obtain ⟨k, hk, hbefore, hunmade⟩ := exists_first_unmade hmakes
    obtain ⟨run, -, hattempts, hrun⟩ := exists_run_of_unmade hnever
      (fun j hj => hfinal.before j (by omega)) hbefore hunmade t
    exact ⟨run, hrun fuel (by omega), iff_of_false (by omega) hmakes⟩

/-- Without a bound, a run whose attempts all fail makes as many as can be counted. -/
theorem overflows (hzero : b.maxAttempts = 0) (hfailing : ∀ k, Failing attempt k)
    (hspaced : ∀ n, b.Spaced w.jitter n) (hfuel : 2 ^ 32 ≤ fuel) (t : Nat) :
    ∃ run, b.retry w attempt fuel t = some run ∧ run.result = none ∧ run.attempts + 1 = 2 ^ 32 := by
  obtain ⟨run, hresult, hattempts, hrun⟩ := exists_run_of_unmade (k := 4294967294) hnever
    (fun j _ => ⟨hfailing j, isLast_eq_false_iff.2 (.inl (congrArg UInt32.toNat hzero))⟩)
    ⟨by decide, hspaced _⟩ (fun h => absurd h.1 (by decide)) t
  exact ⟨run, hrun fuel (by omega), hresult, by omega⟩

end Never

/-! ## Main result -/

/-- What an operation comes to that is retried from the time `t` on. -/
structure RetryingSpec (b : ClockBackoff) (w : RetryWorld Float) (attempt : Nat → Attempt α ε)
    (t : Nat) : Prop where
  reports : ∀ fuel run, b.retry w attempt fuel t = some run → Reports b w attempt run
  /-- No attempt after those that are counted is made, so it may be any. -/
  unmade : ∀ fuel run, b.retry w attempt fuel t = some run →
    ∀ attempt' : Nat → Attempt α ε, (∀ k < run.attempts, attempt' k = attempt k) →
      b.retry w attempt' fuel t = some run
  /-- If the token never fires, the first success is the last attempt, unless it is not permitted.
  This is so exactly if all pauses before it are durations and 32 bits are enough to count it. -/
  counted : w.firesAt = none → ∀ n, FirstSuccess attempt n → ∀ fuel, n < fuel →
    ∃ run, b.retry w attempt fuel t = some run ∧
      (run.attempts = b.capped (n + 1) ↔
        b.capped (n + 1) < 2 ^ 32 ∧ b.Spaced w.jitter (b.capped (n + 1)))
  /-- Without a success before, it is the last permitted attempt. -/
  exhausts : w.firesAt = none → 0 < b.maxAttempts.toNat →
    (∀ k < b.maxAttempts.toNat, Failing attempt k) →
    ∀ fuel, b.maxAttempts.toNat ≤ fuel → ∃ run, b.retry w attempt fuel t = some run ∧
      (run.attempts = b.maxAttempts.toNat ↔ b.Spaced w.jitter b.maxAttempts.toNat)
  /-- Without a bound either, attempts are made as long as they can be counted. -/
  overflows : w.firesAt = none → b.maxAttempts = 0 → (∀ k, Failing attempt k) →
    (∀ n, b.Spaced w.jitter n) → ∀ fuel, 2 ^ 32 ≤ fuel →
      ∃ run, b.retry w attempt fuel t = some run ∧ run.result = none ∧ run.attempts + 1 = 2 ^ 32
  /-- All pauses are durations, unless the factor is negative or a delay is beyond all measure. -/
  spaced : b.Steady → Jitters w.jitter → ∀ n, b.Spaced w.jitter n
  negative : ∀ k d, b.delay? k = some d → d.seconds * b.multiplier < 0.0 →
    ∀ n, k + 1 < n → ¬ b.Spaced w.jitter n

theorem retrying_spec (b : ClockBackoff) (w : RetryWorld Float) (attempt : Nat → Attempt α ε)
    (t : Nat) : RetryingSpec b w attempt t where
  reports _ _ := reports_of_retry
  unmade _ _ hrun _ := retry_congr hrun
  counted hnever n hfirst fuel hfuel := by
    obtain ⟨last, hcapped, hle, hfinal⟩ := hfirst.exists_final b
    rw [hcapped]
    exact hfinal.exists_run hnever (hle.trans_lt hfuel) t
  exhausts hnever hpos hfailing fuel hfuel := by
    have hlast : b.maxAttempts.toNat - 1 + 1 = b.maxAttempts.toNat := Nat.sub_add_cancel hpos
    have hlt : b.maxAttempts.toNat - 1 < fuel := by omega
    have hrun := (final_of_failing hpos hfailing).exists_run hnever hlt t
    rw [hlast] at hrun
    obtain ⟨run, hrun, hattempts⟩ := hrun
    exact ⟨run, hrun, hattempts.trans (and_iff_right b.maxAttempts.toNat_lt)⟩
  overflows hnever hzero hfailing hspaced _ hfuel :=
    overflows hnever hzero hfailing hspaced hfuel t
  spaced hb hjitter := hb.spaced hjitter
  negative _ _ hd hneg _ := not_spaced_of_negative hd hneg

/-- An operation that fails so many times before it succeeds, and takes no time. -/
def failingTimes (n : Nat) : Nat → Attempt Nat Unit :=
  fun k => some (0, if k < n then .error () else .ok (k + 1))

/-- Two failures and a success, with the token firing at the time of the third attempt. -/
example : Backoff.standard.retry ⟨some 1500, fun _ => 1.0, fun _ => false⟩ (failingTimes 2) 3 0 =
    some ⟨some (.succeeded 3), 3, 1500⟩ := by decide +kernel

/-- With a negative factor the delay after the first one is negative, and the second attempt, which
would succeed, is not made. -/
theorem unmade_of_negative : FirstSuccess (failingTimes 1) 1 ∧
    { Backoff.standard with multiplier := -1.0 }.capped 2 = 2 ∧
    { Backoff.standard with multiplier := -1.0 }.retry ⟨none, fun _ => 1.0, fun _ => true⟩
      (failingTimes 1) 2 0 = some ⟨none, 1, 500⟩ := by
  refine ⟨⟨fun k hk => ⟨0, (), ?_⟩, 0, 2, rfl⟩, by decide +kernel, by decide +kernel⟩
  rw [failingTimes, if_pos hk]

end Backoff

end ClusterJobs
