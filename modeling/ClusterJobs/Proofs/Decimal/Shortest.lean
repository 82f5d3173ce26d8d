import ClusterJobs.Proofs.Decimal.Rounding

/-!
# The shortest decimal is near enough

The search for a decimal ends on a grid that has a point in the interval of the float, since the grid
of seventeen digits always has one. So the decimal is nearer to the float than to any other.
-/

namespace ClusterJobs.Decimal

/-! ## Fractions -/

namespace Ratio

variable {r : Ratio}

/-- The number that a fraction is. -/
def value (r : Ratio) : Rat :=
  (r.num : Rat) / r.den

theorem den_scaled_pos (n : Nat) (q : Int) : 0 < (scaled n q).den := by
  cases q with
  | ofNat k => exact Nat.one_pos
  | negSucc k => exact Nat.two_pow_pos (k + 1)

theorem value_scaled (n : Nat) (q : Int) : (scaled n q).value = n * 2 ^ q := by
  cases q with
  | ofNat k =>
    rw [scaled, value, Int.ofNat_eq_natCast, zpow_natCast, Nat.pow_eq]
    push_cast
    rw [div_one]
  | negSucc k =>
    rw [scaled, value, zpow_negSucc, Nat.pow_eq, div_eq_mul_inv]
    push_cast
    rfl

/-- Both sides of a comparison are multiplied by the same positive number. -/
theorem scaledPair_eq (hr : 0 < r.den) (n : Nat) (k : Int) : ∃ c : Rat, 0 < c ∧
    ((r.scaledPair n k).1 : Rat) = n * 10 ^ k * c ∧ ((r.scaledPair n k).2 : Rat) = r.value * c := by
  have hden : (0 : Rat) < r.den := by exact_mod_cast hr
  cases k with
  | ofNat k =>
    refine ⟨r.den, hden, ?_, (div_mul_cancel₀ _ hden.ne').symm⟩
    simp only [scaledPair, Nat.pow_eq, Int.ofNat_eq_natCast, zpow_natCast]
    push_cast
    rfl
  | negSucc k =>
    refine ⟨r.den * 10 ^ (k + 1), by positivity, ?_, ?_⟩
    · simp only [scaledPair, zpow_negSucc]
      push_cast
      field_simp
    · simp only [scaledPair, value, Nat.pow_eq]
      push_cast
      field_simp

theorem scaledPair_le_iff (hr : 0 < r.den) (n : Nat) (k : Int) :
    (r.scaledPair n k).1 ≤ (r.scaledPair n k).2 ↔ n * 10 ^ k ≤ r.value := by
  obtain ⟨c, hc, hleft, hright⟩ := scaledPair_eq hr n k
  rw [← Nat.cast_le (α := Rat), hleft, hright, mul_le_mul_iff_left₀ hc]

theorem le_scaledPair_iff (hr : 0 < r.den) (n : Nat) (k : Int) :
    (r.scaledPair n k).2 ≤ (r.scaledPair n k).1 ↔ r.value ≤ n * 10 ^ k := by
  obtain ⟨c, hc, hleft, hright⟩ := scaledPair_eq hr n k
  rw [← Nat.cast_le (α := Rat), hleft, hright, mul_le_mul_iff_left₀ hc]

theorem div_le_cast_div (a : Nat) {b : Nat} (hb : 0 < b) :
    ((a / b : Nat) : Rat) ≤ (a : Rat) / b ∧ (a : Rat) / b < (a / b : Nat) + 1 := by
  have hb' : (0 : Rat) < b := by exact_mod_cast hb
  rw [le_div_iff₀ hb', div_lt_iff₀ hb']
  constructor
  · exact_mod_cast Nat.div_mul_le_self a b
  · exact_mod_cast (Nat.div_lt_iff_lt_mul hb).1 (Nat.lt_succ_self (a / b))

theorem cast_shifted (r : Ratio) (k : Nat) :
    ((r.num * Nat.pow 10 k : Nat) : Rat) / r.den = r.value * 10 ^ k := by
  rw [value, Nat.pow_eq, div_mul_eq_mul_div]
  push_cast
  rfl

/-- The last point of a grid that is not above the fraction. -/
theorem steps_bounds (hr : 0 < r.den) (k : Int) :
    r.steps k * 10 ^ k ≤ r.value ∧ r.value < (r.steps k + 1) * 10 ^ k := by
  rw [← le_div_iff₀ (ten_zpow_pos k), ← div_lt_iff₀ (ten_zpow_pos k)]
  cases k with
  | ofNat k =>
    have h := div_le_cast_div r.num (Nat.mul_pos hr (Nat.pow_pos (n := k) (by decide : 0 < 10)))
    have hvalue : r.value / 10 ^ (Int.ofNat k) = (r.num : Rat) / (r.den * Nat.pow 10 k : Nat) := by
      rw [value, div_div, Int.ofNat_eq_natCast, zpow_natCast, Nat.pow_eq]
      push_cast
      rfl
    rwa [hvalue]
  | negSucc k =>
    have h := div_le_cast_div (r.num * Nat.pow 10 (k + 1)) hr
    rwa [cast_shifted, ← div_inv_eq_mul, ← zpow_negSucc] at h

/-- A whole number has as many digits as it takes. -/
theorem ten_pow_le_of_length {n : Nat} (hn : 0 < n) :
    10 ^ ((Nat.toDigits 10 n).length - 1) ≤ n := by
  rcases Nat.eq_zero_or_pos ((Nat.toDigits 10 n).length - 1) with hzero | hpos
  · rw [hzero]
    exact hn
  · have hlength : 0 < (Nat.toDigits 10 n).length := Nat.length_toDigits_pos
    by_contra! hlt
    have hle := (Nat.length_toDigits_le_iff (by decide) hpos).2 hlt
    omega

/-- Shifted by enough digits, a fraction has as many digits as its whole part. -/
theorem ten_zpow_length_le (hr : 0 < r.den) (shift : Nat) (hlarge : 1 ≤ r.value * 10 ^ shift) :
    (10 : Rat) ^ (((Nat.toDigits 10 (r.num * Nat.pow 10 shift / r.den)).length : Int) -
      (shift + 1 : Nat)) ≤ r.value := by
  obtain ⟨hle, hlt⟩ := div_le_cast_div (r.num * Nat.pow 10 shift) hr
  rw [cast_shifted] at hle hlt
  have hpos : 0 < r.num * Nat.pow 10 shift / r.den := by
    have h : (0 : Rat) < (r.num * Nat.pow 10 shift / r.den : Nat) := by linarith
    exact_mod_cast h
  have hlength := Nat.length_toDigits_pos (b := 10) (n := r.num * Nat.pow 10 shift / r.den)
  have hdigits := ten_pow_le_of_length hpos
  generalize r.num * Nat.pow 10 shift / r.den = n at hle hlength hdigits
  have hexponent : ((Nat.toDigits 10 n).length : Int) - (shift + 1 : Nat) =
      ((Nat.toDigits 10 n).length - 1 : Nat) - (shift : Nat) := by omega
  rw [hexponent, zpow_sub₀ (by norm_num), zpow_natCast, zpow_natCast, div_le_iff₀ (by positivity)]
  calc (10 : Rat) ^ ((Nat.toDigits 10 n).length - 1) ≤ n := by exact_mod_cast hdigits
    _ ≤ r.value * 10 ^ shift := hle

/-- The leading digit of a fraction is no further left than the exponent says. -/
theorem ten_zpow_leadingExponent_le (hr : 0 < r.den) (hlarge : 1 ≤ r.value * 10 ^ 330) :
    (10 : Rat) ^ r.leadingExponent ≤ r.value := by
  unfold leadingExponent
  -- Its name keeps the power of ten from being computed.
  generalize hshift : 330 = shift at hlarge ⊢
  have hlast : (331 : Int) = (shift + 1 : Nat) := by
    rw [← hshift]
    rfl
  rw [hlast]
  exact ten_zpow_length_le hr shift hlarge

end Ratio

/-! ## The interval of a float -/

section Within

variable {m : Nat} {q : Int} {x : Rat}

theorem lowerGap_le (m : Nat) (q : Int) : lowerGap m q ≤ 2 := by
  unfold lowerGap
  split <;> decide

/-- What is that near to a float is not zero. -/
theorem Within.pos (hc : Canonical m q) (h : Within m q x) : 0 < x := by
  have hm : (1 : Rat) ≤ m := by exact_mod_cast hc.pos
  have hgap : (lowerGap m q : Rat) ≤ 2 := by exact_mod_cast lowerGap_le m q
  have hunits : 0 < x / 2 ^ q := by linarith [h.low]
  rw [← div_mul_cancel₀ x (two_zpow_pos q).ne']
  exact mul_pos hunits (two_zpow_pos q)

/-- A number that is less than a float by at most its part of `2 ^ 54` is nearest to it. -/
theorem Within.of_close (hc : Canonical m q) (hle : x ≤ m * 2 ^ q)
    (hclose : m * 2 ^ q - x < m * 2 ^ q / 2 ^ 54) : Within m q x := by
  obtain ⟨y, rfl⟩ : ∃ y, x = y * 2 ^ q := ⟨x / 2 ^ q, (div_mul_cancel₀ _ (two_zpow_pos q).ne').symm⟩
  have hunit := two_zpow_pos q
  have hhigh : y ≤ m := le_of_mul_le_mul_right hle hunit
  have hnear : (m : Rat) - y < m / 2 ^ 54 := by
    rw [← sub_mul, mul_div_right_comm] at hclose
    exact lt_of_mul_lt_mul_right hclose hunit.le
  have hgap : (m : Rat) / 2 ^ 54 ≤ lowerGap m q / 4 := by
    have hm : (m : Rat) ≤ 2 ^ 53 := by exact_mod_cast hc.lt.le
    unfold lowerGap
    split
    · next hpower =>
      rw [hpower.1]
      norm_num
    · push_cast
      linarith
  refine ⟨?_, ?_, fun _ => ⟨?_, ?_⟩⟩ <;> rw [mul_div_cancel_right₀ _ hunit.ne'] <;> linarith

end Within

/-! ## The search -/

namespace Interval

section OfBinary

variable {m n : Nat} {q k : Int}

theorem value_ofBinary (m : Nat) (q : Int) : (ofBinary m q).value.value = m * 2 ^ q := by
  change (Ratio.scaled (4 * m) (q - 2)).value = _
  rw [Ratio.value_scaled, zpow_sub₀ (by norm_num)]
  push_cast
  ring

/-- The test is whether the point of the grid is nearest to the float. -/
theorem holds_iff (hm : 0 < m) :
    (ofBinary m q).holds n k = true ↔ Within m q (n * 10 ^ k) := by
  have hunit := two_zpow_pos q
  have hgap := lowerGap_le m q
  have hlow : (Ratio.scaled (4 * m - lowerGap m q) (q - 2)).value =
      ((m : Rat) - lowerGap m q / 4) * 2 ^ q := by
    rw [Ratio.value_scaled, zpow_sub₀ (by norm_num), Nat.cast_sub (by omega)]
    push_cast
    ring
  have hhigh : (Ratio.scaled (4 * m + 2) (q - 2)).value = ((m : Rat) + 1 / 2) * 2 ^ q := by
    rw [Ratio.value_scaled, zpow_sub₀ (by norm_num)]
    push_cast
    ring
  have hends : ofBinary m q = ⟨.scaled (4 * m - lowerGap m q) (q - 2), .scaled (4 * m) (q - 2),
      .scaled (4 * m + 2) (q - 2), m % 2 == 0⟩ := by
    simp [ofBinary, lowerGap]
  have hpos (a : Nat) := Ratio.den_scaled_pos a (q - 2)
  rw [hends]
  unfold holds
  dsimp only
  by_cases heven : m % 2 = 0
  · simp only [heven, beq_self_eq_true, if_true, Bool.and_eq_true, decide_eq_true_eq,
      Ratio.le_scaledPair_iff (hpos _), Ratio.scaledPair_le_iff (hpos _), hlow, hhigh,
      ← le_div_iff₀ hunit, ← div_le_iff₀ hunit]
    exact ⟨fun h => ⟨h.1, h.2, fun hodd => absurd heven hodd⟩, fun h => ⟨h.low, h.high⟩⟩
  · simp only [beq_iff_eq, heven, if_false, Bool.and_eq_true, decide_eq_true_eq, ← not_le,
      Ratio.le_scaledPair_iff (hpos _), Ratio.scaledPair_le_iff (hpos _), hlow, hhigh,
      ← le_div_iff₀ hunit, ← div_le_iff₀ hunit]
    simp only [not_le]
    exact ⟨fun h => ⟨h.1.le, h.2.le, fun _ => h⟩, fun h => h.inner heven⟩

end OfBinary

variable {i : Interval} {k lead : Int} {n : Nat}

/-- The chosen point of a grid is in the interval. -/
theorem holds_of_onGrid? (h : i.onGrid? k = some n) : i.holds n k = true := by
  unfold onGrid? at h
  dsimp only at h
  split at h
  · next hbelow _ =>
    cases h
    exact ((Bool.and_eq_true _ _).mp hbelow).2
  · next habove =>
    cases h
    exact habove
  · cases h
  · next hbelow habove =>
    have hbelow := ((Bool.and_eq_true _ _).mp hbelow).2
    split at h
    · cases h
      exact hbelow
    · split at h
      · cases h
        exact habove
      · split at h
        · cases h
          exact hbelow
        · cases h
          exact habove

theorem onGrid?_ne_none (hne : i.value.steps k ≠ 0) (h : i.holds (i.value.steps k) k = true) :
    i.onGrid? k ≠ none := by
  have hbelow : (i.value.steps k != 0 && i.holds (i.value.steps k) k) = true := by
    rw [h, Bool.and_true]
    exact bne_iff_ne.2 hne
  unfold onGrid?
  dsimp only
  rw [hbelow]
  intro hnone
  split at hnone
  · cases hnone
  · next h' _ => cases h'
  · next h' _ => cases h'
  · split at hnone
    · cases hnone
    · split at hnone
      · cases hnone
      · split at hnone <;> cases hnone

/-- If the last grid has a point in the interval, the search finds one. -/
theorem holds_search (hlast : i.onGrid? (lead - 17) ≠ none) (count fuel : Nat) (hcount : count ≤ 17)
    (hfuel : 17 < count + fuel) :
    i.holds (i.search lead count fuel).digits (i.search lead count fuel).exponent = true := by
  induction fuel generalizing count with
  | zero => omega
  | succ fuel ih =>
    unfold search
    dsimp only
    cases hgrid : i.onGrid? (lead - count) with
    | some n => exact holds_of_onGrid? hgrid
    | none =>
      have hne : count ≠ 17 := by
        rintro rfl
        exact hlast hgrid
      exact ih (count + 1) (by omega) (by omega)

end Interval

/-! ## The shortest decimal -/

section Shortest

variable {m : Nat} {q : Int}

theorem Canonical.one_le_value (hc : Canonical m q) : (1 : Rat) ≤ m * 2 ^ q * 10 ^ 330 := by
  have hm : (1 : Rat) ≤ m := by exact_mod_cast hc.pos
  have hpower (n : Nat) : (2 : Rat) ^ (36 * n : Int) ≤ 10 ^ (11 * n) := by
    rw [zpow_mul, zpow_natCast, pow_mul]
    exact pow_le_pow_left₀ (by norm_num) (by norm_num) n
  calc (1 : Rat) ≤ 2 ^ (-1074 : Int) * 2 ^ (36 * (30 : Nat) : Int) := by
        rw [← zpow_add₀ (by norm_num)]
        exact one_le_zpow₀ (by norm_num) (by norm_num)
    _ ≤ 2 ^ (-1074 : Int) * 10 ^ 330 := mul_le_mul_of_nonneg_left (hpower 30) (two_zpow_pos _).le
    _ ≤ 2 ^ q * 10 ^ 330 := by
        gcongr
        · norm_num
        · exact hc.least
    _ ≤ m * 2 ^ q * 10 ^ 330 := by
        gcongr
        exact le_mul_of_one_le_left (two_zpow_pos q).le hm

/-- Seventeen digits are enough. -/
theorem onGrid?_seventeen (hc : Canonical m q) :
    (Interval.ofBinary m q).onGrid?
      ((Interval.ofBinary m q).value.leadingExponent - 17) ≠ none := by
  have hden : 0 < (Interval.ofBinary m q).value.den := Ratio.den_scaled_pos _ _
  have hvalue := Interval.value_ofBinary m q
  have hlead := Ratio.ten_zpow_leadingExponent_le hden (by
    rw [hvalue]
    exact hc.one_le_value)
  generalize hk : (Interval.ofBinary m q).value.leadingExponent - 17 = k
  obtain ⟨hle, hlt⟩ := Ratio.steps_bounds hden k
  rw [hvalue] at hlead hle hlt
  have hten : (10 : Rat) ^ k * 10 ^ 17 ≤ m * 2 ^ q := by
    rw [← zpow_natCast, ← zpow_add₀ (by norm_num), ← hk]
    exact (congrArg _ (by omega)).le.trans hlead
  have hstep := ten_zpow_pos k
  have hwithin := Within.of_close hc hle (by
    rw [lt_div_iff₀ (by norm_num)]
    nlinarith)
  refine Interval.onGrid?_ne_none ?_ ((Interval.holds_iff hc.pos).2 hwithin)
  intro hzero
  have hpos := hwithin.pos hc
  rw [hzero] at hpos
  simp at hpos

/-- The number that a decimal is. -/
def Digits.value (d : Digits) : Rat :=
  d.digits * 10 ^ d.exponent

theorem Digits.value_stripZeros (fuel : Nat) (d : Digits) : (d.stripZeros fuel).value = d.value := by
  induction fuel generalizing d with
  | zero => rfl
  | succ fuel ih =>
    unfold stripZeros
    split
    · next h =>
      have hmod : d.digits % 10 = 0 := beq_iff_eq.1 ((Bool.and_eq_true _ _).mp h).2
      have hdigits : (d.digits : Rat) = (d.digits / 10 : Nat) * 10 := by
        exact_mod_cast (Nat.div_mul_cancel (Nat.dvd_of_mod_eq_zero hmod)).symm
      rw [ih, value, value, hdigits, zpow_add_one₀ (by norm_num)]
      ring
    · rfl

/-- The shortest decimal of a float is nearer to it than to any other. -/
theorem within_shortest (hc : Canonical m q) : Within m q (shortest m q).value := by
  unfold shortest
  rw [if_neg (by simpa using hc.pos.ne')]
  dsimp only
  rw [Digits.value_stripZeros]
  exact (Interval.holds_iff hc.pos).1
    (Interval.holds_search (onGrid?_seventeen hc) 0 18 (by decide) (by decide))

end Shortest

end ClusterJobs.Decimal
