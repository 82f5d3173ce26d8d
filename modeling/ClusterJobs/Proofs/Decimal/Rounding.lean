import ClusterJobs.Decimal.Shortest
import ClusterJobs.Proofs.Wire.WholeFloats
import Mathlib.Algebra.Order.Field.Power
import Mathlib.Tactic.FieldSimp
import Mathlib.Tactic.Linarith
import Mathlib.Tactic.Ring

/-!
# Rounding to the nearest float

A mantissa with a round bit and a sticky bit says where a number lies between two whole numbers, and
keeps saying so while its last digits are dropped. So rounding gives the nearest float: a float gets
all numbers that no other float is nearer to, and half-way points go to even mantissas.
-/

namespace ClusterJobs.Decimal

open Float.Model Float.Model.UnpackedFloat

/-! ## The nearest whole number -/

/-- No whole number is nearer to `y`; of two that are as near, this one is even. -/
structure Nearest (n : Nat) (y : Rat) : Prop where
  le : (n : Rat) - 1 / 2 ≤ y
  ge : y ≤ (n : Rat) + 1 / 2
  even : y = (n : Rat) - 1 / 2 ∨ y = (n : Rat) + 1 / 2 → n % 2 = 0

theorem nearest_self (n : Nat) : Nearest n n := by
  refine ⟨by linarith, by linarith, ?_⟩
  rintro (h | h) <;> linarith

theorem Nearest.of_lt {n : Nat} {y : Rat} (h : (n : Rat) - 1 / 2 < y) (h' : y < (n : Rat) + 1 / 2) :
    Nearest n y := by
  refine ⟨h.le, h'.le, ?_⟩
  rintro (heq | heq) <;> linarith

/-- Half-way between two whole numbers. -/
theorem Nearest.of_half {n : Nat} {y : Rat} (h : y = (n : Rat) + 1 / 2) :
    Nearest (n + n % 2) y := by
  have hmod : n % 2 = 0 ∨ n % 2 = 1 := Nat.mod_two_eq_zero_or_one n
  have hcast : ((n % 2 : Nat) : Rat) = 0 ∨ ((n % 2 : Nat) : Rat) = 1 := by
    rcases hmod with hn | hn <;> simp [hn]
  refine ⟨?_, ?_, fun _ => by omega⟩ <;> push_cast <;> rcases hcast with hn | hn <;> linarith

theorem Nearest.le_of_nearest {n k : Nat} {y : Rat} (h : Nearest n y) (h' : Nearest k y) :
    n ≤ k := by
  by_contra hlt
  have hsucc : (k : Rat) + 1 ≤ n := by exact_mod_cast (by omega : k + 1 ≤ n)
  have hle := h.le
  have hge := h'.ge
  have heq : (n : Rat) = (k + 1 : Nat) := by push_cast; linarith
  have hn : n = k + 1 := by exact_mod_cast heq
  have heven := h.even (.inl (by linarith))
  have heven' := h'.even (.inr (by linarith))
  omega

theorem Nearest.unique {n k : Nat} {y : Rat} (h : Nearest n y) (h' : Nearest k y) : n = k :=
  Nat.le_antisymm (h.le_of_nearest h') (h'.le_of_nearest h)

/-! ## Mantissas with two more bits -/

/-- What a round bit and a sticky bit say of the part of a number that a mantissa leaves out. -/
inductive Excess (t : Rat) : Bool → Bool → Prop where
  | zero : t = 0 → Excess t false false
  | less : 0 < t → t < 1 / 2 → Excess t false true
  | half : t = 1 / 2 → Excess t true false
  | more : 1 / 2 < t → t < 1 → Excess t true true

/-- The mantissa is the whole part of `y`, and its bits say what is left. -/
def Locates (em : ExtendedMantissa) (y : Rat) : Prop :=
  Excess (y - em.mantissa) em.roundBit em.stickyBit

section Locates

variable {em : ExtendedMantissa} {t y : Rat} {round sticky : Bool}

theorem Excess.bounds (h : Excess t round sticky) : 0 ≤ t ∧ t < 1 := by
  cases h with
  | zero h => constructor <;> linarith
  | less h h' => constructor <;> linarith
  | half h => constructor <;> linarith
  | more h h' => constructor <;> linarith

theorem Excess.after_even (h : Excess t round sticky) :
    Excess (t / 2) false (round || sticky) := by
  cases h with
  | zero h => exact .zero (by linarith)
  | less h h' => exact .less (by linarith) (by linarith)
  | half h => exact .less (by linarith) (by linarith)
  | more h h' => exact .less (by linarith) (by linarith)

theorem Excess.after_odd (h : Excess t round sticky) :
    Excess ((1 + t) / 2) true (round || sticky) := by
  cases h with
  | zero h => exact .half (by linarith)
  | less h h' => exact .more (by linarith) (by linarith)
  | half h => exact .more (by linarith) (by linarith)
  | more h h' => exact .more (by linarith) (by linarith)

theorem locates_exact (m : Nat) : Locates (.ofMantissaAndAccuracy m .exact) m :=
  .zero (sub_self (m : Rat))

/-- The last digit of the mantissa becomes the round bit. -/
theorem Locates.shiftRightOne (h : Locates em y) : Locates em.shiftRightOne (y / 2) := by
  have hsplit : (em.mantissa : Rat) = 2 * (em.mantissa / 2 : Nat) + (em.mantissa % 2 : Nat) := by
    exact_mod_cast (Nat.div_add_mod em.mantissa 2).symm
  unfold Locates ExtendedMantissa.shiftRightOne
  dsimp only
  rcases Nat.mod_two_eq_zero_or_one em.mantissa with hmod | hmod
  · have ht : y / 2 - (em.mantissa / 2 : Nat) = (y - em.mantissa) / 2 := by
      rw [hsplit, hmod]
      push_cast
      ring
    rw [ht, hmod]
    exact Excess.after_even h
  · have ht : y / 2 - (em.mantissa / 2 : Nat) = (1 + (y - em.mantissa)) / 2 := by
      rw [hsplit, hmod]
      push_cast
      ring
    rw [ht, hmod]
    exact Excess.after_odd h

theorem Locates.shiftRight (h : Locates em y) (n : Nat) : Locates (em >>> n) (y / 2 ^ n) := by
  induction n with
  | zero =>
    rw [pow_zero, div_one]
    exact h
  | succ n ih =>
    rw [pow_succ, ← div_div]
    exact ih.shiftRightOne

/-- Rounding by the two bits gives the nearest whole number. -/
theorem Locates.nearest (h : Locates em y) : Nearest em.roundedMantissa y := by
  obtain ⟨m, round, sticky⟩ := em
  unfold Locates at h
  dsimp only at h
  cases h with
  | zero h =>
    obtain rfl : y = m := by linarith
    exact nearest_self m
  | less h h' =>
    change Nearest m y
    exact .of_lt (by linarith) (by linarith)
  | half h => exact .of_half (by linarith)
  | more h h' =>
    change Nearest (m + 1) y
    refine .of_lt ?_ ?_ <;> push_cast <;> linarith

end Locates

/-! ## The unit of the last digit -/

section Scaled

variable {x : Rat} {e f : Int}

theorem two_zpow_pos (e : Int) : (0 : Rat) < 2 ^ e :=
  zpow_pos (by norm_num) e

theorem ten_zpow_pos (e : Int) : (0 : Rat) < 10 ^ e :=
  zpow_pos (by norm_num) e

theorem two_zpow_lt_iff : (2 : Rat) ^ e < 2 ^ f ↔ e < f :=
  zpow_lt_zpow_iff_right₀ (by norm_num)

theorem two_zpow_le_iff : (2 : Rat) ^ e ≤ 2 ^ f ↔ e ≤ f :=
  zpow_le_zpow_iff_right₀ (by norm_num)

theorem two_zpow_add (e : Int) (k : Nat) : (2 : Rat) ^ (e + k) = 2 ^ k * 2 ^ e := by
  rw [zpow_add₀ (by norm_num), zpow_natCast, mul_comm]

/-- A number is rounded to multiples of `2 ^ e`: it has 53 digits before that place, or fewer if no
place is less. -/
structure Scaled (x : Rat) (e : Int) : Prop where
  least : -1074 ≤ e
  lt : x < 2 ^ (e + 53)
  full : e = -1074 ∨ 2 ^ (e + 52) ≤ x

theorem Scaled.le_of_scaled (h : Scaled x e) (h' : Scaled x f) : e ≤ f := by
  rcases h.full with rfl | hfull
  · exact h'.least
  · have hlt := two_zpow_lt_iff.1 (hfull.trans_lt h'.lt)
    omega

theorem Scaled.unique (h : Scaled x e) (h' : Scaled x f) : e = f :=
  Int.le_antisymm (h.le_of_scaled h') (h'.le_of_scaled h)

/-- `x` is rounded to `m * 2 ^ q`. If that takes one digit more the last one is dropped. -/
inductive RoundsTo (x : Rat) : Nat → Int → Prop where
  | kept {m : Nat} {q : Int} : Scaled x q → Nearest m (x / 2 ^ q) → m < 2 ^ 53 → RoundsTo x m q
  | carried {q : Int} : Scaled x q → Nearest (2 ^ 53) (x / 2 ^ q) → RoundsTo x (2 ^ 52) (q + 1)

end Scaled

/-! ## Rounding -/

section Rounding

variable {x : Rat} {m n : Nat} {e q : Int} {a : Accuracy} {s : Sign}

theorem mantissa_ofMantissaAndAccuracy (m : Nat) (a : Accuracy) :
    (ExtendedMantissa.ofMantissaAndAccuracy m a).mantissa = m := by
  rcases a with _ | (_ | _ | _) <;> rfl

/-- The digits of a mantissa go as far as those of the number that it stands for. -/
theorem Locates.between (h : Locates (.ofMantissaAndAccuracy m a) (x / 2 ^ e)) :
    (m : Rat) * 2 ^ e ≤ x ∧ x < (m + 1 : Nat) * 2 ^ e := by
  obtain ⟨hlow, hhigh⟩ := Excess.bounds h
  rw [mantissa_ofMantissaAndAccuracy] at hlow hhigh
  have hx : x = x / 2 ^ e * 2 ^ e := (div_mul_cancel₀ _ (two_zpow_pos e).ne').symm
  constructor
  · rw [hx]
    exact mul_le_mul_of_nonneg_right (by linarith) (two_zpow_pos e).le
  · rw [hx]
    exact mul_lt_mul_of_pos_right (by push_cast; linarith) (two_zpow_pos e)

theorem scaled_of_locates (h : Locates (.ofMantissaAndAccuracy m a) (x / 2 ^ e))
    (hfull : 2 ^ 52 ≤ m ∨ e ≤ -1074) :
    Scaled x (shiftToTargetExponent .binary64 m e a).2 := by
  obtain ⟨hlow, hhigh⟩ := h.between
  rw [exponent_shiftToTargetExponent]
  have hdigits : 2 ^ 52 ≤ m → 52 ≤ m.log2 := fun hm =>
    (Nat.le_log2 (by omega)).2 hm
  refine ⟨by omega, ?_, ?_⟩
  · calc x < (m + 1 : Nat) * 2 ^ e := hhigh
      _ ≤ (2 ^ (m.log2 + 1) : Nat) * 2 ^ e := by
          gcongr
          exact Nat.lt_log2_self
      _ = 2 ^ ((m.log2 + 1 : Nat) + e) := by
          rw [zpow_add₀ (by norm_num), zpow_natCast]
          push_cast
          rfl
      _ ≤ _ := two_zpow_le_iff.2 (by omega)
  · rcases Nat.eq_zero_or_pos m with rfl | hpos
    · left
      simp only [Nat.log2_zero]
      omega
    · rcases Int.lt_or_le (m.log2 + 1 + e - 53) (-1074) with hsmall | hlarge
      · left
        omega
      · right
        calc (2 : Rat) ^ (_ + 52) ≤ 2 ^ ((m.log2 : Int) + e) := two_zpow_le_iff.2 (by omega)
          _ = (2 ^ m.log2 : Nat) * 2 ^ e := by
              rw [zpow_add₀ (by norm_num), zpow_natCast]
              push_cast
              rfl
          _ ≤ m * 2 ^ e := by
              gcongr
              exact Nat.log2_self_le hpos.ne'
          _ ≤ x := hlow

theorem nearest_of_locates (h : Locates (.ofMantissaAndAccuracy m a) (x / 2 ^ e)) :
    Nearest (shiftToTargetExponent .binary64 m e a).1.roundedMantissa
      (x / 2 ^ (shiftToTargetExponent .binary64 m e a).2) := by
  have hunits (k : Nat) : x / 2 ^ (e + k) = x / 2 ^ e / 2 ^ k := by
    rw [two_zpow_add, mul_comm, div_div]
  have hnear := (h.shiftRight
    (Format.binary64.targetExponent (totalExponent m e) - e).toNat).nearest
  rw [← hunits] at hnear
  exact hnear

theorem shiftToTargetExponent_of_lt (hm : m < 2 ^ 53) (he : -1074 ≤ e) :
    shiftToTargetExponent .binary64 m e .exact = (⟨m, false, false⟩, e) := by
  have hlog : m.log2 < 53 := log2_lt_of_lt (by omega) hm
  have hzero : (Format.binary64.targetExponent (totalExponent m e) - e).toNat = 0 := by
    rw [targetExponent_binary64, totalExponent]
    omega
  rw [shiftToTargetExponent, shiftToExponent, hzero]
  exact Prod.ext rfl (Int.add_zero e)

theorem shiftToTargetExponent_carried (he : -1074 ≤ e) :
    shiftToTargetExponent .binary64 (2 ^ 53) e .exact = (⟨2 ^ 52, false, false⟩, e + 1) := by
  have hone : (Format.binary64.targetExponent (totalExponent (2 ^ 53) e) - e).toNat = 1 := by
    rw [targetExponent_binary64, totalExponent, Nat.log2_two_pow]
    omega
  rw [shiftToTargetExponent, shiftToExponent, hone]
  rfl

/-- Rounding with an accuracy finds what a number is rounded to. -/
theorem roundWithAccuracy_eq (h : Locates (.ofMantissaAndAccuracy m a) (x / 2 ^ e))
    (hfull : 2 ^ 52 ≤ m ∨ e ≤ -1074) (hx : RoundsTo x n q) (hn : 0 < n) :
    roundWithAccuracy .binary64 s m e a = .finite s n q hn := by
  have hscaled := scaled_of_locates h hfull
  have hnearest := nearest_of_locates h
  unfold roundWithAccuracy
  generalize shiftToTargetExponent .binary64 m e a = first at hscaled hnearest
  obtain ⟨em, f⟩ := first
  dsimp only at hscaled hnearest ⊢
  cases hx with
  | kept hq hnear hlt =>
    obtain rfl := hscaled.unique hq
    rw [hnearest.unique hnear, shiftToTargetExponent_of_lt hlt hscaled.least, dif_neg hn.ne']
  | carried hq hnear =>
    obtain rfl := hscaled.unique hq
    rw [hnearest.unique hnear, shiftToTargetExponent_carried hscaled.least, dif_neg hn.ne']

end Rounding

/-! ## What a float is nearest to -/

section Within

variable {x : Rat} {m : Nat} {q : Int}

/-- The mantissa and the exponent of a float that is not zero. -/
structure Canonical (m : Nat) (q : Int) : Prop where
  pos : 0 < m
  lt : m < 2 ^ 53
  least : -1074 ≤ q
  most : q ≤ 971
  full : 2 ^ 52 ≤ m ∨ q = -1074

/-- How far below a float the half-way point to the next one is, in quarters of the unit: floats are
denser below a power of two. -/
def lowerGap (m : Nat) (q : Int) : Nat :=
  if m = 2 ^ 52 ∧ -1074 < q then 1 else 2

/-- No float is nearer to `x` than `m * 2 ^ q`; the ends belong to even mantissas. -/
structure Within (m : Nat) (q : Int) (x : Rat) : Prop where
  low : (m : Rat) - lowerGap m q / 4 ≤ x / 2 ^ q
  high : x / 2 ^ q ≤ m + 1 / 2
  inner : m % 2 ≠ 0 → (m : Rat) - lowerGap m q / 4 < x / 2 ^ q ∧ x / 2 ^ q < m + 1 / 2

theorem Scaled.of_bounds {y : Rat} (hq : -1074 ≤ q) (hy : y < 2 ^ 53)
    (hfull : q = -1074 ∨ 2 ^ 52 ≤ y) : Scaled (y * 2 ^ q) q := by
  refine ⟨hq, ?_, hfull.imp_right fun h => ?_⟩
  · exact (mul_lt_mul_of_pos_right hy (two_zpow_pos q)).trans_eq (two_zpow_add q 53).symm
  · exact (two_zpow_add q 52).trans_le (mul_le_mul_of_nonneg_right h (two_zpow_pos q).le)

/-- Below a power of two the unit is half as large, and rounding up carries. -/
theorem RoundsTo.of_below_power {y : Rat} (hq : -1074 < q) (hlow : 2 ^ 52 - 1 / 4 ≤ y)
    (hlt : y < 2 ^ 52) : RoundsTo (y * 2 ^ q) (2 ^ 52) q := by
  have hhalf : y * 2 ^ q = 2 * y * 2 ^ (q - 1) := by
    rw [zpow_sub₀ (by norm_num)]
    ring
  have hscaled : Scaled (2 * y * 2 ^ (q - 1)) (q - 1) :=
    .of_bounds (by omega) (by linarith) (.inr (by linarith))
  have hnear : Nearest (2 ^ 53) (2 * y * 2 ^ (q - 1) / 2 ^ (q - 1)) := by
    rw [mul_div_cancel_right₀ _ (two_zpow_pos _).ne']
    exact ⟨by push_cast; linarith, by push_cast; linarith, fun _ => rfl⟩
  have hcarried := RoundsTo.carried hscaled hnear
  rwa [Int.sub_add_cancel, ← hhalf] at hcarried

/-- Elsewhere it is half a unit away at most. -/
theorem RoundsTo.of_half_unit {y : Rat} (hc : Canonical m q) (hlow : (m : Rat) - 1 / 2 ≤ y)
    (hhigh : y ≤ m + 1 / 2) (hinner : m % 2 ≠ 0 → (m : Rat) - 1 / 2 < y ∧ y < m + 1 / 2)
    (hpower : m = 2 ^ 52 ∧ -1074 < q → (m : Rat) ≤ y) : RoundsTo (y * 2 ^ q) m q := by
  have hm : (m : Rat) + 1 ≤ 2 ^ 53 := by exact_mod_cast hc.lt
  have hfull : q = -1074 ∨ (2 : Rat) ^ 52 ≤ y := by
    by_contra! hsmall
    obtain ⟨hq, hlt⟩ := hsmall
    have hle := hc.least
    rcases Nat.eq_or_lt_of_le (hc.full.resolve_right hq) with heq | hgt
    · have hpow := hpower ⟨heq.symm, by omega⟩
      rw [← heq] at hpow
      push_cast at hpow
      linarith
    · have hsucc : (2 : Rat) ^ 52 + 1 ≤ m := by exact_mod_cast hgt
      linarith
  refine .kept (.of_bounds hc.least (by linarith) hfull) ?_ hc.lt
  rw [mul_div_cancel_right₀ _ (two_zpow_pos q).ne']
  refine ⟨hlow, hhigh, fun hends => ?_⟩
  by_contra hodd
  rcases hends with heq | heq
  · linarith [(hinner hodd).1]
  · linarith [(hinner hodd).2]

/-- What is nearest to a float is rounded to it. -/
theorem RoundsTo.of_within (hc : Canonical m q) (h : Within m q x) : RoundsTo x m q := by
  obtain ⟨hlow, hhigh, hinner⟩ := h
  obtain ⟨y, rfl⟩ : ∃ y, x = y * 2 ^ q := ⟨x / 2 ^ q, (div_mul_cancel₀ _ (two_zpow_pos q).ne').symm⟩
  rw [mul_div_cancel_right₀ _ (two_zpow_pos q).ne'] at hlow hhigh hinner
  by_cases hpower : m = 2 ^ 52 ∧ -1074 < q
  · rw [lowerGap, if_pos hpower] at hlow
    obtain ⟨rfl, hq⟩ := hpower
    push_cast at hlow
    rcases lt_or_ge y (2 ^ 52) with hlt | hge
    · exact .of_below_power hq hlow hlt
    · have hge : ((2 ^ 52 : Nat) : Rat) ≤ y := by exact_mod_cast hge
      exact .of_half_unit hc (by linarith) hhigh (fun hodd => absurd rfl hodd) fun _ => hge
  · rw [lowerGap, if_neg hpower] at hlow hinner
    have hgap : (m : Rat) - (2 : Nat) / 4 = m - 1 / 2 := by norm_num
    rw [hgap] at hlow hinner
    exact .of_half_unit hc hlow hhigh hinner fun h => absurd h hpower

theorem within_self (m : Nat) (q : Int) : Within m q (m * 2 ^ q) := by
  have hgap : 0 < (lowerGap m q : Rat) := by
    unfold lowerGap
    split <;> norm_num
  have hy : (m : Rat) * 2 ^ q / 2 ^ q = m := mul_div_cancel_right₀ _ (two_zpow_pos q).ne'
  refine ⟨?_, ?_, fun _ => ⟨?_, ?_⟩⟩ <;> rw [hy] <;> linarith

end Within

end ClusterJobs.Decimal
