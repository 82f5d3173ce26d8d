import ClusterJobs.Decimal.Reading
import ClusterJobs.Proofs.Decimal.Parts
import Mathlib.Algebra.Order.Field.Basic

/-!
# Arithmetic on floats

Products, quotients and decimals are rounded once: where the exact result is nearest to a float, that
float is the result. So a decimal that is nearer to a float than to any other is read as that float.
-/

namespace ClusterJobs.Decimal

open Float.Model Float.Model.UnpackedFloat

/-! ## Arithmetic -/

section Arithmetic

variable {x y : Float} {m n k : Nat} {q r t : Int}

/-- A mantissa stands for its number exactly. -/
theorem roundWithAccuracy_exact (hfull : 2 ^ 52 ≤ m ∨ q ≤ -1074)
    (hround : RoundsTo (m * 2 ^ q) k t) (hk : 0 < k) (s : Sign) :
    roundWithAccuracy .binary64 s m q .exact = .finite s k t hk := by
  refine roundWithAccuracy_eq ?_ hfull hround hk
  rw [mul_div_cancel_right₀ _ (two_zpow_pos q).ne']
  exact locates_exact m

theorem mul_finite {hm : 0 < m} {hn : 0 < n} (hfull : 2 ^ 52 ≤ m * n ∨ q + r ≤ -1074)
    (hround : RoundsTo (m * 2 ^ q * (n * 2 ^ r)) k t) (hk : 0 < k) :
    UnpackedFloat.mul .binary64 (.finite .positive m q hm) (.finite .positive n r hn) =
      .finite .positive k t hk := by
  have hproduct : (m : Rat) * 2 ^ q * (n * 2 ^ r) = (m * n : Nat) * 2 ^ (q + r) := by
    rw [zpow_add₀ (by norm_num)]
    push_cast
    ring
  rw [hproduct] at hround
  exact roundWithAccuracy_exact hfull hround hk .positive

/-- A product is rounded once. -/
theorem Parts.mul (hx : Parts x .positive m q) (hy : Parts y .positive n r)
    (hfull : 2 ^ 52 ≤ m * n ∨ q + r ≤ -1074) (hround : RoundsTo (m * 2 ^ q * (n * 2 ^ r)) k t)
    (hc : Canonical k t) : Parts (x * y) .positive k t := by
  obtain ⟨hm, hx⟩ := hx
  obtain ⟨hn, hy⟩ := hy
  change Parts (.ofModel (.pack (UnpackedFloat.mul .binary64 x.toModel.unpack y.toModel.unpack)))
    .positive k t
  rw [hx, hy, mul_finite hfull hround hc.pos]
  exact parts_pack hc

theorem locates_fraction (a : Nat) {b : Nat} (hb : 0 < b) :
    Locates (.ofMantissaAndAccuracy (a / b) (accuracyOfFraction (a % b) b)) ((a : Rat) / b) := by
  have hb' : (0 : Rat) < b := by exact_mod_cast hb
  have hsplit : (a : Rat) / b - (a / b : Nat) = (a % b : Nat) / b := by
    have h : (a : Rat) = b * (a / b : Nat) + (a % b : Nat) := by
      exact_mod_cast (Nat.div_add_mod a b).symm
    field_simp
    linarith
  have hlt : ((a % b : Nat) : Rat) < b := by exact_mod_cast Nat.mod_lt a hb
  unfold Locates
  rw [mantissa_ofMantissaAndAccuracy, hsplit]
  generalize a % b = c at hlt
  unfold accuracyOfFraction
  by_cases hzero : c = 0
  · rw [if_pos hzero, hzero]
    exact .zero (by simp)
  · have hpos : (0 : Rat) < c := by exact_mod_cast Nat.pos_of_ne_zero hzero
    rw [if_neg hzero]
    rcases hcompare : compare (2 * c) b with _ | _ | _
    · have h : 2 * (c : Rat) < b := by exact_mod_cast Nat.compare_eq_lt.1 hcompare
      exact .less (div_pos hpos hb') (by rw [div_lt_div_iff₀ hb' two_pos]; linarith)
    · have h : 2 * (c : Rat) = b := by exact_mod_cast Nat.compare_eq_eq.1 hcompare
      exact .half (by rw [div_eq_div_iff hb'.ne' two_ne_zero]; linarith)
    · have h : (b : Rat) < 2 * c := by exact_mod_cast Nat.compare_eq_gt.1 hcompare
      exact .more (by rw [div_lt_div_iff₀ two_pos hb']; linarith) ((div_lt_one hb').2 hlt)

/-- The quotient of two mantissas, with what is left, says where the exact quotient lies. -/
theorem locates_divCore (hm : 0 < m) (hn : 0 < n) (q r : Int) :
    Locates (.ofMantissaAndAccuracy (divCore .binary64 m q n r).1 (divCore .binary64 m q n r).2.2)
        (m * 2 ^ q / (n * 2 ^ r) / 2 ^ (divCore .binary64 m q n r).2.1) ∧
      (2 ^ 52 ≤ (divCore .binary64 m q n r).1 ∨ (divCore .binary64 m q n r).2.1 ≤ -1074) := by
  have hn' : (0 : Rat) < n := by exact_mod_cast hn
  unfold divCore
  dsimp only
  rw [targetExponent_binary64, totalExponent, totalExponent, Nat.shiftLeft_eq]
  generalize htarget : min (q - r) (max ((m.log2 : Int) + 1 + q - (n.log2 + 1 + r) - 53) (-1074)) = e
  generalize hshift : (q - r - e).toNat = shift
  constructor
  · have hunits : (m : Rat) * 2 ^ q / (n * 2 ^ r) / 2 ^ e = (m * 2 ^ shift : Nat) / n := by
      have hq : q = e + r + shift := by omega
      rw [hq, two_zpow_add, zpow_add₀ (by norm_num)]
      push_cast
      field_simp
    rw [hunits]
    exact locates_fraction _ hn
  · by_cases hleast : e ≤ -1074
    · exact .inr hleast
    · left
      rw [Nat.le_div_iff_mul_le hn]
      have hdigits : n.log2 + 1 + 52 ≤ m.log2 + shift := by omega
      calc 2 ^ 52 * n ≤ 2 ^ 52 * 2 ^ (n.log2 + 1) := by
            gcongr
            exact Nat.lt_log2_self.le
        _ = 2 ^ (n.log2 + 1 + 52) := by rw [← pow_add, Nat.add_comm]
        _ ≤ 2 ^ (m.log2 + shift) := Nat.pow_le_pow_right (by decide) hdigits
        _ = 2 ^ m.log2 * 2 ^ shift := pow_add ..
        _ ≤ m * 2 ^ shift := by
            gcongr
            exact Nat.log2_self_le hm.ne'

theorem div_finite {hm : 0 < m} {hn : 0 < n} (hround : RoundsTo (m * 2 ^ q / (n * 2 ^ r)) k t)
    (hk : 0 < k) :
    UnpackedFloat.div .binary64 (.finite .positive m q hm) (.finite .positive n r hn) =
      .finite .positive k t hk := by
  obtain ⟨hlocates, hfull⟩ := locates_divCore hm hn q r
  exact roundWithAccuracy_eq hlocates hfull hround hk

/-- A quotient is rounded once. -/
theorem Parts.div (hx : Parts x .positive m q) (hy : Parts y .positive n r)
    (hround : RoundsTo (m * 2 ^ q / (n * 2 ^ r)) k t) (hc : Canonical k t) :
    Parts (x / y) .positive k t := by
  obtain ⟨hm, hx⟩ := hx
  obtain ⟨hn, hy⟩ := hy
  change Parts (.ofModel (.pack (UnpackedFloat.div .binary64 x.toModel.unpack y.toModel.unpack)))
    .positive k t
  rw [hx, hy, div_finite hround hc.pos]
  exact parts_pack hc

end Arithmetic

/-! ## Decimals -/

section Decimals

variable {x : Rat} {d m n k : Nat} {q r t : Int}

/-- What is rounded to a float is neither too large nor too small for floats. -/
theorem RoundsTo.bounds (h : RoundsTo x m q) (hc : Canonical m q) :
    2 ^ (-1075 : Int) ≤ x ∧ x < 2 ^ (1024 : Int) := by
  have hm : (1 : Rat) ≤ m := by exact_mod_cast hc.pos
  have hlow {e : Int} {n : Nat} (he : -1074 ≤ e) (hn : (1 : Rat) ≤ n) (hnear : Nearest n (x / 2 ^ e)) :
      2 ^ (-1075 : Int) ≤ x := by
    have hhalf : (1 : Rat) / 2 ≤ x / 2 ^ e := by linarith [hnear.le]
    calc (2 : Rat) ^ (-1075 : Int) ≤ 2 ^ (e - 1) := two_zpow_le_iff.2 (by omega)
      _ = 1 / 2 * 2 ^ e := by
          rw [zpow_sub₀ (by norm_num)]
          ring
      _ ≤ x / 2 ^ e * 2 ^ e := mul_le_mul_of_nonneg_right hhalf (two_zpow_pos e).le
      _ = x := div_mul_cancel₀ _ (two_zpow_pos e).ne'
  have hmost := hc.most
  cases h with
  | kept hscaled hnear _ =>
    exact ⟨hlow hscaled.least hm hnear, hscaled.lt.trans_le (two_zpow_le_iff.2 (by omega))⟩
  | carried hscaled hnear =>
    exact ⟨hlow hscaled.least (by norm_num) hnear,
      hscaled.lt.trans_le (two_zpow_le_iff.2 (by omega))⟩

/-- A small whole number is a float. -/
theorem parts_toFloat (hn : n < 2 ^ 53) (hpos : 0 < n) :
    Parts n.toUInt64.toFloat .positive (n * 2 ^ (52 - n.log2)) (n.log2 - 52 : Int) := by
  have hlog : n.log2 < 53 := log2_lt_of_lt (by omega) hn
  have hfull : 2 ^ 52 ≤ n * 2 ^ (52 - n.log2) := by
    calc 2 ^ 52 = 2 ^ n.log2 * 2 ^ (52 - n.log2) := by
          rw [← pow_add]
          congr 1
          omega
      _ ≤ n * 2 ^ (52 - n.log2) := by
          gcongr
          exact Nat.log2_self_le hpos.ne'
  have hlt : n * 2 ^ (52 - n.log2) < 2 ^ 53 := by
    calc n * 2 ^ (52 - n.log2) < 2 ^ (n.log2 + 1) * 2 ^ (52 - n.log2) :=
          Nat.mul_lt_mul_of_pos_right Nat.lt_log2_self (Nat.two_pow_pos _)
      _ = 2 ^ 53 := by
          rw [← pow_add]
          congr 1
          omega
  have hc : Canonical (n * 2 ^ (52 - n.log2)) (n.log2 - 52 : Int) :=
    ⟨by positivity, hlt, by omega, by omega, .inl hfull⟩
  have hword : n.toUInt64.toNat = n := Nat.mod_eq_of_lt (by omega)
  have hround : UnpackedFloat.ofNat .binary64 n =
      .finite .positive (n * 2 ^ (52 - n.log2)) (n.log2 - 52 : Int) hc.pos := by
    have hcompare : compare (n : Int) 0 = .gt := Int.compare_eq_gt.2 (by omega)
    have hshift : (0 - ((n.log2 : Int) - 52)).toNat = 52 - n.log2 := by omega
    have hexponent : (0 : Int) - (52 - n.log2 : Nat) = (n.log2 : Int) - 52 := by omega
    have hdigits : decreaseExponent n 0 (n.log2 - 52) =
        (n * 2 ^ (52 - n.log2), (n.log2 - 52 : Int)) := by
      simp only [decreaseExponent, hshift, hexponent, Nat.shiftLeft_eq]
    unfold UnpackedFloat.ofNat UnpackedFloat.ofInt UnpackedFloat.normalize
    rw [hcompare]
    dsimp only
    rw [UnpackedFloat.round, Int.toNat_natCast, targetExponent_whole hn, hdigits]
    exact roundWithAccuracy_exact (.inl hfull) (.of_within hc (within_self ..)) hc.pos .positive
  change Parts (.ofModel (.pack (UnpackedFloat.ofNat .binary64 n.toUInt64.toNat))) _ _ _
  rw [hword, hround]
  exact parts_pack hc

theorem value_toFloat (hn : n < 2 ^ 53) (hpos : 0 < n) :
    ((n * 2 ^ (52 - n.log2) : Nat) : Rat) * 2 ^ (n.log2 - 52 : Int) = n := by
  have hlog : n.log2 < 53 := log2_lt_of_lt (by omega) hn
  have hexponent : (n.log2 : Int) - 52 = -(52 - n.log2 : Nat) := by omega
  rw [hexponent, zpow_neg, zpow_natCast]
  push_cast
  field_simp

theorem exactValue?_powerOfTen (e : Fin Float.exactlyRepresentablePowersOfTen.size) :
    exactValue? Float.exactlyRepresentablePowersOfTen[e] = some (10 ^ e.val) := by
  revert e
  decide +kernel

theorem exists_parts_powerOfTen {e : Nat} (h : e < Float.exactlyRepresentablePowersOfTen.size) :
    ∃ n r, Parts Float.exactlyRepresentablePowersOfTen[e] .positive n r ∧
      (10 : Rat) ^ e = n * 2 ^ r :=
  exists_parts_of_pos (exactValue?_powerOfTen ⟨e, h⟩) (by positivity)

theorem two_pow_le_ten_pow (e : Nat) : (2 : Rat) ^ e ≤ 10 ^ e :=
  pow_le_pow_left₀ (by norm_num) (by norm_num) e

/-- A whole number with zeros after it becomes the nearest float. -/
theorem parts_ofScientific {e : Nat} (hd : 0 < d) (hround : RoundsTo (d * 10 ^ e) m q)
    (hc : Canonical m q) : Parts (Float.ofScientific d false e) .positive m q := by
  have hsize : e < 1024 := by
    have hlt : (2 : Rat) ^ (e : Int) < 2 ^ (1024 : Int) := by
      calc (2 : Rat) ^ (e : Int) = 2 ^ e := zpow_natCast 2 e
        _ ≤ 10 ^ e := two_pow_le_ten_pow e
        _ ≤ d * 10 ^ e := le_mul_of_one_le_left (by positivity) (by exact_mod_cast hd)
        _ < 2 ^ (1024 : Int) := (hround.bounds hc).2
    have h := two_zpow_lt_iff.1 hlt
    omega
  unfold Float.ofScientific
  split
  · next hsmall =>
    obtain ⟨n, r, hpower, hvalue⟩ := exists_parts_powerOfTen (Nat.lt_succ_of_le hsmall.2)
    have hdigits := parts_toFloat hsmall.1 hd
    rw [if_neg (by decide)]
    refine hdigits.mul hpower (.inl ?_) ?_ hc
    · have hfull := hdigits.canonical.full
      have hlog : d.log2 < 53 := log2_lt_of_lt (by omega) hsmall.1
      calc 2 ^ 52 ≤ d * 2 ^ (52 - d.log2) := by omega
        _ ≤ d * 2 ^ (52 - d.log2) * n := Nat.le_mul_of_pos_right _ hpower.canonical.pos
    · rwa [value_toFloat hsmall.1 hd, ← hvalue]
  · have hmodel : UnpackedFloat.ofScientific .binary64 d e = .finite .positive m q hc.pos := by
      unfold UnpackedFloat.ofScientific
      rw [dif_neg hd.ne', if_neg (by norm_num; omega), if_neg (by norm_num; omega),
        if_pos (by omega)]
      have hfull : 2 ^ 52 ≤ d <<< 53 * 10 ^ e := by
        rw [Nat.shiftLeft_eq]
        calc 2 ^ 52 ≤ d * 2 ^ 53 := by omega
          _ ≤ d * 2 ^ 53 * 10 ^ e := Nat.le_mul_of_pos_right _ (by positivity)
      have hvalue : ((d <<< 53 : Nat) : Rat) * 2 ^ (-53 : Int) * ((10 ^ e : Nat) * 2 ^ (0 : Int)) =
          d * 10 ^ e := by
        rw [Nat.shiftLeft_eq, zpow_zero, zpow_neg]
        push_cast
        field_simp
      rw [← hvalue] at hround
      exact mul_finite (.inl hfull) hround hc.pos
    change Parts (.ofModel (.pack (UnpackedFloat.ofScientific .binary64 d e))) .positive m q
    rw [hmodel]
    exact parts_pack hc

/-- A whole number with its last digits behind a point becomes the nearest float. -/
theorem parts_ofScientific_neg {e : Nat} (hd : 0 < d) (he : 0 < e)
    (hround : RoundsTo (d / 10 ^ e) m q) (hc : Canonical m q) :
    Parts (Float.ofScientific d true e) .positive m q := by
  have hsize : e ≤ d.log2 + 1075 := by
    have hlt : (2 : Rat) ^ (-1075 : Int) < 2 ^ ((d.log2 + 1 : Nat) - e : Int) := by
      calc (2 : Rat) ^ (-1075 : Int) ≤ d / 10 ^ e := (hround.bounds hc).1
        _ ≤ d / 2 ^ e := by
            gcongr
            norm_num
        _ < (2 ^ (d.log2 + 1) : Nat) / 2 ^ e := by
            gcongr
            exact Nat.lt_log2_self
        _ = 2 ^ ((d.log2 + 1 : Nat) - e : Int) := by
            rw [zpow_sub₀ (by norm_num), zpow_natCast, zpow_natCast]
            push_cast
            rfl
    have h := two_zpow_lt_iff.1 hlt
    omega
  unfold Float.ofScientific
  split
  · next hsmall =>
    obtain ⟨n, r, hpower, hvalue⟩ := exists_parts_powerOfTen (Nat.lt_succ_of_le hsmall.2)
    rw [if_pos rfl]
    refine (parts_toFloat hsmall.1 hd).div hpower ?_ hc
    rwa [value_toFloat hsmall.1 hd, ← hvalue]
  · next hlarge =>
    have hmodel : UnpackedFloat.ofScientific .binary64 d (.negOfNat e) =
        .finite .positive m q hc.pos := by
      have hneg : (-Int.negOfNat e).toNat = e := by
        cases e <;> rfl
      unfold UnpackedFloat.ofScientific
      rw [dif_neg hd.ne', if_neg (by norm_num; omega), if_neg (by norm_num; omega),
        if_neg (by omega)]
      have hvalue : (d : Rat) * 2 ^ (0 : Int) / ((10 ^ e : Nat) * 2 ^ (0 : Int)) = d / 10 ^ e := by
        push_cast
        simp
      rw [← hvalue] at hround
      refine div_finite ?_ hc.pos
      rw [hneg]
      exact hround
    change Parts (.ofModel (.pack (UnpackedFloat.ofScientific .binary64 d (.negOfNat e))))
      .positive m q
    rw [hmodel]
    exact parts_pack hc

theorem two_zpow_le_ten_zpow (n : Nat) : (2 : Rat) ^ (3 * n : Int) ≤ 10 ^ (n : Int) := by
  rw [zpow_mul, zpow_natCast, zpow_natCast]
  exact pow_le_pow_left₀ (by norm_num) (by norm_num) n

theorem ten_zpow_le_two_zpow (n : Nat) : (10 : Rat) ^ (-n : Int) ≤ 2 ^ (-(3 * n) : Int) := by
  rw [zpow_neg, zpow_neg]
  exact inv_anti₀ (two_zpow_pos _) (two_zpow_le_ten_zpow n)

/-- A decimal with at least one digit other than zero is read as the nearest float. -/
theorem Literal.parts_toFloat {count : Nat} {e : Int} (hd : 0 < d) (hcount : d < 10 ^ count)
    (hround : RoundsTo (d * 10 ^ e) m q) (hc : Canonical m q) :
    Parts (Literal.toFloat ⟨false, d, count, e⟩) .positive m q := by
  obtain ⟨hlow, hhigh⟩ := hround.bounds hc
  have hlarge : ¬ e > 400 := by
    intro he
    refine absurd hhigh (not_lt.2 ?_)
    calc (2 : Rat) ^ (1024 : Int) ≤ 2 ^ (3 * (400 : Nat) : Int) := two_zpow_le_iff.2 (by omega)
      _ ≤ 10 ^ ((400 : Nat) : Int) := two_zpow_le_ten_zpow 400
      _ ≤ 10 ^ e := zpow_le_zpow_right₀ (by norm_num) (by omega)
      _ ≤ d * 10 ^ e := le_mul_of_one_le_left (ten_zpow_pos e).le (by exact_mod_cast hd)
  have hsmall : ¬ e + (count : Int) < -400 := by
    intro he
    refine absurd hlow (not_le.2 ?_)
    calc (d : Rat) * 10 ^ e < (10 ^ count : Nat) * 10 ^ e :=
          mul_lt_mul_of_pos_right (by exact_mod_cast hcount) (ten_zpow_pos e)
      _ = 10 ^ (e + count) := by
          rw [zpow_add₀ (by norm_num), zpow_natCast, mul_comm]
          push_cast
          rfl
      _ ≤ 10 ^ (-(400 : Nat) : Int) := zpow_le_zpow_right₀ (by norm_num) (by omega)
      _ ≤ 2 ^ (-(3 * (400 : Nat)) : Int) := ten_zpow_le_two_zpow 400
      _ ≤ 2 ^ (-1075 : Int) := two_zpow_le_iff.2 (by omega)
  unfold Literal.toFloat
  simp only [beq_iff_eq, hd.ne', hlarge, hsmall, if_false, Bool.false_eq_true]
  cases e with
  | ofNat e =>
    rw [Int.ofNat_eq_natCast, zpow_natCast] at hround
    exact parts_ofScientific hd hround hc
  | negSucc e =>
    rw [zpow_negSucc, ← div_eq_mul_inv] at hround
    exact parts_ofScientific_neg hd (Nat.succ_pos e) hround hc

end Decimals

end ClusterJobs.Decimal
