import Mathlib.Data.Nat.Log
import Mathlib.Tactic.Linarith

/-!
# Whole numbers as floats

Rounding raises an exponent by little, so a whole number of 64 bits is far from the floats that are not
finite.
-/

namespace ClusterJobs.Decimal

open Float.Model Float.Model.UnpackedFloat

/-! ## Rounding -/

section Rounding

variable {m : Nat} {e : Int}

theorem mantissa_shiftRight_le (em : ExtendedMantissa) (n : Nat) :
    (em >>> n).mantissa ≤ em.mantissa := by
  induction n with
  | zero => exact Nat.le_refl _
  | succ n ih =>
    have hhalf : (em >>> (n + 1)).mantissa = (em >>> n).mantissa / 2 := rfl
    omega

theorem roundedMantissa_le (em : ExtendedMantissa) : em.roundedMantissa ≤ em.mantissa + 1 := by
  obtain ⟨m, round, sticky⟩ := em
  cases round <;> cases sticky <;>
    simp [ExtendedMantissa.roundedMantissa, ExtendedMantissa.accuracy, Accuracy.roundToNearestEven]
  omega

theorem mantissa_shiftToTargetExponent_le :
    (shiftToTargetExponent .binary64 m e .exact).1.mantissa ≤ m :=
  mantissa_shiftRight_le ..

theorem targetExponent_binary64 (j : Int) : Format.binary64.targetExponent j = max (j - 53) (-1074) :=
  rfl

theorem exponent_shiftToTargetExponent {a : Accuracy} :
    (shiftToTargetExponent .binary64 m e a).2 = max e (max (m.log2 + 1 + e - 53) (-1074)) := by
  change e + (Format.binary64.targetExponent (totalExponent m e) - e).toNat = _
  simp only [targetExponent_binary64, totalExponent]
  omega

/-- Zero, or a mantissa with an exponent that is not above this one. -/
inductive UpTo (k : Int) : UnpackedFloat → Prop where
  | zero (s : Sign) : UpTo k (.zero s)
  | finite {s : Sign} {m : Nat} {e : Int} {hm : 0 < m} : e ≤ k → UpTo k (.finite s m e hm)

theorem upTo_dite {k : Int} {s : Sign} {p : Prop} [Decidable p] {hm : ¬p → 0 < m} (he : e ≤ k) :
    UpTo k (if h : p then .zero s else .finite s m e (hm h)) := by
  by_cases h : p
  · rw [dif_pos h]
    exact .zero s
  · rw [dif_neg h]
    exact .finite he

theorem log2_lt_of_lt {k : Nat} (hk : 0 < k) (hm : m < 2 ^ k) : m.log2 < k := by
  rcases Nat.eq_zero_or_pos m with rfl | hpos
  · simpa using hk
  · exact (Nat.log2_lt (Nat.ne_of_gt hpos)).2 hm

/-- What is rounded may get one bit more. -/
theorem upTo_roundWithAccuracy {k : Nat} {j : Int} (s : Sign) (hm : m < 2 ^ k) (hk : 53 ≤ k)
    (he : e ≤ j) (hj : -1074 ≤ j) :
    UpTo (2 * k + j - 105) (roundWithAccuracy .binary64 s m e .exact) := by
  have hlog : m.log2 < k := log2_lt_of_lt (by omega) hm
  have hrounded : (shiftToTargetExponent .binary64 m e .exact).1.roundedMantissa.log2 < k + 1 := by
    refine log2_lt_of_lt (by omega) ?_
    have hone := roundedMantissa_le (shiftToTargetExponent .binary64 m e .exact).1
    have hshift := @mantissa_shiftToTargetExponent_le m e
    rw [Nat.pow_succ]
    omega
  have hexponent : (shiftToTargetExponent .binary64
      (shiftToTargetExponent .binary64 m e .exact).1.roundedMantissa
      (shiftToTargetExponent .binary64 m e .exact).2 .exact).2 ≤ 2 * k + j - 105 := by
    rw [exponent_shiftToTargetExponent, exponent_shiftToTargetExponent]
    omega
  exact upTo_dite hexponent

end Rounding

/-! ## Packing -/

section Packing

variable {k : Int}

/-- Zero, or a mantissa that fits a float with an exponent that is not above this one. -/
inductive Narrow (k : Int) : UnpackedFloat → Prop where
  | zero (s : Sign) : Narrow k (.zero s)
  | finite {s : Sign} {m : Nat} {e : Int} {hm : 0 < m} : m < 2 ^ 53 → e ≤ k →
      Narrow k (.finite s m e hm)

theorem Narrow.isFinite {u : UnpackedFloat} (h : Narrow k u) : u.isFinite := by
  cases h <;> rfl

theorem narrow_dite {s : Sign} {m : Nat} {e : Int} {p : Prop} [Decidable p] {hpos : ¬p → 0 < m}
    (hm : m < 2 ^ 53) (he : e ≤ k) :
    Narrow k (if h : p then .zero s else .finite s m e (hpos h)) := by
  by_cases h : p
  · rw [dif_pos h]
    exact .zero s
  · rw [dif_neg h]
    exact .finite hm he

theorem narrow_unpack {s : Sign} {x : BitVec 11} {y : BitVec 52} (hx : x ≠ -1#11)
    (hk : -1074 ≤ k) (hle : (x.toNat : Int) - 1075 ≤ k) :
    Narrow k (UnpackedFloat.unpack .binary64 (packComponents .binary64 s x y)) := by
  have hexponent : unpackExponent (packComponents .binary64 s x y) = x :=
    unpackExponent_packComponents ..
  have hmantissa := (unpackMantissa (packComponents .binary64 s x y)).isLt
  unfold UnpackedFloat.unpack
  dsimp only
  rw [if_neg fun hones => hx (hexponent.symm.trans hones)]
  by_cases hzero : x = 0#11
  · rw [if_pos (hexponent.trans hzero)]
    refine narrow_dite (Nat.lt_trans hmantissa (by decide)) ?_
    rw [hexponent, hzero]
    exact hk
  · rw [if_neg fun h => hzero (hexponent.symm.trans h)]
    refine .finite (BitVec.isLt (1#1 ++ unpackMantissa (packComponents .binary64 s x y))) ?_
    rw [hexponent]
    exact hle

theorem pack_finite (s : Sign) (m : Nat) (e : Int) (hm : 0 < m) :
    UnpackedFloat.pack .binary64 (.finite s m e hm) =
      if 2048 ≤ (e + 1023 + 52).toNat + 1 then packedInfinity .binary64 s
      else if m.log2 + 1 = 53 then
        packComponents .binary64 s (BitVec.ofNat 11 (e + 1023 + 52).toNat) (BitVec.ofNat 52 m)
      else packComponents .binary64 s 0#11 (BitVec.ofNat 52 m) :=
  rfl

theorem narrow_pack {u : UnpackedFloat} (h : UpTo k u) (hk : -1074 ≤ k) (hfits : k < 972) :
    Narrow k (UnpackedFloat.unpack .binary64 (UnpackedFloat.pack .binary64 u)) := by
  cases h with
  | zero s => exact narrow_unpack (by decide) hk (by simpa using by omega)
  | @finite s m e hm he =>
    have hbiased : (e + 1023 + 52).toNat + 1 < 2048 := by omega
    rw [pack_finite, if_neg (by omega)]
    have hnat : (BitVec.ofNat 11 (e + 1023 + 52).toNat).toNat = (e + 1023 + 52).toNat :=
      Nat.mod_eq_of_lt (by omega)
    split
    · refine narrow_unpack (fun hones => ?_) hk (by omega)
      have hmax := congrArg BitVec.toNat hones
      rw [hnat] at hmax
      simp at hmax
      omega
    · exact narrow_unpack (by decide) hk (by simpa using by omega)

end Packing

/-! ## Whole numbers -/

section Whole

variable {n : Nat}

theorem targetExponent_whole (hn : n < 2 ^ 53) :
    Format.binary64.targetExponent (totalExponent n 0) = (n.log2 : Int) - 52 := by
  have hlog : n.log2 < 53 := log2_lt_of_lt (by omega) hn
  simp only [targetExponent_binary64, totalExponent]
  omega

/-- The digits of a whole number are shifted up to the full width of a mantissa. -/
theorem upTo_round (hn : n < 2 ^ 53) : UpTo 1 (UnpackedFloat.round .binary64 .positive n 0) := by
  have hlog : n.log2 < 53 := log2_lt_of_lt (by omega) hn
  simp only [UnpackedFloat.round, decreaseExponent, targetExponent_whole hn]
  refine upTo_roundWithAccuracy _ (k := 53) (j := 0) ?_ (by omega) (by omega) (by omega)
  have hshift : (0 - ((n.log2 : Int) - 52)).toNat = 52 - n.log2 := by omega
  rw [hshift, Nat.shiftLeft_eq]
  calc n * 2 ^ (52 - n.log2) < 2 ^ (n.log2 + 1) * 2 ^ (52 - n.log2) := by
        exact Nat.mul_lt_mul_of_pos_right Nat.lt_log2_self (Nat.two_pow_pos _)
    _ = 2 ^ 53 := by rw [← Nat.pow_add]; congr 1; omega

theorem upTo_ofNat (hn : n < 2 ^ 53) : UpTo 1 (UnpackedFloat.ofNat .binary64 n) := by
  unfold UnpackedFloat.ofNat UnpackedFloat.ofInt UnpackedFloat.normalize
  split
  · next hneg => exact absurd (Int.compare_eq_lt.1 hneg) (by omega)
  · exact .zero _
  · exact upTo_round hn

theorem narrow_toFloat (hn : n < 2 ^ 53) : Narrow 1 n.toUInt64.toFloat.toModel.unpack := by
  have hword : n.toUInt64.toNat = n := Nat.mod_eq_of_lt (by omega)
  have hup : UpTo 1 (UnpackedFloat.ofUInt64 .binary64 n.toUInt64) := by
    rw [UnpackedFloat.ofUInt64, hword]
    exact upTo_ofNat hn
  exact narrow_pack hup (by omega) (by omega)

theorem unpack_one : (Float.ofBits 0x3FF0000000000000).toModel.unpack =
    .finite .positive (2 ^ 52) (-52) (by decide) := by
  rfl

theorem upTo_mul_one {u : UnpackedFloat} (hu : Narrow 1 u) :
    UpTo 76 (UnpackedFloat.mul .binary64 u (.finite .positive (2 ^ 52) (-52) (by decide))) := by
  cases hu with
  | zero s => exact .zero _
  | finite hm he => refine upTo_roundWithAccuracy _ (k := 105) (j := -29) ?_ ?_ ?_ ?_ <;> omega

theorem upTo_ofScientific (hn : n < 2 ^ 64) :
    UpTo 76 (UnpackedFloat.ofScientific .binary64 n 0) := by
  by_cases h0 : n = 0
  · subst h0
    exact .zero _
  have hproduct : UnpackedFloat.ofScientific .binary64 n 0 =
      roundWithAccuracy .binary64 .positive (n <<< 53 * 1) (-53) .exact := by
    unfold UnpackedFloat.ofScientific
    rw [dif_neg h0, if_neg (by decide), if_neg (by simp), if_pos le_rfl]
    rfl
  have hshift : n <<< 53 * 1 < 2 ^ 117 := by
    rw [Nat.shiftLeft_eq]
    omega
  rw [hproduct]
  exact upTo_roundWithAccuracy _ (k := 117) (j := -53) hshift (by omega) le_rfl (by omega)

/-- A whole number of 64 bits is far from the largest floats. -/
theorem narrow_ofNat (hn : n < 2 ^ 64) : Narrow 76 (Float.ofNat n).toModel.unpack := by
  -- A small number is converted as a word and multiplied by one, a larger one is rounded at once.
  change Narrow 76 (Float.ofScientific n false 0).toModel.unpack
  unfold Float.ofScientific
  split
  · next hsmall =>
    refine narrow_pack ?_ (by omega) (by omega)
    change UpTo 76 (UnpackedFloat.mul .binary64 n.toUInt64.toFloat.toModel.unpack
      (Float.ofBits 0x3FF0000000000000).toModel.unpack)
    rw [unpack_one]
    exact upTo_mul_one (narrow_toFloat hsmall.1)
  · exact narrow_pack (upTo_ofScientific hn) (by omega) (by omega)

theorem Narrow.neg {k : Int} {u : UnpackedFloat} (h : Narrow k u) : UpTo k u.neg := by
  cases h with
  | zero s => exact .zero _
  | finite _ he => exact .finite he

theorem isFinite_ofInt {n : Int} (hlow : -2 ^ 63 ≤ n) (hhigh : n < 2 ^ 64) :
    (Float.ofInt n).isFinite = true := by
  cases n with
  | ofNat n =>
    have hn : n < 2 ^ 64 := by simpa using hhigh
    exact (narrow_ofNat hn).isFinite
  | negSucc n =>
    have hn : n.succ < 2 ^ 64 := by omega
    exact (narrow_pack (narrow_ofNat hn).neg (by omega) (by omega)).isFinite

end Whole

end ClusterJobs.Decimal
