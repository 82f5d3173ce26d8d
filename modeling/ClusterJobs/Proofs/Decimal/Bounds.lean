import ClusterJobs.Proofs.Decimal.Arithmetic

/-!
# Bounds on results of floats

Rounding changes no float, and the larger of two numbers is never rounded to the smaller float. So what
is at most a float is still so when it is rounded, and sums, products and quotients of bounded floats
are bounded.
-/

namespace ClusterJobs.Decimal

open Float.Model Float.Model.UnpackedFloat

/-! ## Rounding keeps bounds -/

section Rounding

variable {x y : Rat} {k m n : Nat} {e g q : Int} {a : Accuracy}

theorem Nearest.le_of_le (h : Nearest n y) (hle : y ≤ k) : n ≤ k := by
  by_contra! hlt
  have hsucc : (k : Rat) + 1 ≤ n := by exact_mod_cast hlt
  linarith [h.le]

theorem Nearest.ge_of_ge (h : Nearest n y) (hge : (k : Rat) ≤ y) : k ≤ n := by
  by_contra! hlt
  have hsucc : (n : Rat) + 1 ≤ k := by exact_mod_cast hlt
  linarith [h.ge]

/-- A mantissa and an exponent that are not too large, or too large for a float only in the exponent. -/
structure Normal (m : Nat) (q : Int) : Prop where
  lt : m < 2 ^ 53
  least : -1074 ≤ q
  full : 2 ^ 52 ≤ m ∨ q = -1074

theorem RoundsTo.normal (h : RoundsTo x m q) : Normal m q := by
  cases h with
  | kept hscaled hnear hlt =>
    refine ⟨hlt, hscaled.least, hscaled.full.symm.imp_left fun hfull => hnear.ge_of_ge ?_⟩
    rw [le_div_iff₀ (two_zpow_pos q)]
    exact_mod_cast (two_zpow_add q 52).symm.trans_le hfull
  | carried hscaled => exact ⟨by decide, hscaled.least.trans (Int.le_add_one le_rfl), .inl le_rfl⟩

/-- The number is that of a float. -/
structure IsFloat (y : Rat) : Prop where
  eq : ∃ (m : Nat) (q : Int), m < 2 ^ 53 ∧ -1074 ≤ q ∧ y = m * 2 ^ q
  lt : y < 2 ^ (1024 : Int)

theorem Scaled.nearest_le (hs : Scaled x e) (hn : Nearest n (x / 2 ^ e)) (hm : m < 2 ^ 53)
    (hq : -1074 ≤ q) (hle : x ≤ m * 2 ^ q) : (n : Rat) * 2 ^ e ≤ m * 2 ^ q := by
  have hexponent : e ≤ q := by
    rcases hs.full with rfl | hfull
    · exact hq
    · have hlt : (2 : Rat) ^ (e + 52) < 2 ^ (q + 53) := by
        calc (2 : Rat) ^ (e + 52) ≤ m * 2 ^ q := hfull.trans hle
          _ < 2 ^ 53 * 2 ^ q := mul_lt_mul_of_pos_right (by exact_mod_cast hm) (two_zpow_pos q)
          _ = 2 ^ (q + 53) := (two_zpow_add q 53).symm
      have h := two_zpow_lt_iff.1 hlt
      omega
  obtain ⟨shift, rfl⟩ : ∃ shift : Nat, q = e + shift := ⟨(q - e).toNat, by omega⟩
  have hvalue : (m : Rat) * 2 ^ (e + shift) = (m * 2 ^ shift : Nat) * 2 ^ e := by
    rw [two_zpow_add]
    push_cast
    ring
  rw [hvalue] at hle ⊢
  refine mul_le_mul_of_nonneg_right ?_ (two_zpow_pos e).le
  exact_mod_cast hn.le_of_le ((div_le_iff₀ (two_zpow_pos e)).2 hle)

/-- What is at most a float is rounded to such. -/
theorem RoundsTo.le (h : RoundsTo x m q) (hy : IsFloat y) (hle : x ≤ y) : (m : Rat) * 2 ^ q ≤ y := by
  obtain ⟨⟨k, g, hk, hg, rfl⟩, -⟩ := hy
  cases h with
  | kept hscaled hnear _ => exact hscaled.nearest_le hnear hk hg hle
  | @carried q hscaled hnear =>
    have hvalue : ((2 ^ 52 : Nat) : Rat) * 2 ^ (q + 1) = (2 ^ 53 : Nat) * 2 ^ q := by
      rw [zpow_add_one₀ (by norm_num)]
      push_cast
      ring
    rw [hvalue]
    exact hscaled.nearest_le hnear hk hg hle

theorem Scaled.exists_roundsTo (hs : Scaled x q) (hn : Nearest n (x / 2 ^ q)) :
    n < 2 ^ 53 ∧ RoundsTo x n q ∨ n = 2 ^ 53 ∧ RoundsTo x (2 ^ 52) (q + 1) := by
  have hle : n ≤ 2 ^ 53 := by
    refine hn.le_of_le ((div_le_iff₀ (two_zpow_pos q)).2 ?_)
    exact_mod_cast (hs.lt.trans_eq (two_zpow_add q 53)).le
  obtain hlt | rfl := hle.lt_or_eq
  · exact .inl ⟨hlt, .kept hs hn hlt⟩
  · exact .inr ⟨rfl, .carried hs hn⟩

/-- Every number is rounded to zero, or to a mantissa with an exponent. -/
theorem roundWithAccuracy_cases (h : Locates (.ofMantissaAndAccuracy m a) (x / 2 ^ e))
    (hfull : 2 ^ 52 ≤ m ∨ e ≤ -1074) (s : Sign) :
    roundWithAccuracy .binary64 s m e a = .zero s ∨
      ∃ n q hn, RoundsTo x n q ∧ roundWithAccuracy .binary64 s m e a = .finite s n q hn := by
  have hscaled := scaled_of_locates h hfull
  have hnearest := nearest_of_locates h
  rcases hscaled.exists_roundsTo hnearest with ⟨hlt, hround⟩ | ⟨-, hround⟩
  · rcases Nat.eq_zero_or_pos (shiftToTargetExponent .binary64 m e a).1.roundedMantissa with
      hzero | hpos
    · left
      unfold roundWithAccuracy
      generalize shiftToTargetExponent .binary64 m e a = first at hscaled hlt hzero
      obtain ⟨em, f⟩ := first
      dsimp only at hscaled hlt hzero ⊢
      rw [shiftToTargetExponent_of_lt hlt hscaled.least, dif_pos hzero]
    · exact .inr ⟨_, _, hpos, hround, roundWithAccuracy_eq h hfull hround hpos⟩
  · exact .inr ⟨_, _, by decide, hround, roundWithAccuracy_eq h hfull hround (by decide)⟩

end Rounding

/-! ## Floats up to a number -/

/-- The float is zero, or positive and at most `x`. -/
inductive AtMost (x : Rat) (z : Float) : Prop where
  | zero {s : Sign} : z.toModel.unpack = .zero s → 0 ≤ x → AtMost x z
  | parts {m : Nat} {q : Int} : Parts z .positive m q → (m : Rat) * 2 ^ q ≤ x → AtMost x z

section AtMost

variable {x y v : Rat} {z w : Float} {m n : Nat} {e q r : Int} {a : Accuracy} {s : Sign}

theorem AtMost.nonneg (h : AtMost x z) : 0 ≤ x := by
  cases h with
  | zero _ hx => exact hx
  | parts hparts hle => exact hparts.value_pos.le.trans hle

theorem AtMost.mono (h : AtMost x z) (hle : x ≤ y) : AtMost y z := by
  cases h with
  | zero hzero hx => exact .zero hzero (hx.trans hle)
  | parts hparts hz => exact .parts hparts (hz.trans hle)

theorem AtMost.exists_value (h : AtMost x z) : ∃ v, exactValue? z = some v ∧ 0 ≤ v ∧ v ≤ x := by
  cases h with
  | zero hzero hx => exact ⟨0, exactValue?_zero hzero, le_rfl, hx⟩
  | parts hparts hle => exact ⟨_, hparts.exactValue?, hparts.value_pos.le, hle⟩

theorem atMost_zero (s : Sign) (hx : 0 ≤ x) : AtMost x (.ofModel (.pack (.zero s))) :=
  .zero (unpack_pack_zero s) hx

theorem RoundsTo.canonical (h : RoundsTo v m q) (hm : 0 < m)
    (hlt : (m : Rat) * 2 ^ q < 2 ^ (1024 : Int)) : Canonical m q := by
  obtain ⟨hm', hleast, hfull⟩ := h.normal
  refine ⟨hm, hm', hleast, ?_, hfull⟩
  rcases hfull with hfull | rfl
  · have hpower : (2 : Rat) ^ (q + 52) < 2 ^ (1024 : Int) := by
      refine lt_of_le_of_lt ?_ hlt
      rw [show (2 : Rat) ^ (q + 52) = 2 ^ 52 * 2 ^ q from two_zpow_add q 52]
      exact mul_le_mul_of_nonneg_right (by exact_mod_cast hfull) (two_zpow_pos q).le
    have h := two_zpow_lt_iff.1 hpower
    omega
  · decide

theorem atMost_round (h : Locates (.ofMantissaAndAccuracy m a) (v / 2 ^ e))
    (hfull : 2 ^ 52 ≤ m ∨ e ≤ -1074) (hx : IsFloat x) (hnonneg : 0 ≤ x) (hle : v ≤ x) :
    AtMost x (.ofModel (.pack (roundWithAccuracy .binary64 .positive m e a))) := by
  rcases roundWithAccuracy_cases h hfull .positive with heq | ⟨n, q, hn, hround, heq⟩ <;> rw [heq]
  · exact atMost_zero _ hnonneg
  · have hbound := hround.le hx hle
    exact .parts (parts_pack (hround.canonical hn (hbound.trans_lt hx.lt))) hbound

/-- Digits are shifted up to the full width of a mantissa before they are rounded. -/
theorem atMost_normalize (hx : IsFloat x) (hle : (m : Rat) * 2 ^ e ≤ x) :
    AtMost x (.ofModel (.pack (UnpackedFloat.normalize .binary64 m e .positive))) := by
  have hnonneg : 0 ≤ x := (mul_nonneg (Nat.cast_nonneg m) (two_zpow_pos e).le).trans hle
  unfold UnpackedFloat.normalize
  rcases Nat.eq_zero_or_pos m with rfl | hpos
  · exact atMost_zero _ hnonneg
  · rw [Int.compare_eq_gt.2 (by omega)]
    dsimp only
    rw [Int.toNat_natCast, UnpackedFloat.round, targetExponent_binary64, totalExponent,
      decreaseExponent]
    generalize hshift : (e - max ((m.log2 : Int) + 1 + e - 53) (-1074)).toNat = shift
    have hdigits : 2 ^ 52 ≤ m <<< shift ∨ e - shift ≤ -1074 := by
      by_cases hleast : e - shift ≤ -1074
      · exact .inr hleast
      · left
        rw [Nat.shiftLeft_eq]
        calc 2 ^ 52 ≤ 2 ^ (m.log2 + shift) := Nat.pow_le_pow_right (by decide) (by omega)
          _ = 2 ^ m.log2 * 2 ^ shift := pow_add ..
          _ ≤ m * 2 ^ shift := Nat.mul_le_mul_right _ (Nat.log2_self_le hpos.ne')
    have hvalue : ((m <<< shift : Nat) : Rat) * 2 ^ (e - shift : Int) = m * 2 ^ e := by
      rw [Nat.shiftLeft_eq, zpow_sub₀ (by norm_num), zpow_natCast]
      push_cast
      field_simp
    refine atMost_round (v := (m <<< shift : Nat) * 2 ^ (e - shift : Int)) ?_ hdigits hx hnonneg
      (hvalue.trans_le hle)
    rw [mul_div_cancel_right₀ _ (two_zpow_pos _).ne']
    exact locates_exact _

/-- A whole number becomes a float that is not above it, if it is not above a float. -/
theorem atMost_toFloat (hn : n < 2 ^ 64) (hx : IsFloat x) (hle : (n : Rat) ≤ x) :
    AtMost x n.toUInt64.toFloat := by
  have hword : n.toUInt64.toNat = n := Nat.mod_eq_of_lt hn
  change AtMost x (.ofModel (.pack (UnpackedFloat.normalize .binary64 (n.toUInt64.toNat : Nat) 0
    .positive)))
  rw [hword]
  exact atMost_normalize hx (by rwa [zpow_zero, mul_one])

theorem AtMost.add (hz : AtMost x z) (hw : AtMost y w) (hv : IsFloat v) (hle : x + y ≤ v) :
    AtMost v (z + w) := by
  have hx := hz.nonneg
  have hy := hw.nonneg
  have hnonneg : 0 ≤ v := (add_nonneg hx hy).trans hle
  change AtMost v (.ofModel (.pack (UnpackedFloat.add .binary64 z.toModel.unpack w.toModel.unpack)))
  cases hz with
  | zero hz =>
    rw [hz]
    cases hw with
    | zero hw =>
      rw [hw]
      unfold UnpackedFloat.add
      dsimp only
      split <;> exact atMost_zero _ hnonneg
    | parts hw hbound =>
      have hc := hw.canonical
      obtain ⟨hm, hw⟩ := hw
      rw [hw]
      exact .parts (parts_pack hc) (by linarith)
  | @parts m q hz hbound =>
    cases hw with
    | zero hw =>
      have hc := hz.canonical
      obtain ⟨hm, hz⟩ := hz
      rw [hz, hw]
      exact .parts (parts_pack hc) (by linarith)
    | @parts n r hw hbound' =>
      obtain ⟨hm, hz⟩ := hz
      obtain ⟨hn, hw⟩ := hw
      rw [hz, hw]
      unfold UnpackedFloat.add decreaseExponent
      dsimp only
      have hsum : Sign.positive.apply ((m <<< (q - min q r).toNat : Nat) : Int) +
          Sign.positive.apply ((n <<< (r - min q r).toNat : Nat) : Int) =
            (m <<< (q - min q r).toNat + n <<< (r - min q r).toNat : Nat) := rfl
      have hleft : (2 : Rat) ^ q = 2 ^ (q - min q r).toNat * 2 ^ min q r := by
        rw [← two_zpow_add]
        congr 1
        omega
      have hright : (2 : Rat) ^ r = 2 ^ (r - min q r).toNat * 2 ^ min q r := by
        rw [← two_zpow_add]
        congr 1
        omega
      rw [hsum]
      refine atMost_normalize hv ?_
      calc ((m <<< (q - min q r).toNat + n <<< (r - min q r).toNat : Nat) : Rat) * 2 ^ min q r
          = m * 2 ^ q + n * 2 ^ r := by
            rw [hleft, hright, Nat.shiftLeft_eq, Nat.shiftLeft_eq]
            push_cast
            ring
        _ ≤ v := (add_le_add hbound hbound').trans hle

theorem Canonical.mul_full (hm : Canonical m q) (hn : Canonical n r) :
    2 ^ 52 ≤ m * n ∨ q + r ≤ -1074 := by
  rcases hm.full with hfull | rfl
  · exact .inl (hfull.trans (Nat.le_mul_of_pos_right m hn.pos))
  · rcases hn.full with hfull | rfl
    · exact .inl (hfull.trans (Nat.le_mul_of_pos_left n hm.pos))
    · exact .inr (by decide)

theorem locates_mul (m n : Nat) (q r : Int) :
    Locates (.ofMantissaAndAccuracy (m * n) .exact)
      ((m * 2 ^ q * (n * 2 ^ r) : Rat) / 2 ^ (q + r)) := by
  have hvalue : (m * 2 ^ q * (n * 2 ^ r) : Rat) = (m * n : Nat) * 2 ^ (q + r) := by
    rw [zpow_add₀ (by norm_num)]
    push_cast
    ring
  rw [hvalue, mul_div_cancel_right₀ _ (two_zpow_pos _).ne']
  exact locates_exact _

theorem AtMost.mul (hz : AtMost x z) (hw : AtMost y w) (hv : IsFloat v) (hle : x * y ≤ v) :
    AtMost v (z * w) := by
  have hx := hz.nonneg
  have hnonneg : 0 ≤ v := (mul_nonneg hx hw.nonneg).trans hle
  change AtMost v (.ofModel (.pack (UnpackedFloat.mul .binary64 z.toModel.unpack w.toModel.unpack)))
  cases hz with
  | zero hz =>
    rw [hz]
    cases hw with
    | zero hw =>
      rw [hw]
      exact atMost_zero _ hnonneg
    | parts hw _ =>
      obtain ⟨hm, hw⟩ := hw
      rw [hw]
      exact atMost_zero _ hnonneg
  | @parts m q hz hbound =>
    cases hw with
    | zero hw =>
      obtain ⟨hm, hz⟩ := hz
      rw [hz, hw]
      exact atMost_zero _ hnonneg
    | @parts n r hw hbound' =>
      have hfull := hz.canonical.mul_full hw.canonical
      have hpos := hw.value_pos
      obtain ⟨hm, hz⟩ := hz
      obtain ⟨hn, hw⟩ := hw
      rw [hz, hw]
      refine atMost_round (locates_mul m n q r) hfull hv hnonneg ?_
      exact (mul_le_mul hbound hbound' hpos.le hx).trans hle

/-- A quotient by a positive float. -/
theorem AtMost.div (hz : AtMost x z) (hw : Parts w .positive n r) (hv : IsFloat v)
    (hle : x / (n * 2 ^ r) ≤ v) : AtMost v (z / w) := by
  have hpos := hw.value_pos
  have hnonneg : 0 ≤ v := (div_nonneg hz.nonneg hpos.le).trans hle
  obtain ⟨hn, hw⟩ := hw
  change AtMost v (.ofModel (.pack (UnpackedFloat.div .binary64 z.toModel.unpack w.toModel.unpack)))
  rw [hw]
  cases hz with
  | zero hz =>
    rw [hz]
    exact atMost_zero _ hnonneg
  | @parts m q hz hbound =>
    obtain ⟨hm, hz⟩ := hz
    rw [hz]
    obtain ⟨hlocates, hfull⟩ := locates_divCore hm hn q r
    refine atMost_round hlocates hfull hv hnonneg ?_
    exact (div_le_div_of_nonneg_right hbound hpos.le).trans hle

end AtMost

/-! ## Signs -/

section Signs

variable {x : Rat} {z w : Float} {m n k : Nat} {q r t : Int} {s : Sign}

theorem AtMost.not_lt_zero (h : AtMost x z) : ¬ z < 0.0 := by
  rw [lt_iff_compare, unpack_zero]
  cases h with
  | zero hzero => rw [hzero]; exact nofun
  | parts hparts =>
    obtain ⟨hm, hz⟩ := hparts
    rw [hz]
    exact nofun

theorem compare_then_eq_lt_iff :
    (compare q r).then (compare m n) = .lt ↔ q < r ∨ q = r ∧ m < n := by
  rw [Ordering.then_eq_lt, Int.compare_eq_lt, Int.compare_eq_eq, Nat.compare_eq_lt]

/-- Of two floats, the one with the smaller exponent is smaller. -/
theorem Canonical.le_of_lex (hm : Canonical m q) (hn : Canonical n r) (h : r < q ∨ r = q ∧ n ≤ m) :
    (n : Rat) * 2 ^ r ≤ m * 2 ^ q := by
  rcases h with hlt | ⟨rfl, hle⟩
  · have hfull : 2 ^ 52 ≤ m := hm.full.resolve_right (by have := hn.least; omega)
    calc (n : Rat) * 2 ^ r ≤ 2 ^ 53 * 2 ^ r :=
          mul_le_mul_of_nonneg_right (by exact_mod_cast hn.lt.le) (two_zpow_pos r).le
      _ = 2 ^ (r + 53) := (two_zpow_add r 53).symm
      _ ≤ 2 ^ (q + 52) := two_zpow_le_iff.2 (by omega)
      _ = 2 ^ 52 * 2 ^ q := two_zpow_add q 52
      _ ≤ m * 2 ^ q := mul_le_mul_of_nonneg_right (by exact_mod_cast hfull) (two_zpow_pos q).le
  · exact mul_le_mul_of_nonneg_right (by exact_mod_cast hle) (two_zpow_pos r).le

/-- A number that is neither negative nor above a float is bounded like it. -/
theorem AtMost.of_not_lt (hz : AtMost x z) (hlt : ¬ z < w) (hneg : ¬ w < 0.0)
    (hnumber : w.isNaN = false) : AtMost x w := by
  change w.toModel.unpack.isNaN = false at hnumber
  have hx := hz.nonneg
  rw [lt_iff_compare] at hlt hneg
  rw [unpack_zero] at hneg
  cases hw : w.toModel.unpack with
  | notANumber =>
    rw [hw] at hnumber
    cases hnumber
  | zero s => exact .zero hw hx
  | infinity s =>
    rw [hw] at hlt hneg
    cases s with
    | negative => exact absurd rfl hneg
    | positive =>
      refine absurd ?_ hlt
      cases hz with
      | zero hz => rw [hz]; rfl
      | parts hparts =>
        obtain ⟨hm, hz⟩ := hparts
        rw [hz]
        rfl
  | finite s n r hn =>
    have hparts : Parts w s n r := ⟨hn, hw⟩
    rw [hw] at hlt hneg
    cases s with
    | negative => exact absurd rfl hneg
    | positive =>
      cases hz with
      | zero hz =>
        rw [hz] at hlt
        exact absurd rfl hlt
      | @parts m q hz hbound =>
        have hc := hz.canonical
        obtain ⟨hm, hz⟩ := hz
        rw [hz] at hlt
        have hlex : ¬ (q < r ∨ q = r ∧ m < n) := fun h =>
          hlt (congrArg some (compare_then_eq_lt_iff.2 h))
        exact .parts hparts (le_trans (hc.le_of_lex hparts.canonical (by omega)) hbound)

/-- A negative float is a number, and below every bounded one. -/
theorem AtMost.not_lt_negative (hz : AtMost x z) (hneg : w < 0.0) :
    ¬ z < w ∧ w.isNaN = false := by
  change _ ∧ w.toModel.unpack.isNaN = false
  rw [lt_iff_compare] at hneg ⊢
  rw [unpack_zero] at hneg
  cases hw : w.toModel.unpack with
  | notANumber => rw [hw] at hneg; cases hneg
  | zero s => rw [hw] at hneg; cases hneg
  | infinity s =>
    rw [hw] at hneg
    cases s with
    | positive => cases hneg
    | negative =>
      refine ⟨?_, rfl⟩
      cases hz with
      | zero hz => rw [hz]; exact nofun
      | parts hz =>
        obtain ⟨hm, hz⟩ := hz
        rw [hz]
        exact nofun
  | finite s n r hn =>
    rw [hw] at hneg
    cases s with
    | positive => cases hneg
    | negative =>
      refine ⟨?_, rfl⟩
      cases hz with
      | zero hz => rw [hz]; exact nofun
      | parts hz =>
        obtain ⟨hm, hz⟩ := hz
        rw [hz]
        exact nofun

theorem le_iff_compare (z w : Float) : z ≤ w ↔ z.toModel.unpack.le w.toModel.unpack = true := by
  change decide (z.toModel ≤ w.toModel) = true ↔ _
  rw [decide_eq_true_iff]
  exact Iff.rfl

/-- A float between two positive ones. -/
theorem AtMost.of_between {low high : Float} (hlow : Parts low .positive m q)
    (hhigh : Parts high .positive n r) (hle : low ≤ w) (hlt : w < high) : AtMost (n * 2 ^ r) w := by
  have hc := hhigh.canonical
  obtain ⟨hm, hlow⟩ := hlow
  obtain ⟨hn, hhigh⟩ := hhigh
  rw [le_iff_compare, hlow] at hle
  rw [lt_iff_compare, hhigh] at hlt
  cases hw : w.toModel.unpack with
  | notANumber => rw [hw] at hle; cases hle
  | zero s => rw [hw] at hle; cases hle
  | infinity s =>
    rw [hw] at hle hlt
    cases s with
    | negative => cases hle
    | positive => cases hlt
  | finite s k t hk =>
    have hparts : Parts w s k t := ⟨hk, hw⟩
    rw [hw] at hle hlt
    cases s with
    | negative => cases hle
    | positive =>
      have hlex := compare_then_eq_lt_iff.1 (Option.some.inj hlt)
      exact .parts hparts (hc.le_of_lex hparts.canonical (by omega))

/-- What a float is that is not negative, before it is packed. -/
inductive Unsigned : UnpackedFloat → Prop where
  | notANumber : Unsigned .notANumber
  | infinity : Unsigned (.infinity .positive)
  | zero (s : Sign) : Unsigned (.zero s)
  | finite {m : Nat} {q : Int} {hm : 0 < m} : Normal m q → Unsigned (.finite .positive m q hm)

theorem Unsigned.not_lt_zero {u : UnpackedFloat} (h : Unsigned u) :
    ¬ Float.ofModel (.pack u) < 0.0 := by
  rw [lt_iff_compare, unpack_zero]
  change ¬ (UnpackedFloat.unpack .binary64 (UnpackedFloat.pack .binary64 u)).compare _ = some .lt
  cases h with
  | notANumber => decide
  | infinity => decide
  | zero s =>
    rw [unpack_pack_zero]
    exact nofun
  | @finite m q hm hnormal =>
    rcases lt_or_ge q 972 with hlt | hge
    · rw [unpack_pack ⟨hm, hnormal.lt, hnormal.least, by omega, hnormal.full⟩]
      exact nofun
    · rw [pack_finite, if_pos (by omega), unpack_packedInfinity]
      exact nofun

/-- A product of floats that are not negative is not, whether it is a number or not. -/
theorem AtMost.not_mul_lt_zero (hz : AtMost x z) (hw : ¬ w < 0.0) : ¬ z * w < 0.0 := by
  rw [lt_iff_compare, unpack_zero] at hw
  change ¬ Float.ofModel (.pack (UnpackedFloat.mul .binary64 z.toModel.unpack w.toModel.unpack)) < 0.0
  refine Unsigned.not_lt_zero ?_
  cases hz with
  | zero hz =>
    rw [hz]
    cases hw' : w.toModel.unpack with
    | notANumber => exact .notANumber
    | infinity => exact .notANumber
    | zero => exact .zero _
    | finite => exact .zero _
  | @parts m q hz =>
    have hc := hz.canonical
    obtain ⟨hm, hz⟩ := hz
    rw [hz]
    cases hw' : w.toModel.unpack with
    | notANumber => exact .notANumber
    | zero => exact .zero _
    | infinity s =>
      rw [hw'] at hw
      cases s with
      | negative => exact absurd rfl hw
      | positive => exact .infinity
    | finite s n r hn =>
      have hparts : Parts w s n r := ⟨hn, hw'⟩
      rw [hw'] at hw
      cases s with
      | negative => exact absurd rfl hw
      | positive =>
        change Unsigned (roundWithAccuracy .binary64 .positive (m * n) (q + r) .exact)
        rcases roundWithAccuracy_cases (locates_mul m n q r) (hc.mul_full hparts.canonical) .positive with
          heq | ⟨k, t, hk, hround, heq⟩ <;> rw [heq]
        · exact .zero _
        · exact .finite hround.normal

end Signs

end ClusterJobs.Decimal
