import ClusterJobs.Decimal.Exact
import ClusterJobs.Proofs.Decimal.Rounding
import ClusterJobs.Proofs.Quantity

/-!
# The parts of a float

A float that is finite and not zero has a sign, a mantissa and an exponent. They say which float it
is, any that fit are those of some float, and its exact value is read off them.
-/

namespace ClusterJobs.Decimal

open Float.Model Float.Model.UnpackedFloat

/-! ## Packing -/

section Packing

variable {s : Sign} {m : Nat} {q : Int} {hm : 0 < m}

theorem toNat_toBitVec (s : Sign) : s.toBitVec.toNat = (isNegative s).toNat := by
  cases s <;> rfl

theorem isNegative_toNat_ofBitVec (b : BitVec 1) : (isNegative (.ofBitVec b)).toNat = b.toNat := by
  revert b
  decide

theorem toNat_packComponents (s : Sign) (x : BitVec 11) (y : BitVec 52) :
    (packComponents .binary64 s x y).toNat =
      ((isNegative s).toNat * 2 ^ 11 + x.toNat) * 2 ^ 52 + y.toNat := by
  change ((s.toBitVec ++ x) ++ y).toNat = _
  rw [BitVec.toNat_append, ← Nat.shiftLeft_add_eq_or_of_lt y.isLt, BitVec.toNat_append,
    ← Nat.shiftLeft_add_eq_or_of_lt x.isLt, toNat_toBitVec, Nat.shiftLeft_eq, Nat.shiftLeft_eq]

/-- The sign, the exponent and the mantissa are all there is. -/
theorem packComponents_unpack (b : BitVec 64) :
    packComponents .binary64 (.ofBitVec (@unpackSign .binary64 b)) (@unpackExponent .binary64 b)
      (@unpackMantissa .binary64 b) = b := by
  apply BitVec.eq_of_toNat_eq
  rw [toNat_packComponents, isNegative_toNat_ofBitVec, toNat_unpackSign, toNat_unpackExponent,
    toNat_unpackMantissa]
  have hb := b.isLt
  norm_num
  omega

theorem unpackSign_packComponents (s : Sign) (x : BitVec 11) (y : BitVec 52) :
    @unpackSign .binary64 (packComponents .binary64 s x y) = s.toBitVec := by
  apply BitVec.eq_of_toNat_eq
  have hx := x.isLt
  have hy := y.isLt
  rw [toNat_unpackSign, toNat_packComponents, toNat_toBitVec]
  norm_num
  omega

theorem ofBitVec_toBitVec (s : Sign) : Sign.ofBitVec s.toBitVec = s := by
  cases s <;> rfl

/-- The parts of a float are equal if the numbers are; that the mantissa is positive follows. -/
theorem finite_congr {s s' : Sign} {m m' : Nat} {q q' : Int} (hs : s = s') (hm : m = m')
    (hq : q = q') (hpos : 0 < m) :
    UnpackedFloat.finite s m q hpos = .finite s' m' q' (hm ▸ hpos) := by
  subst hs hm hq
  rfl

theorem unpack_of_exponent (s : Sign) {x : BitVec 11} (y : BitVec 52) (hzero : x ≠ 0#11)
    (hones : x ≠ -1#11) :
    UnpackedFloat.unpack .binary64 (packComponents .binary64 s x y) =
      .finite s (Nat.pow 2 52 + y.toNat) (x.toNat - 1075) (Nat.add_pos_left (by decide) _) := by
  have hx := @unpackExponent_packComponents .binary64 s x y
  unfold UnpackedFloat.unpack
  rw [if_neg (by rwa [hx]), if_neg (by rwa [hx])]
  refine finite_congr ?_ ?_ ?_ _
  · rw [unpackSign_packComponents, ofBitVec_toBitVec]
  · rw [unpackMantissa_packComponents]
    exact toNat_implicit_append y
  · rw [hx]
    rfl

theorem unpack_of_subnormal (s : Sign) {y : BitVec 52} (hy : y ≠ 0#52) (hpos : 0 < y.toNat) :
    UnpackedFloat.unpack .binary64 (packComponents .binary64 s 0#11 y) =
      .finite s y.toNat (-1074) hpos := by
  have hx := @unpackExponent_packComponents .binary64 s 0#11 y
  have hm := @unpackMantissa_packComponents .binary64 s 0#11 y
  unfold UnpackedFloat.unpack
  rw [if_neg (by rw [hx]; decide), if_pos hx, dif_neg (by rwa [hm])]
  refine finite_congr ?_ ?_ ?_ _
  · rw [unpackSign_packComponents, ofBitVec_toBitVec]
  · rw [hm]
  · rw [hx]
    rfl

/-- A mantissa of 53 digits is stored without the first one. -/
theorem unpack_pack_normal (hlow : 2 ^ 52 ≤ m) (hhigh : m < 2 ^ 53) (hleast : -1074 ≤ q)
    (hmost : q ≤ 971) :
    UnpackedFloat.unpack .binary64 (UnpackedFloat.pack .binary64 (.finite s m q hm)) =
      .finite s m q hm := by
  have hlog : m.log2 + 1 = 53 := by
    have hle := (Nat.le_log2 hm.ne').2 hlow
    have hlt := log2_lt_of_lt (by omega) hhigh
    omega
  have hexponent : (BitVec.ofNat 11 (q + 1023 + 52).toNat).toNat = (q + 1023 + 52).toNat :=
    Nat.mod_eq_of_lt (by omega)
  have hmantissa : (BitVec.ofNat 52 m).toNat = m - 2 ^ 52 := by
    rw [BitVec.toNat_ofNat]
    omega
  have hfits : ¬ 2048 ≤ (q + 1023 + 52).toNat + 1 := by omega
  rw [pack_finite, if_neg hfits, if_pos hlog, unpack_of_exponent]
  · congr 1
    · rw [hmantissa, Nat.pow_eq]
      omega
    · rw [hexponent]
      omega
  · intro hzero
    have h := congrArg BitVec.toNat hzero
    rw [hexponent] at h
    simp at h
    omega
  · intro hones
    have h := congrArg BitVec.toNat hones
    rw [hexponent] at h
    simp at h
    omega

/-- A smaller mantissa is stored as it is. -/
theorem unpack_pack_subnormal (hlt : m < 2 ^ 52) :
    UnpackedFloat.unpack .binary64 (UnpackedFloat.pack .binary64 (.finite s m (-1074) hm)) =
      .finite s m (-1074) hm := by
  have hlog : ¬ m.log2 + 1 = 53 := by
    have hlt := log2_lt_of_lt (by omega) hlt
    omega
  have hmantissa : (BitVec.ofNat 52 m).toNat = m := by
    rw [BitVec.toNat_ofNat, Nat.mod_eq_of_lt hlt]
  have hne : BitVec.ofNat 52 m ≠ 0#52 := by
    intro hzero
    have h := congrArg BitVec.toNat hzero
    rw [hmantissa] at h
    exact hm.ne' h
  rw [pack_finite, if_neg (by decide), if_neg hlog,
    unpack_of_subnormal s hne (by rwa [hmantissa])]
  congr 1

/-- A mantissa and an exponent that fit a float are found in it again. -/
theorem unpack_pack (hc : Canonical m q) :
    UnpackedFloat.unpack .binary64 (UnpackedFloat.pack .binary64 (.finite s m q hm)) =
      .finite s m q hm := by
  rcases Nat.lt_or_ge m (2 ^ 52) with hlt | hge
  · obtain rfl := hc.full.resolve_left (by omega)
    exact unpack_pack_subnormal hlt
  · exact unpack_pack_normal hge hc.lt hc.least hc.most

theorem unpack_pack_zero (s : Sign) :
    UnpackedFloat.unpack .binary64 (UnpackedFloat.pack .binary64 (.zero s)) = .zero s := by
  cases s <;> rfl

theorem unpack_packedInfinity : UnpackedFloat.unpack .binary64 (packedInfinity .binary64 .positive) =
    .infinity .positive := by
  rfl

/-- The parts that the bits of a finite float say. -/
structure HasParts (b : BitVec 64) (s : Sign) (m : Nat) (q : Int) : Prop where
  sign : (@unpackSign .binary64 b).toNat = (isNegative s).toNat
  finite : (@unpackExponent .binary64 b).toNat ≠ 2047
  normal : (@unpackExponent .binary64 b).toNat ≠ 0 →
    m = 2 ^ 52 + (@unpackMantissa .binary64 b).toNat ∧
      q = ((@unpackExponent .binary64 b).toNat : Int) - 1075
  subnormal : (@unpackExponent .binary64 b).toNat = 0 →
    m = (@unpackMantissa .binary64 b).toNat ∧ q = -1074

theorem hasParts_of_ofUnpacked {b : BitVec 64}
    (h : Binary.ofUnpacked (UnpackedFloat.unpack .binary64 b) = .finite (isNegative s) m q) :
    HasParts b s m q := by
  have hparts := Binary.ofUnpacked_unpack b
  rw [h, Binary.ofParts] at hparts
  split at hparts
  · split at hparts <;> cases hparts
  · next hfinite =>
    have hne : (@unpackExponent .binary64 b).toNat ≠ 2047 := by simpa using hfinite
    split at hparts
    · next hzero =>
      obtain ⟨hneg, rfl, rfl⟩ := Binary.finite.inj hparts
      have hexponent : (@unpackExponent .binary64 b).toNat = 0 := by simpa using hzero
      refine ⟨?_, hne, fun hnormal => absurd hexponent hnormal, fun _ => ⟨rfl, rfl⟩⟩
      rw [hneg, ← isNegative_ofBitVec, isNegative_toNat_ofBitVec]
    · next hzero =>
      obtain ⟨hneg, rfl, rfl⟩ := Binary.finite.inj hparts
      have hexponent : (@unpackExponent .binary64 b).toNat ≠ 0 := by simpa using hzero
      refine ⟨?_, hne, fun _ => ⟨rfl, rfl⟩, fun hsub => absurd hsub hexponent⟩
      rw [hneg, ← isNegative_ofBitVec, isNegative_toNat_ofBitVec]

theorem hasParts_of_unpack {b : BitVec 64}
    (h : UnpackedFloat.unpack .binary64 b = .finite s m q hm) : HasParts b s m q :=
  hasParts_of_ofUnpacked (by rw [h, Binary.ofUnpacked_finite])

theorem HasParts.canonical {b : BitVec 64} (h : HasParts b s m q) (hm : 0 < m) :
    Canonical m q := by
  obtain ⟨-, hfinite, hnormal, hsubnormal⟩ := h
  have hexponent : (@unpackExponent .binary64 b).toNat < 2048 := (@unpackExponent .binary64 b).isLt
  have hmantissa : (@unpackMantissa .binary64 b).toNat < 2 ^ 52 :=
    (@unpackMantissa .binary64 b).isLt
  by_cases hzero : (@unpackExponent .binary64 b).toNat = 0
  · obtain ⟨rfl, rfl⟩ := hsubnormal hzero
    exact ⟨hm, by omega, by omega, by omega, .inr rfl⟩
  · obtain ⟨rfl, rfl⟩ := hnormal hzero
    exact ⟨hm, by omega, by omega, by omega, .inl (by omega)⟩

/-- The parts tell floats apart. -/
theorem HasParts.unique {b c : BitVec 64} (hb : HasParts b s m q) (hc : HasParts c s m q) :
    b = c := by
  have hsign : @unpackSign .binary64 b = @unpackSign .binary64 c :=
    BitVec.eq_of_toNat_eq (hb.sign.trans hc.sign.symm)
  have hbm : (@unpackMantissa .binary64 b).toNat < 2 ^ 52 := (@unpackMantissa .binary64 b).isLt
  have hcm : (@unpackMantissa .binary64 c).toNat < 2 ^ 52 := (@unpackMantissa .binary64 c).isLt
  obtain ⟨-, -, hbn, hbs⟩ := hb
  obtain ⟨-, -, hcn, hcs⟩ := hc
  have hexponent : (@unpackExponent .binary64 b).toNat = (@unpackExponent .binary64 c).toNat := by
    omega
  have hmantissa : (@unpackMantissa .binary64 b).toNat = (@unpackMantissa .binary64 c).toNat := by
    omega
  rw [← packComponents_unpack b, ← packComponents_unpack c, hsign,
    BitVec.eq_of_toNat_eq hexponent, BitVec.eq_of_toNat_eq hmantissa]

end Packing

/-! ## The parts of a float -/

section Parts

variable {x y : Float} {s : Sign} {m n : Nat} {q r : Int}

/-- The float is `m * 2 ^ q` with this sign, and not zero. -/
def Parts (x : Float) (s : Sign) (m : Nat) (q : Int) : Prop :=
  ∃ hm, x.toModel.unpack = .finite s m q hm

theorem Parts.canonical (h : Parts x s m q) : Canonical m q := by
  obtain ⟨hm, hx⟩ := h
  exact (hasParts_of_unpack hx).canonical hm

theorem Parts.unique (hx : Parts x s m q) (hy : Parts y s m q) : x = y := by
  obtain ⟨⟨⟨xbits⟩, xvalid⟩⟩ := x
  obtain ⟨⟨⟨ybits⟩, yvalid⟩⟩ := y
  obtain ⟨hm, hx⟩ := hx
  obtain ⟨hm', hy⟩ := hy
  obtain rfl : xbits = ybits := (hasParts_of_unpack hx).unique (hasParts_of_unpack hy)
  rfl

/-- The sign tells the two zeros apart. -/
theorem zero_unique (hx : x.toModel.unpack = .zero s) (hy : y.toModel.unpack = .zero s) :
    x = y := by
  obtain ⟨⟨⟨xbits⟩, xvalid⟩⟩ := x
  obtain ⟨⟨⟨ybits⟩, yvalid⟩⟩ := y
  have hzero {b : BitVec 64} (hb : UnpackedFloat.unpack .binary64 b = .zero s) :
      HasParts b s 0 (-1074) :=
    hasParts_of_ofUnpacked (by rw [hb, Binary.ofUnpacked_zero])
  obtain rfl : xbits = ybits := (hzero hx).unique (hzero hy)
  rfl

theorem parts_pack {hm : 0 < m} (hc : Canonical m q) :
    Parts (.ofModel (.pack (.finite s m q hm))) s m q :=
  ⟨hm, unpack_pack hc⟩

theorem Parts.neg (h : Parts x s m q) : Parts (-x) (-s) m q := by
  obtain ⟨hm, hx⟩ := id h
  have hneg : -x = .ofModel (.pack (.finite (-s) m q hm)) := by
    change Float.ofModel (.pack x.toModel.unpack.neg) = _
    rw [hx]
    rfl
  rw [hneg]
  exact parts_pack h.canonical

theorem Parts.ofFloat_eq (h : Parts x s m q) :
    Binary.ofFloat x = .finite (isNegative s) m q := by
  obtain ⟨hm, hx⟩ := h
  rw [Binary.ofFloat_eq, hx, Binary.ofUnpacked_finite]

theorem exists_parts_of_isFinite (h : x.isFinite = true) :
    (∃ s, x.toModel.unpack = .zero s) ∨ ∃ s m q, Parts x s m q := by
  change x.toModel.unpack.isFinite = true at h
  cases hx : x.toModel.unpack with
  | zero s => exact .inl ⟨s, rfl⟩
  | finite s m q hm => exact .inr ⟨s, m, q, hm, hx⟩
  | notANumber =>
    rw [hx] at h
    cases h
  | infinity s =>
    rw [hx] at h
    cases h

theorem unpack_zero : (0.0 : Float).toModel.unpack = .zero .positive := by
  rfl

/-- A float that is not below zero is positive or one of the zeros. -/
theorem sign_of_not_lt_zero {s : Sign} (h : Parts x s m q) (hneg : ¬ x < 0.0) : s = .positive := by
  obtain ⟨hm, hx⟩ := h
  rw [lt_iff_compare, hx, unpack_zero] at hneg
  cases s with
  | positive => rfl
  | negative => exact absurd rfl hneg

/-! ## Exact values -/

theorem dyadic_eq (m : Nat) (q : Int) : dyadic m q = (m : Rat) * 2 ^ q := by
  cases q with
  | ofNat k =>
    rw [dyadic, Int.ofNat_eq_natCast, zpow_natCast, Nat.pow_eq]
    push_cast
    rfl
  | negSucc k =>
    rw [dyadic, zpow_negSucc, div_eq_mul_inv, Nat.pow_eq]
    push_cast
    rfl

theorem Parts.exactValue?_eq (h : Parts x s m q) :
    exactValue? x = some (if isNegative s then -((m : Rat) * 2 ^ q) else m * 2 ^ q) := by
  rw [Decimal.exactValue?, h.ofFloat_eq]
  simp only [dyadic_eq]

theorem Parts.exactValue? (h : Parts x .positive m q) :
    exactValue? x = some ((m : Rat) * 2 ^ q) :=
  h.exactValue?_eq

theorem exactValue?_zero (h : x.toModel.unpack = .zero s) : exactValue? x = some 0 := by
  rw [Decimal.exactValue?, Binary.ofFloat_eq, h, Binary.ofUnpacked_zero]
  simp only [dyadic_eq, Nat.cast_zero, zero_mul, neg_zero, ite_self]

theorem isFinite_of_exactValue? {v : Rat} (h : exactValue? x = some v) : x.isFinite = true := by
  rw [Decimal.exactValue?, Binary.ofFloat_eq] at h
  change x.toModel.unpack.isFinite = true
  cases hx : x.toModel.unpack with
  | zero s => rfl
  | finite s m q hm => rfl
  | notANumber =>
    rw [hx] at h
    cases h
  | infinity s =>
    rw [hx] at h
    cases h

theorem exists_exactValue? (h : x.isFinite = true) : ∃ v, Decimal.exactValue? x = some v := by
  rcases exists_parts_of_isFinite h with ⟨s, hzero⟩ | ⟨s, m, q, hparts⟩
  · exact ⟨0, exactValue?_zero hzero⟩
  · exact ⟨_, hparts.exactValue?_eq⟩

theorem Parts.value_pos (h : Parts x s m q) : (0 : Rat) < m * 2 ^ q :=
  mul_pos (by exact_mod_cast h.canonical.pos) (two_zpow_pos q)

/-- A float that stands for zero is one of the two zeros. -/
theorem exists_zero_of_exactValue? (h : exactValue? x = some 0) :
    ∃ s, x.toModel.unpack = .zero s := by
  rcases exists_parts_of_isFinite (isFinite_of_exactValue? h) with hzero | ⟨s, m, q, hparts⟩
  · exact hzero
  · have hpos := hparts.value_pos
    rw [hparts.exactValue?_eq] at h
    cases s with
    | positive => exact absurd (Option.some.inj h) hpos.ne'
    | negative => exact absurd (Option.some.inj h) (neg_neg_of_pos hpos).ne

theorem exists_parts_of_pos {v : Rat} (h : exactValue? x = some v) (hv : 0 < v) :
    ∃ m q, Parts x .positive m q ∧ v = m * 2 ^ q := by
  rcases exists_parts_of_isFinite (isFinite_of_exactValue? h) with ⟨s, hzero⟩ | ⟨s, m, q, hparts⟩
  · rw [exactValue?_zero hzero] at h
    cases h
    exact absurd hv (lt_irrefl _)
  · have hpos := hparts.value_pos
    rw [hparts.exactValue?_eq] at h
    cases s with
    | positive => exact ⟨m, q, hparts, (Option.some.inj h).symm⟩
    | negative =>
      obtain rfl : -((m : Rat) * 2 ^ q) = v := Option.some.inj h
      linarith

end Parts

end ClusterJobs.Decimal
