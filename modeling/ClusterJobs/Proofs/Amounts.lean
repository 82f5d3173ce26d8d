import ClusterJobs.Proofs.Decimal.Plain

/-!
# What quantities denote

An amount is a rational number, and the text of a quantity denotes the number that it is read as. A
quantity is exact as long as a signed word of 64 bits can hold it. Above that all have one text.
-/

namespace ClusterJobs

open Decimal Float.Model Float.Model.UnpackedFloat

/-! ## Multiples -/

section Multiples

variable {x : Float} {s : Sign} {m : Nat} {q : Int} {v : Rat}

theorem parts_one : Parts 1.0 .positive (2 ^ 52) (-52) :=
  ⟨by decide, rfl⟩

theorem parts_two : Parts 2.0 .positive (2 ^ 52) (-51) :=
  ⟨by decide, rfl⟩

/-- Zero stays zero. -/
theorem exactValue?_mul_of_zero {y : Float} (hx : x.toModel.unpack = .zero s)
    (hy : Parts y .positive m q) : exactValue? (x * y) = some 0 := by
  obtain ⟨hm, hy⟩ := hy
  have hproduct : (x * y).toModel.unpack = .zero (s * .positive) := by
    change UnpackedFloat.unpack .binary64 (UnpackedFloat.pack .binary64
      (UnpackedFloat.mul .binary64 x.toModel.unpack y.toModel.unpack)) = _
    rw [hx, hy]
    exact unpack_pack_zero _
  exact exactValue?_zero hproduct

theorem parts_mul_one (hx : Parts x .positive m q) : Parts (x * 1.0) .positive m q := by
  have hc := hx.canonical
  refine hx.mul parts_one (.inl (Nat.le_mul_of_pos_left _ hc.pos)) ?_ hc
  have hvalue : (m : Rat) * 2 ^ q * ((2 ^ 52 : Nat) * 2 ^ (-52 : Int)) = m * 2 ^ q := by norm_num
  rw [hvalue]
  exact .of_within hc (within_self m q)

theorem value_two : ((2 ^ 52 : Nat) : Rat) * 2 ^ (-51 : Int) = 2 := by
  norm_num

/-- Twice a float that is not among the largest is a float. -/
theorem exactValue?_mul_two (hx : Parts x .positive m q) (hv : (m : Rat) * 2 ^ q < 2 ^ (1023 : Int)) :
    exactValue? (x * 2.0) = some (2 * ((m : Rat) * 2 ^ q)) := by
  have hc := hx.canonical
  have hfull := Nat.le_mul_of_pos_left (2 ^ 52) hc.pos
  have hdouble {k : Nat} {t : Int} (hc' : Canonical k t) (hvalue : 2 * ((m : Rat) * 2 ^ q) = k * 2 ^ t) :
      exactValue? (x * 2.0) = some (2 * ((m : Rat) * 2 ^ q)) := by
    rw [hvalue]
    refine (hx.mul parts_two (.inl hfull) ?_ hc').exactValue?
    rw [value_two, mul_comm, hvalue]
    exact .of_within hc' (within_self k t)
  by_cases hnormal : 2 ^ 52 ≤ m
  · refine hdouble (k := m) (t := q + 1) ⟨hc.pos, hc.lt, by linarith [hc.least], ?_, .inl hnormal⟩ ?_
    · have hlt : (2 : Rat) ^ ((52 : Int) + q) < 2 ^ (1023 : Int) := by
        refine lt_of_le_of_lt ?_ hv
        rw [zpow_add₀ (by norm_num)]
        exact mul_le_mul_of_nonneg_right (by exact_mod_cast hnormal) (two_zpow_pos q).le
      have h := two_zpow_lt_iff.1 hlt
      omega
    · rw [zpow_add_one₀ (by norm_num)]
      ring
  · obtain rfl := hc.full.resolve_left hnormal
    refine hdouble (k := 2 * m) (t := -1074)
      ⟨by linarith [hc.pos], by omega, by decide, by decide, .inr rfl⟩ ?_
    rw [Nat.cast_mul, Nat.cast_two, mul_assoc]

/-- Twice one of the largest floats is infinite. -/
theorem unpack_mul_two_of_large (hx : Parts x .positive m q)
    (hv : (2 : Rat) ^ (1023 : Int) ≤ m * 2 ^ q) : (x * 2.0).toModel.unpack = .infinity .positive := by
  have hc := hx.canonical
  obtain rfl : q = 971 := by
    have hlt : (2 : Rat) ^ (1023 : Int) < 2 ^ ((53 : Int) + q) := by
      refine lt_of_le_of_lt hv ?_
      rw [zpow_add₀ (by norm_num)]
      exact mul_lt_mul_of_pos_right (by exact_mod_cast hc.lt) (two_zpow_pos q)
    have h := two_zpow_lt_iff.1 hlt
    have hmost := hc.most
    omega
  have hround : RoundsTo (m * 2 ^ (971 : Int) * ((2 ^ 52 : Nat) * 2 ^ (-51 : Int))) m 972 := by
    have hvalue : (m : Rat) * 2 ^ (971 : Int) * ((2 ^ 52 : Nat) * 2 ^ (-51 : Int)) =
        m * 2 ^ (972 : Int) := by
      rw [value_two, mul_assoc, ← zpow_add_one₀ (by norm_num)]
      rfl
    rw [hvalue]
    have hfull := hc.full.resolve_right (by decide)
    refine .kept (.of_bounds (by decide) (by exact_mod_cast hc.lt)
      (.inr (by exact_mod_cast hfull))) ?_ hc.lt
    rw [mul_div_cancel_right₀ _ (two_zpow_pos _).ne']
    exact nearest_self m
  obtain ⟨hm, hx⟩ := hx
  obtain ⟨htwo, hy⟩ := parts_two
  change UnpackedFloat.unpack .binary64 (UnpackedFloat.pack .binary64
    (UnpackedFloat.mul .binary64 x.toModel.unpack (2.0 : Float).toModel.unpack)) = _
  rw [hx, hy, mul_finite (.inl (Nat.le_mul_of_pos_left _ hm)) hround hm, pack_finite,
    if_pos (by decide)]
  exact unpack_packedInfinity

end Multiples

/-! ## Amounts -/

section Amounts

variable {x : Float} {v : Rat} {m : Nat} {q : Int}

/-- An amount is a number that is not negative. -/
theorem exists_value_of_isFinite (hfinite : x.isFinite = true) (hneg : ¬ x < 0.0) :
    ∃ v, exactValue? x = some v ∧ 0 ≤ v := by
  rcases exists_parts_of_isFinite hfinite with ⟨s, hzero⟩ | ⟨s, m, q, hparts⟩
  · exact ⟨0, exactValue?_zero hzero, le_rfl⟩
  · obtain rfl := sign_of_not_lt_zero hparts hneg
    exact ⟨_, hparts.exactValue?, mul_nonneg (Nat.cast_nonneg m) (two_zpow_pos q).le⟩

/-- A float is above zero if its number is. -/
theorem pos_iff_of_exactValue? (h : exactValue? x = some v) : 0.0 < x ↔ 0 < v := by
  rw [lt_iff_compare, unpack_zero]
  rcases exists_parts_of_isFinite (isFinite_of_exactValue? h) with ⟨s, hzero⟩ | ⟨s, m, q, hparts⟩
  · obtain rfl : 0 = v := Option.some.inj ((exactValue?_zero hzero).symm.trans h)
    rw [hzero]
    exact iff_of_false nofun (lt_irrefl 0)
  · have hpos := hparts.value_pos
    obtain rfl := Option.some.inj (hparts.exactValue?_eq.symm.trans h)
    obtain ⟨hm, hx⟩ := hparts
    rw [hx]
    cases s with
    | positive => exact iff_of_true rfl hpos
    | negative => exact iff_of_false nofun (neg_neg_of_pos hpos).not_gt

theorem exactValue?_mul_one (h : exactValue? x = some v) (hv : 0 ≤ v) :
    exactValue? (x * 1.0) = some v := by
  rcases hv.eq_or_lt with rfl | hpos
  · obtain ⟨s, hzero⟩ := exists_zero_of_exactValue? h
    exact exactValue?_mul_of_zero hzero parts_one
  · obtain ⟨m, q, hparts, rfl⟩ := exists_parts_of_pos h hpos
    exact (parts_mul_one hparts).exactValue?

end Amounts

/-! ## Texts -/

section Texts

variable {x : Float} {v : Rat} {m n : Nat} {q : Int} {text : String}

/-- The text of all whole numbers that are too large for a signed word of 64 bits. -/
def clampedText : String := "9223372036854775807"

/-- The text is a plain decimal that is read as the number `v`, and not the one that large numbers
have in common. -/
structure Denotes (text : String) (v : Rat) : Prop where
  plain : ∃ n places, PlainDecimal text.toList n places
  unclamped : text ≠ clampedText
  value : (readFloat? text.toList).bind exactValue? = some v

theorem value_clampedText :
    (readFloat? clampedText.toList).bind exactValue? = some (2 ^ 63) := by
  decide +kernel

/-- A unit hides nothing of the number before it. -/
theorem append_unit_inj {a b unit : String} (h : a ++ unit = b ++ unit) : a = b := by
  have hlist := congrArg String.toList h
  rw [String.toList_append, String.toList_append] at hlist
  exact String.toList_injective (List.append_cancel_right hlist)

theorem Denotes.of_lt (hplain : ∃ n places, PlainDecimal text.toList n places)
    (hvalue : (readFloat? text.toList).bind exactValue? = some v) (hlt : v < 2 ^ 63) :
    Denotes text v := by
  refine ⟨hplain, ?_, hvalue⟩
  rintro rfl
  rw [value_clampedText] at hvalue
  exact hlt.ne (Option.some.inj hvalue).symm

theorem not_denotes_clampedText : ¬ Denotes clampedText v :=
  fun h => h.unclamped rfl

/-- A word is no number. -/
theorem not_denotes_inf : ¬ Denotes "inf" v := by
  intro h
  obtain ⟨n, places, hplain⟩ := h.plain
  obtain ⟨c, rest, heq, hc⟩ := hplain.exists_cons
  cases heq
  cases hc

/-- Digits that are nearest to a float denote it. -/
theorem denotes_positionalText {d : Digits} (htext : text.toList = positionalText false d)
    (hx : Parts x .positive m q) (hd : Within m q d.value) (hlt : (m : Rat) * 2 ^ q < 2 ^ 63) :
    Denotes text (m * 2 ^ q) := by
  obtain ⟨n, places, hplain, -⟩ := exists_plainDecimal_positionalText d
  rw [← htext] at hplain
  refine .of_lt ⟨n, places, hplain⟩ ?_ hlt
  rw [htext, readFloat?_positionalText hx hd]
  exact hx.exactValue?

theorem toList_toString (n : Nat) : (toString (n : Int)).toList = positionalText false ⟨n, 0⟩ := by
  change (toString n).toList = Nat.toDigits 10 n ++ zeros 0 ++ []
  rw [Nat.toString_eq_repr, Nat.toList_repr, zeros, List.replicate_zero, List.append_nil,
    List.append_nil]

theorem toList_clampedText : clampedText.toList = positionalText false ⟨9223372036854775807, 0⟩ :=
  toList_toString 9223372036854775807

theorem value_digits (n : Nat) : (⟨n, 0⟩ : Digits).value = n := by
  rw [Digits.value, zpow_zero, mul_one]

/-- A float is a whole number, or it has places behind the point and is not large. -/
theorem wholeValue?_cases (hx : Parts x .positive m q) :
    (∃ n : Nat, wholeValue? x = some (n : Int) ∧ (m : Rat) * 2 ^ q = n) ∨
      wholeValue? x = none ∧ (m : Rat) * 2 ^ q < 2 ^ 63 := by
  unfold wholeValue?
  rw [hx.ofFloat_eq, ← dyadic_eq]
  cases q with
  | ofNat k => exact .inl ⟨m * Nat.pow 2 k, rfl, rfl⟩
  | negSucc k =>
    have hpower : (1 : Rat) ≤ (Nat.pow 2 (k + 1) : Nat) := by
      exact_mod_cast Nat.two_pow_pos (k + 1)
    rw [dyadic]
    dsimp only
    generalize Nat.pow 2 (k + 1) = unit at hpower ⊢
    by_cases hmod : m % unit = 0
    · refine .inl ⟨m / unit, by simp [hmod, isNegative], ?_⟩
      rw [div_eq_iff (by linarith)]
      exact_mod_cast (Nat.div_mul_cancel (Nat.dvd_of_mod_eq_zero hmod)).symm
    · have hm : (m : Rat) < 2 ^ 53 := by exact_mod_cast hx.canonical.lt
      refine .inr ⟨by simp [hmod], ?_⟩
      rw [div_lt_iff₀ (by linarith)]
      linarith

/-- The text of a quantity is that of a decimal nearest to it, unless it is too large for a word. -/
theorem quantity_cases (hx : Parts x .positive m q) :
    (∃ d, (quantity x).toList = positionalText false d ∧ Within m q d.value ∧
        (m : Rat) * 2 ^ q < 2 ^ 63) ∨
      quantity x = clampedText ∧ (2 : Rat) ^ 63 ≤ m * 2 ^ q := by
  unfold quantity
  rcases wholeValue?_cases hx with ⟨n, hwhole, hvalue⟩ | ⟨hwhole, hlt⟩
  · rw [hwhole]
    dsimp only
    by_cases hn : n < 2 ^ 63
    · have hclamp : clampInt64 n = n := by
        rw [clampInt64, if_neg (by omega), if_neg (by omega)]
      refine .inl ⟨⟨n, 0⟩, by rw [hclamp, toList_toString], ?_, ?_⟩
      · rw [value_digits, ← hvalue]
        exact within_self m q
      · rw [hvalue]
        exact_mod_cast hn
    · have hclamp : clampInt64 n = 9223372036854775807 := by
        rw [clampInt64, if_neg (by omega), if_pos (by omega)]
      refine .inr ⟨by rw [hclamp]; rfl, ?_⟩
      rw [hvalue]
      exact_mod_cast not_lt.1 hn
  · rw [hwhole]
    exact .inl ⟨_, toList_plainText hx, within_shortest hx.canonical, hlt⟩

theorem denotes_quantity_iff_of_parts (hx : Parts x .positive m q) :
    Denotes (quantity x) (m * 2 ^ q) ↔ (m : Rat) * 2 ^ q < 2 ^ 63 := by
  rcases quantity_cases hx with ⟨d, htext, hd, hlt⟩ | ⟨htext, hge⟩
  · exact iff_of_true (denotes_positionalText htext hx hd hlt) hlt
  · rw [htext]
    exact iff_of_false not_denotes_clampedText hge.not_gt

/-- A quantity that is not zero is a plain decimal, exact or not. -/
theorem exists_plainDecimal_quantity (hx : Parts x .positive m q) :
    ∃ n places, PlainDecimal (quantity x).toList n places := by
  obtain ⟨d, htext⟩ : ∃ d, (quantity x).toList = positionalText false d := by
    rcases quantity_cases hx with ⟨d, htext, -⟩ | ⟨htext, -⟩
    · exact ⟨d, htext⟩
    · exact ⟨_, htext ▸ toList_clampedText⟩
  obtain ⟨n, places, hplain, -⟩ := exists_plainDecimal_positionalText d
  exact ⟨n, places, htext ▸ hplain⟩

/-- A quantity has no unit. -/
theorem quantity_ne_append_gi (hx : Parts x .positive m q) (number : String) :
    quantity x ≠ number ++ "Gi" := by
  intro heq
  obtain ⟨n, places, hplain⟩ := exists_plainDecimal_quantity hx
  have hmem : 'i' ∈ (quantity x).toList := by
    rw [heq, String.toList_append]
    exact List.mem_append_right _ (by decide)
  rcases hplain.isDigit_or_point hmem with h | h <;> cases h

theorem quantity_of_zero {s : Sign} (h : x.toModel.unpack = .zero s) : quantity x = "0" := by
  rw [quantity, wholeValue?_zero (by rw [Binary.ofFloat_eq, h]; rfl)]
  rfl

theorem denotes_zero : Denotes "0" 0 :=
  .of_lt ⟨_, _, .whole (by decide) (allDigits_zeros 1)⟩ (by decide +kernel) (by norm_num)

/-- A quantity is exact if a signed word of 64 bits can hold it, and only then. -/
theorem denotes_quantity_iff (h : exactValue? x = some v) (hv : 0 ≤ v) :
    Denotes (quantity x) v ↔ v < 2 ^ 63 := by
  rcases hv.eq_or_lt with rfl | hpos
  · obtain ⟨s, hzero⟩ := exists_zero_of_exactValue? h
    rw [quantity_of_zero hzero]
    exact iff_of_true denotes_zero (by norm_num)
  · obtain ⟨m, q, hparts, rfl⟩ := exists_parts_of_pos h hpos
    exact denotes_quantity_iff_of_parts hparts

theorem quantity_of_infinity (h : x.toModel.unpack = .infinity .positive) : quantity x = "inf" := by
  rw [quantity, wholeValue?, plainText, Layout.render, Binary.ofFloat_eq, h]
  rfl

/-- Once is the amount itself. -/
theorem denotes_once_iff (h : exactValue? x = some v) (hv : 0 ≤ v) :
    Denotes (quantity (x * 1.0)) v ↔ v < 2 ^ 63 :=
  denotes_quantity_iff (exactValue?_mul_one h hv) hv

/-- Twice an amount is exact if a signed word of 64 bits can hold twice as much. -/
theorem denotes_twice_iff (h : exactValue? x = some v) (hv : 0 ≤ v) :
    Denotes (quantity (x * 2.0)) (2 * v) ↔ v < 2 ^ 62 := by
  have hhalf : 2 * v < 2 ^ 63 ↔ v < 2 ^ 62 := by
    constructor <;> intro hlt <;> linarith
  rcases hv.eq_or_lt with rfl | hpos
  · obtain ⟨s, hzero⟩ := exists_zero_of_exactValue? h
    rw [mul_zero] at hhalf ⊢
    rw [denotes_quantity_iff (exactValue?_mul_of_zero hzero parts_two) le_rfl, hhalf]
  · obtain ⟨m, q, hparts, rfl⟩ := exists_parts_of_pos h hpos
    rcases lt_or_ge ((m : Rat) * 2 ^ q) (2 ^ (1023 : Int)) with hsmall | hlarge
    · rw [denotes_quantity_iff (exactValue?_mul_two hparts hsmall) (by linarith), hhalf]
    · rw [quantity_of_infinity (unpack_mul_two_of_large hparts hlarge)]
      refine iff_of_false not_denotes_inf (not_lt.2 ?_)
      exact (two_zpow_le_iff.2 (by decide : (62 : Int) ≤ 1023)).trans hlarge

end Texts

end ClusterJobs
