import ClusterJobs.Queue.Capability

/-!
# Equal amounts

Floats that compare as equal need not be the same float, since zero has two signs. They are still
written as the same quantity, so equal ceilings are the same table of resources.
-/

namespace ClusterJobs.Decimal

open Float.Model Float.Model.UnpackedFloat

/-! ## The parts of a float -/

theorem toNat_unpackMantissa (b : BitVec 64) :
    (@unpackMantissa .binary64 b).toNat = b.toNat % Nat.pow 2 52 := by
  simp [unpackMantissa, Nat.pow_eq]

theorem toNat_unpackExponent (b : BitVec 64) :
    (@unpackExponent .binary64 b).toNat = b.toNat / Nat.pow 2 52 % Nat.pow 2 11 := by
  simp [unpackExponent, Nat.shiftRight_eq_div_pow]

theorem toNat_unpackSign (b : BitVec 64) :
    (@unpackSign .binary64 b).toNat = b.toNat / Nat.pow 2 63 := by
  have h := b.isLt
  delta unpackSign
  simp [Nat.shiftRight_eq_div_pow]
  omega

/-- The bit before the fraction of a normal number. -/
theorem toNat_implicit_append (m : BitVec 52) :
    ((1#1 : BitVec 1) ++ m).toNat = Nat.pow 2 52 + m.toNat := by
  have h := Nat.two_pow_add_eq_or_of_lt m.isLt 1
  rw [BitVec.toNat_append, Nat.shiftLeft_eq]
  exact h.symm

/-- The sign is negative. -/
def isNegative : Sign → Bool
  | .negative => true
  | .positive => false

theorem isNegative_ofBitVec (b : BitVec 1) : isNegative (.ofBitVec b) = (b.toNat == 1) := by
  revert b
  decide

/-- What an unpacked float says. -/
def Binary.ofUnpacked : UnpackedFloat → Binary
  | .notANumber => .notANumber
  | .infinity s => .infinite (isNegative s)
  | .zero s => .finite (isNegative s) 0 (-1074)
  | .finite s m e _ => .finite (isNegative s) m e

theorem Binary.ofUnpacked_infinity (s : Sign) :
    ofUnpacked (.infinity s) = .infinite (isNegative s) := rfl

theorem Binary.ofUnpacked_zero (s : Sign) :
    ofUnpacked (.zero s) = .finite (isNegative s) 0 (-1074) := rfl

theorem Binary.ofUnpacked_finite (s : Sign) (m : Nat) (e : Int) (hm : 0 < m) :
    ofUnpacked (.finite s m e hm) = .finite (isNegative s) m e := rfl

/-- What a sign, eleven exponent bits and fifty-two fraction bits say. -/
def Binary.ofParts (negative : Bool) (biased fraction : Nat) : Binary :=
  if biased == 2047 then
    if fraction == 0 then .infinite negative else .notANumber
  else if biased == 0 then
    .finite negative fraction (-1074)
  else
    .finite negative (Nat.pow 2 52 + fraction) ((biased : Int) - 1075)

theorem Binary.ofUnpacked_unpack (b : BitVec 64) :
    ofUnpacked (UnpackedFloat.unpack .binary64 b) =
      ofParts ((@unpackSign .binary64 b).toNat == 1) (@unpackExponent .binary64 b).toNat
        (@unpackMantissa .binary64 b).toNat := by
  have hones : @unpackExponent .binary64 b = -1#11 ↔
      (@unpackExponent .binary64 b).toNat = 2047 := by
    rw [← BitVec.toNat_inj]; rfl
  have hzeros : @unpackExponent .binary64 b = 0#11 ↔ (@unpackExponent .binary64 b).toNat = 0 := by
    rw [← BitVec.toNat_inj]; rfl
  have hnone : @unpackMantissa .binary64 b = 0#52 ↔ (@unpackMantissa .binary64 b).toNat = 0 := by
    rw [← BitVec.toNat_inj]; rfl
  rw [← isNegative_ofBitVec]
  delta UnpackedFloat.unpack
  dsimp only
  by_cases h1 : @unpackExponent .binary64 b = -1#11
  · rw [if_pos h1]
    by_cases h2 : @unpackMantissa .binary64 b = 0#52
    · rw [if_pos h2, ofUnpacked_infinity]
      simp [ofParts, h1, h2]
    · rw [if_neg h2]
      change Binary.notANumber = _
      simp [ofParts, h1, mt hnone.2 h2]
  · have h3 := mt hones.2 h1
    rw [if_neg h1]
    by_cases h4 : @unpackExponent .binary64 b = 0#11
    · rw [if_pos h4]
      by_cases h2 : @unpackMantissa .binary64 b = 0#52
      · rw [dif_pos h2, ofUnpacked_zero]
        simp [ofParts, h4, h2]
      · rw [dif_neg h2, ofUnpacked_finite]
        simp [ofParts, h4, Format.exponentBias]
    · rw [if_neg h4, ofUnpacked_finite]
      simp [ofParts, h3, mt hzeros.2 h4, Format.exponentBias, toNat_implicit_append]

/-- The bits of a float say what its unpacked form says. -/
theorem Binary.ofFloat_eq (x : Float) : ofFloat x = ofUnpacked x.toModel.unpack := by
  have h := ofUnpacked_unpack x.toModel.toBits.toBitVec
  rw [toNat_unpackMantissa, toNat_unpackExponent, toNat_unpackSign] at h
  exact h.symm

/-! ## Equal floats -/

theorem sign_eq_of_compare {s t : Sign} (h : compare s t = .eq) : s = t := by
  cases s <;> cases t <;> first | rfl | cases h

theorem magnitude_eq_of_compare {m n : Nat} {e f : Int}
    (h : (compare e f).then (compare m n) = .eq) : e = f ∧ m = n := by
  obtain ⟨he, hm⟩ := Ordering.then_eq_eq.1 h
  exact ⟨Std.LawfulEqOrd.eq_of_compare he, Nat.compare_eq_eq.1 hm⟩

/-- Two values that compare as equal are the same, or both are zero. -/
theorem eq_or_zero_of_compare {a b : UnpackedFloat} (h : a.compare b = some .eq) :
    a = b ∨ ∃ s t, a = .zero s ∧ b = .zero t := by
  cases a with
  | notANumber => cases h
  | infinity s =>
    cases b with
    | infinity t =>
      have hs : compare s t = .eq := by cases s <;> exact Option.some.inj h
      rw [sign_eq_of_compare hs]
      exact .inl rfl
    | _ => cases s <;> cases h
  | zero s =>
    cases b with
    | zero t => exact .inr ⟨s, t, rfl, rfl⟩
    | notANumber => cases h
    | infinity t => cases t <;> cases h
    | finite t m e hm => cases t <;> cases h
  | finite s m e hm =>
    cases b with
    | finite t n f hn =>
      cases s <;> cases t
      · have hc := Ordering.swap_eq_eq.1 (Option.some.inj h)
        obtain ⟨rfl, rfl⟩ := magnitude_eq_of_compare hc
        exact .inl rfl
      · cases h
      · cases h
      · obtain ⟨rfl, rfl⟩ := magnitude_eq_of_compare (Option.some.inj h)
        exact .inl rfl
    | notANumber => cases s <;> cases h
    | zero t => cases s <;> cases h
    | infinity t => cases s <;> cases t <;> cases h

theorem compare_self_of_isFinite {a : UnpackedFloat} (h : a.isFinite = true) :
    a.compare a = some .eq := by
  cases a with
  | zero s => rfl
  | finite s m e hm =>
    have heq : (compare e e).then (compare m m) = .eq := by simp [Std.ReflCmp.compare_self]
    cases s with
    | negative => exact congrArg some (Ordering.swap_eq_eq.2 heq)
    | positive => exact congrArg some heq
  | notANumber => cases h
  | infinity s => cases h

/-- A finite float equals itself, as one that is not a number does not. -/
theorem beq_self_of_isFinite {x : Float} (h : x.isFinite = true) : x == x := by
  change (x.toModel.unpack.compare x.toModel.unpack == some .eq) = true
  exact beq_iff_eq.2 (compare_self_of_isFinite h)

theorem unpack_eq_or_zero_of_beq {x y : Float} (h : x == y) :
    x.toModel.unpack = y.toModel.unpack ∨
      ∃ s t, x.toModel.unpack = .zero s ∧ y.toModel.unpack = .zero t :=
  eq_or_zero_of_compare (eq_of_beq h)

theorem lt_iff_compare (z w : Float) :
    z < w ↔ z.toModel.unpack.compare w.toModel.unpack = some .lt := by
  change decide (z.toModel < w.toModel) = true ↔ _
  rw [decide_eq_true_iff]
  exact beq_iff_eq

/-- The same floats are below two equal ones. -/
theorem lt_iff_of_beq {x y : Float} (h : x == y) (z : Float) : z < x ↔ z < y := by
  rw [lt_iff_compare, lt_iff_compare]
  rcases unpack_eq_or_zero_of_beq h with he | ⟨s, t, hs, ht⟩
  · rw [he]
  · rw [hs, ht]
    cases z.toModel.unpack with
    | notANumber => rfl
    | zero u => rfl
    | infinity u => cases u <;> rfl
    | finite u m e hm => cases u <;> rfl

end ClusterJobs.Decimal

namespace ClusterJobs

open Decimal

/-! ## Equal quantities -/

theorem isAmount_iff {x : Float} : isAmount x = true ↔ x.isFinite = true ∧ ¬ x < 0.0 := by
  simp [isAmount]

theorem wholeValue?_zero {x : Float} {negative : Bool} {q : Int}
    (h : Binary.ofFloat x = .finite negative 0 q) : wholeValue? x = some 0 := by
  simp only [wholeValue?, h]
  cases q <;> cases negative <;> simp

theorem quantity_eq_of_beq {x y : Float} (h : x == y) : quantity x = quantity y := by
  rcases unpack_eq_or_zero_of_beq h with he | ⟨s, t, hs, ht⟩
  · have hb : Binary.ofFloat x = Binary.ofFloat y := by
      rw [Binary.ofFloat_eq, Binary.ofFloat_eq, he]
    simp only [quantity, wholeValue?, plainText, Layout.render, hb]
  · have hx : wholeValue? x = some 0 := wholeValue?_zero (by rw [Binary.ofFloat_eq, hs]; rfl)
    have hy : wholeValue? y = some 0 := wholeValue?_zero (by rw [Binary.ofFloat_eq, ht]; rfl)
    simp only [quantity, hx, hy]

theorem map_eq_of_beq {f : Float → String} (hf : ∀ x y : Float, x == y → f x = f y)
    {a b : Option Float} (h : a == b) : a.map f = b.map f := by
  cases a with
  | none =>
    cases b with
    | none => rfl
    | some y => cases h
  | some x =>
    cases b with
    | none => cases h
    | some y => exact congrArg some (hf x y h)

theorem positiveGpu?_beq {a b : Option Float} (h : a == b) : positiveGpu? a == positiveGpu? b := by
  cases a with
  | none =>
    cases b with
    | none => rfl
    | some y => cases h
  | some x =>
    cases b with
    | none => cases h
    | some y =>
      have hxy : x == y := h
      by_cases hx : 0.0 < x
      · have hy := (lt_iff_of_beq hxy 0.0).1 hx
        simpa [positiveGpu?, Option.filter, hx, hy] using hxy
      · have hy := mt (lt_iff_of_beq hxy 0.0).2 hx
        simp [positiveGpu?, Option.filter, hx, hy]

/-! ## Equal ceilings -/

namespace Capability

variable {c d : Capability}

theorem beq_iff : c == d ↔
    c.cpu == d.cpu ∧ c.memory == d.memory ∧ c.gpu == d.gpu ∧ c.gpuType = d.gpuType := by
  change (c.cpu == d.cpu && (c.memory == d.memory && (c.gpu == d.gpu &&
    c.gpuType == d.gpuType))) = true ↔ _
  simp

/-- Equal ceilings are the same table of resources. -/
theorem toResources_eq_of_beq (h : c == d) (defaultType : String) :
    c.toResources defaultType = d.toResources defaultType := by
  obtain ⟨hcpu, hmemory, hgpu, htype⟩ := beq_iff.1 h
  have cpu := map_eq_of_beq (fun _ _ => quantity_eq_of_beq) hcpu
  have memory := map_eq_of_beq
    (fun _ _ hxy => congrArg (· ++ "Gi") (quantity_eq_of_beq hxy)) hmemory
  have gpu := map_eq_of_beq (fun _ _ => quantity_eq_of_beq) (positiveGpu?_beq hgpu)
  simp only [toResources]
  rw [cpu, memory, gpu, htype]

theorem beq_self_of_checkAmount {field : String} {amount : Option Float}
    (h : checkAmount field amount = .ok ()) : amount == amount := by
  cases amount with
  | none => rfl
  | some x =>
    simp only [checkAmount] at h
    split at h
    · next hx => exact beq_self_of_isFinite (isAmount_iff.1 hx).1
    · cases h

/-- A ceiling that was checked has finite amounts, so it equals itself. -/
theorem beq_self_of_check (h : c.check = .ok ()) : c == c := by
  simp only [check, bind, Except.bind] at h
  split at h
  · cases h
  · next hcpu =>
    split at h
    · cases h
    · next hmemory =>
      exact beq_iff.2 ⟨beq_self_of_checkAmount hcpu, beq_self_of_checkAmount hmemory,
        beq_self_of_checkAmount h, rfl⟩

end Capability

end ClusterJobs
