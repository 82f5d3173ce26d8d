import ClusterJobs.Decimal.Layout
import ClusterJobs.Proofs.Decimal.Arithmetic
import ClusterJobs.Proofs.Decimal.Shortest
import Mathlib.Data.List.TakeWhile

/-!
# Plain decimals are read back

A plain decimal is digits, with a point among them or without one. Floats are written so if the format
has no exponents, and such a text is read as the float that it was written from.
-/

namespace ClusterJobs.Decimal

/-! ## Digits -/

section Plain

variable {c : Char} {cs ds fs rest : List Char} {d m n places : Nat} {q : Int}

/-- All characters are digits. -/
def AllDigits (cs : List Char) : Prop :=
  ∀ c ∈ cs, isDigit c = true

theorem isDigit_iff : isDigit c = true ↔ 48 ≤ c.toNat ∧ c.toNat ≤ 57 := by
  rw [isDigit, Bool.and_eq_true, decide_eq_true_iff, decide_eq_true_iff]
  exact Iff.rfl

theorem digitValue?_of_isDigit (h : isDigit c = true) : digitValue? c = some (c.toNat - 48) := by
  unfold digitValue?
  rw [if_pos (by simpa [isDigit] using h)]
  rfl

theorem allDigits_toDigits (n : Nat) : AllDigits (Nat.toDigits 10 n) := by
  intro c hc
  have h := Nat.isDigit_of_mem_toDigits (by decide) (by decide) hc
  simpa [isDigit, Char.isDigit, Char.le_def, and_comm] using h

theorem allDigits_zeros (n : Nat) : AllDigits (zeros n) := by
  intro c hc
  rw [List.eq_of_mem_replicate hc]
  rfl

theorem AllDigits.append (h : AllDigits ds) (h' : AllDigits fs) : AllDigits (ds ++ fs) := by
  intro c hc
  exact (List.mem_append.1 hc).elim (h c) (h' c)

theorem AllDigits.of_append (h : AllDigits (ds ++ fs)) : AllDigits ds ∧ AllDigits fs :=
  ⟨fun c hc => h c (List.mem_append_left _ hc), fun c hc => h c (List.mem_append_right _ hc)⟩

theorem readDigits_eq (h : AllDigits ds) (acc : Nat) :
    readDigits 10 acc ds = some (Nat.ofDigitChars 10 ds acc) := by
  induction ds generalizing acc with
  | nil => rfl
  | cons c ds ih =>
    have hc := h c (.head _)
    have hlt : c.toNat - 48 < 10 := by
      have hbounds := isDigit_iff.1 hc
      omega
    rw [readDigits, digitValue?_of_isDigit hc, Option.bind_eq_bind, Option.bind_some, if_pos hlt,
      ih (fun d hd => h d (.tail _ hd)), Nat.mul_comm acc]
    rfl

theorem readNat?_eq (h : AllDigits ds) (hne : ds ≠ []) :
    readNat? 10 ds = some (Nat.ofDigitChars 10 ds 0) := by
  cases ds with
  | nil => exact absurd rfl hne
  | cons c ds => exact readDigits_eq h 0

/-- Digits stand for less than the next power of ten. -/
theorem ofDigitChars_lt (h : AllDigits ds) (acc : Nat) :
    Nat.ofDigitChars 10 ds acc < (acc + 1) * 10 ^ ds.length := by
  induction ds generalizing acc with
  | nil => simp [Nat.ofDigitChars]
  | cons c ds ih =>
    have hbounds := isDigit_iff.1 (h c (.head _))
    calc Nat.ofDigitChars 10 (c :: ds) acc
        = Nat.ofDigitChars 10 ds (10 * acc + (c.toNat - 48)) := rfl
      _ < (10 * acc + (c.toNat - 48) + 1) * 10 ^ ds.length :=
          ih (fun d hd => h d (.tail _ hd)) _
      _ ≤ (acc + 1) * 10 * 10 ^ ds.length := Nat.mul_le_mul_right _ (by omega)
      _ = (acc + 1) * 10 ^ (c :: ds).length := by
          rw [List.length_cons, Nat.pow_succ, Nat.mul_assoc, Nat.mul_comm 10]

theorem ofDigitChars_zeros (n acc : Nat) : Nat.ofDigitChars 10 (zeros n) acc = acc * 10 ^ n := by
  induction n generalizing acc with
  | zero => simp [zeros, Nat.ofDigitChars]
  | succ n ih =>
    calc Nat.ofDigitChars 10 (zeros (n + 1)) acc
        = Nat.ofDigitChars 10 (zeros n) (10 * acc) := rfl
      _ = acc * 10 ^ (n + 1) := by
          rw [ih, Nat.pow_succ]
          ring

theorem ofDigitChars_append (ds fs : List Char) (acc : Nat) :
    Nat.ofDigitChars 10 (ds ++ fs) acc = Nat.ofDigitChars 10 fs (Nat.ofDigitChars 10 ds acc) :=
  List.foldl_append

theorem takeDigits_eq (h : AllDigits ds) : takeDigits ds = (ds, []) := by
  unfold takeDigits
  rw [List.takeWhile_eq_self_iff.2 h, List.dropWhile_eq_nil_iff.2 h]

theorem takeDigits_point (h : AllDigits ds) (rest : List Char) :
    takeDigits (ds ++ '.' :: rest) = (ds, '.' :: rest) := by
  unfold takeDigits
  rw [List.takeWhile_append_of_pos h, List.dropWhile_append_of_pos h,
    List.takeWhile_cons_of_neg (by decide), List.dropWhile_cons_of_neg (by decide), List.append_nil]

/-! ## Plain decimals -/

/-- Digits that are the number `n`, with the last `places` of them behind a point. -/
inductive PlainDecimal : List Char → Nat → Nat → Prop where
  | whole {ds : List Char} : ds ≠ [] → AllDigits ds →
      PlainDecimal ds (Nat.ofDigitChars 10 ds 0) 0
  | fraction {ds fs : List Char} : ds ≠ [] → fs ≠ [] → AllDigits ds → AllDigits fs →
      PlainDecimal (ds ++ '.' :: fs) (Nat.ofDigitChars 10 (ds ++ fs) 0) fs.length

theorem PlainDecimal.exists_cons (h : PlainDecimal cs n places) :
    ∃ c rest, cs = c :: rest ∧ isDigit c = true := by
  cases h with
  | whole hne hds =>
    obtain ⟨c, rest, rfl⟩ := List.exists_cons_of_ne_nil hne
    exact ⟨c, rest, rfl, hds c (.head _)⟩
  | fraction hne _ hds _ =>
    obtain ⟨c, rest, rfl⟩ := List.exists_cons_of_ne_nil hne
    exact ⟨c, _, rfl, hds c (.head _)⟩

theorem PlainDecimal.isDigit_or_point (h : PlainDecimal cs n places) (hc : c ∈ cs) :
    isDigit c = true ∨ c = '.' := by
  cases h with
  | whole _ hds => exact .inl (hds c hc)
  | fraction _ _ hds hfs =>
    rcases List.mem_append.1 hc with hc | hc
    · exact .inl (hds c hc)
    · exact (List.mem_cons.1 hc).symm.imp_left (hfs c)

theorem PlainDecimal.readUnsigned? (h : PlainDecimal cs n places) :
    ∃ count, n < 10 ^ count ∧
      readUnsigned? false cs = some ⟨false, n, count, -(places : Int)⟩ := by
  cases h with
  | whole hne hds =>
    refine ⟨cs.length, by simpa using ofDigitChars_lt hds 0, ?_⟩
    simp only [Decimal.readUnsigned?, takeDigits_eq hds]
    simp [readExponent?, readNat?_eq hds hne, hne]
  | @fraction ds fs hne hne' hds hfs =>
    have hall := hds.append hfs
    refine ⟨ds.length + fs.length, by simpa using ofDigitChars_lt hall 0, ?_⟩
    simp only [Decimal.readUnsigned?, takeDigits_point hds, takeDigits_eq hfs]
    simp [readExponent?, readNat?_eq hall (by simp [hne]), hne]

theorem toLower_of_isDigit (h : isDigit c = true) : c.toLower = c := by
  have hbounds := isDigit_iff.1 h
  unfold Char.toLower
  rw [dif_neg]
  rintro ⟨hupper, -⟩
  have hge : 65 ≤ c.toNat := UInt32.le_iff_toNat_le.1 hupper
  omega

theorem ne_of_isDigit {d : Char} (h : isDigit c = true) (hd : isDigit d = false) : c ≠ d := by
  rintro rfl
  rw [h] at hd
  cases hd

/-- What starts with a digit after its sign is no word. -/
theorem readFloat?_of_takeSign {text : List Char} {negative : Bool}
    (hsign : takeSign text = (negative, c :: cs)) (h : isDigit c = true) :
    readFloat? text = (Decimal.readUnsigned? negative (c :: cs)).map Literal.toFloat := by
  have hword {d : Char} {ds : List Char} (hd : isDigit d = false) :
      (lowerAscii (c :: cs) == d :: ds) = false := by
    rw [lowerAscii, List.map_cons, toLower_of_isDigit h, List.cons_beq_cons,
      beq_eq_false_iff_ne.2 (ne_of_isDigit h hd), Bool.false_and]
  unfold readFloat?
  rw [hsign]
  have hinf : (lowerAscii (c :: cs) == "inf".toList) = false := hword (by decide)
  have hinfinity : (lowerAscii (c :: cs) == "infinity".toList) = false := hword (by decide)
  have hnan : (lowerAscii (c :: cs) == "nan".toList) = false := hword (by decide)
  simp only [hinf, hinfinity, hnan, Bool.or_self, Bool.false_eq_true, if_false]

/-- What starts with a digit is not signed. -/
theorem readFloat?_cons (h : isDigit c = true) (cs : List Char) :
    readFloat? (c :: cs) = (Decimal.readUnsigned? false (c :: cs)).map Literal.toFloat := by
  refine readFloat?_of_takeSign ?_ h
  unfold takeSign
  split
  · next heq => exact absurd (List.cons.inj heq).1 (ne_of_isDigit h (by decide))
  · next heq => exact absurd (List.cons.inj heq).1 (ne_of_isDigit h (by decide))
  · rfl

/-- A plain decimal is read as the float nearest to it. -/
theorem PlainDecimal.exists_readFloat? (h : PlainDecimal cs n places) :
    ∃ count, n < 10 ^ count ∧
      readFloat? cs = some (Literal.toFloat ⟨false, n, count, -(places : Int)⟩) := by
  obtain ⟨count, hcount, hread⟩ := h.readUnsigned?
  obtain ⟨c, rest, rfl, hc⟩ := h.exists_cons
  exact ⟨count, hcount, by rw [readFloat?_cons hc, hread]; rfl⟩

theorem readUnsigned?_negative (cs : List Char) : Decimal.readUnsigned? true cs =
    (Decimal.readUnsigned? false cs).map fun l => { l with negative := true } := by
  unfold Decimal.readUnsigned?
  dsimp only
  split <;> simp [apply_ite (Option.map _), Option.map_bind]

theorem toFloat_negative {l : Literal} (h : l.negative = false) :
    Literal.toFloat { l with negative := true } = -l.toFloat := by
  simp only [Literal.toFloat, h, if_true, Bool.false_eq_true, if_false]

/-- A minus sign before a plain decimal changes the sign of the float. -/
theorem PlainDecimal.readFloat?_minus (h : PlainDecimal cs n places) :
    readFloat? ('-' :: cs) = (readFloat? cs).map fun x => -x := by
  obtain ⟨count, -, hread⟩ := h.readUnsigned?
  obtain ⟨c, rest, rfl, hc⟩ := h.exists_cons
  rw [readFloat?_of_takeSign rfl hc, readFloat?_cons hc, readUnsigned?_negative, hread]
  exact congrArg some (toFloat_negative rfl)

theorem ofDigitChars_toDigits (n : Nat) : Nat.ofDigitChars 10 (Nat.toDigits 10 n) 0 = n :=
  Nat.ofDigitChars_toDigits (by decide) (by decide)

/-- Zeros after the digits. -/
theorem plainDecimal_zeros_after (n k : Nat) :
    PlainDecimal (Nat.toDigits 10 n ++ zeros k) (n * 10 ^ k) 0 := by
  have hplain := PlainDecimal.whole (List.append_ne_nil_of_left_ne_nil Nat.toDigits_ne_nil _)
    ((allDigits_toDigits n).append (allDigits_zeros k))
  rwa [ofDigitChars_append, ofDigitChars_toDigits, ofDigitChars_zeros] at hplain

/-- A point among the digits. -/
theorem plainDecimal_point_among {n whole places : Nat} (hplaces : 0 < places) (hwhole : 0 < whole)
    (hlength : (Nat.toDigits 10 n).length = whole + places) :
    PlainDecimal ((Nat.toDigits 10 n).take whole ++ '.' :: (Nat.toDigits 10 n).drop whole) n
      places := by
  have hsplit := List.take_append_drop whole (Nat.toDigits 10 n)
  obtain ⟨htake, hdrop⟩ := AllDigits.of_append (hsplit.symm ▸ allDigits_toDigits n)
  have hrest : ((Nat.toDigits 10 n).drop whole).length = places := by
    rw [List.length_drop]
    omega
  have hplain := PlainDecimal.fraction
    (by rw [← List.length_pos_iff, List.length_take]; omega)
    (by rw [← List.length_pos_iff]; omega) htake hdrop
  rwa [hsplit, ofDigitChars_toDigits, hrest] at hplain

/-- A point before all digits, and zeros between them. -/
theorem plainDecimal_point_before {n missing places : Nat}
    (hlength : (Nat.toDigits 10 n).length + missing = places) :
    PlainDecimal ('0' :: '.' :: zeros missing ++ Nat.toDigits 10 n) n places := by
  have hplaces : (zeros missing ++ Nat.toDigits 10 n).length = places := by
    rw [List.length_append, zeros, List.length_replicate]
    omega
  have hnumber : Nat.ofDigitChars 10 (['0'] ++ (zeros missing ++ Nat.toDigits 10 n)) 0 = n := by
    rw [ofDigitChars_append, ofDigitChars_append]
    exact (congrArg _ ((ofDigitChars_zeros missing 0).trans (Nat.zero_mul _))).trans
      (ofDigitChars_toDigits n)
  have hplain := PlainDecimal.fraction (List.cons_ne_nil '0' [])
    (List.append_ne_nil_of_right_ne_nil (zeros missing) (Nat.toDigits_ne_nil (n := n) (b := 10)))
    (allDigits_zeros 1) ((allDigits_zeros missing).append (allDigits_toDigits n))
  rwa [hnumber, hplaces] at hplain

/-- A decimal without an exponent is written as what it is. -/
theorem exists_plainDecimal_positionalText (d : Digits) : ∃ n places,
    PlainDecimal (positionalText false d) n places ∧ n * (10 : Rat) ^ (-(places : Int)) = d.value := by
  have hlength : 0 < (Nat.toDigits 10 d.digits).length := Nat.length_toDigits_pos
  unfold positionalText Digits.value
  dsimp only
  split
  · next k hk =>
    refine ⟨_, 0, by simpa using plainDecimal_zeros_after d.digits k, ?_⟩
    rw [hk]
    simp
  · next k hk =>
    refine ⟨d.digits, k + 1, ?_, by rw [hk]; rfl⟩
    split
    · exact plainDecimal_point_among (by omega) (by omega) (by omega)
    · exact plainDecimal_point_before (by omega)

end Plain

/-! ## Round trips -/

section RoundTrip

variable {x : Float} {d : Digits} {m : Nat} {q : Int}

/-- A decimal that is nearest to a float is read as that float. -/
theorem readFloat?_positionalText (hx : Parts x .positive m q) (hd : Within m q d.value) :
    readFloat? (positionalText false d) = some x := by
  obtain ⟨n, places, hplain, hvalue⟩ := exists_plainDecimal_positionalText d
  obtain ⟨count, hcount, hread⟩ := hplain.exists_readFloat?
  have hc := hx.canonical
  have hpos := hd.pos hc
  rw [← hvalue] at hd hpos
  have hn : 0 < n := by
    rcases Nat.eq_zero_or_pos n with rfl | hn
    · simp at hpos
    · exact hn
  rw [hread, (Literal.parts_toFloat hn hcount (.of_within hc hd) hc).unique hx]

theorem toList_plainText (hx : Parts x .positive m q) :
    (plainText x).toList = positionalText false (shortest m q) := by
  rw [plainText, Layout.render, hx.ofFloat_eq]
  simp [isNegative, Layout.unsigned, Layout.plain]

/-- The plain text of a float is read as that float. -/
theorem readFloat?_plainText (hx : Parts x .positive m q) :
    readFloat? (plainText x).toList = some x := by
  rw [toList_plainText hx]
  exact readFloat?_positionalText hx (within_shortest hx.canonical)

/-- So is that of any finite float, whatever its sign is. -/
theorem readFloat?_plainText_of_isFinite (h : x.isFinite = true) :
    readFloat? (plainText x).toList = some x := by
  rcases exists_parts_of_isFinite h with ⟨s, hzero⟩ | ⟨s, m, q, hparts⟩
  · cases s with
    | positive =>
      obtain rfl : x = 0.0 := zero_unique hzero rfl
      rfl
    | negative =>
      obtain rfl : x = -0.0 := zero_unique hzero rfl
      rfl
  · cases s with
    | positive => exact readFloat?_plainText hparts
    | negative =>
      -- The text is that of the float with the other sign, after a minus sign.
      have hneg : Parts (-x) .positive m q := hparts.neg
      have hminus : (plainText x).toList = '-' :: (plainText (-x)).toList := by
        rw [toList_plainText hneg, plainText, Layout.render, hparts.ofFloat_eq]
        simp [isNegative, Layout.unsigned, Layout.plain]
      have hback : -(-x) = x := hneg.neg.unique hparts
      obtain ⟨n, places, hplain, -⟩ := exists_plainDecimal_positionalText (shortest m q)
      rw [← toList_plainText hneg] at hplain
      rw [hminus, hplain.readFloat?_minus, readFloat?_plainText hneg, Option.map_some, hback]

end RoundTrip

end ClusterJobs.Decimal
