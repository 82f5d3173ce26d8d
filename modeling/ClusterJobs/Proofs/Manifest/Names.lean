import Mathlib.Data.List.Basic
import ClusterJobs.Manifest.Identity
import ClusterJobs.Manifest.Pod

/-!
# Names and directories of items

A number is set off from what comes before or after it by a character that no number holds, so names
and directories can be read back: they differ as soon as the instances or the indices do. The stem of
a name may itself hold what sets numbers off, so two tasks may share a name.
-/

namespace ClusterJobs

/-! ## Numbers that are set off -/

section SetOff

variable {a b rest rest' : List Char} {sep : Char} {m n : Nat} {x y : Int}

/-- Nothing comes next, or the separator does. -/
def SetOff (sep : Char) (rest : List Char) : Prop :=
  rest = [] ∨ ∃ more, rest = sep :: more

theorem SetOff.head_eq {c : Char} (h : SetOff sep (c :: rest)) : c = sep := by
  rcases h with h | ⟨more, h⟩
  · cases h
  · exact (List.cons.inj h).1

/-- What stands before the first separator is determined by the whole. -/
theorem append_inj_of_setOff (ha : sep ∉ a) (hb : sep ∉ b) (hrest : SetOff sep rest)
    (hrest' : SetOff sep rest') (h : a ++ rest = b ++ rest') : a = b ∧ rest = rest' := by
  induction a generalizing b with
  | nil =>
    cases b with
    | nil => exact ⟨rfl, h⟩
    | cons c b =>
      obtain rfl : rest = c :: (b ++ rest') := h
      exact absurd (hrest.head_eq ▸ .head _) hb
  | cons c a ih =>
    cases b with
    | nil =>
      obtain rfl : c :: (a ++ rest) = rest' := h
      exact absurd (hrest'.head_eq ▸ .head _) ha
    | cons d b =>
      obtain ⟨rfl, htail⟩ := List.cons.inj h
      obtain ⟨rfl, hrest⟩ :=
        ih (fun hmem => ha (.tail _ hmem)) (fun hmem => hb (.tail _ hmem)) htail
      exact ⟨rfl, hrest⟩

/-- What stands after the last separator is determined by the whole. -/
theorem append_inj_of_not_mem (ha : sep ∉ a) (hb : sep ∉ b)
    (h : rest ++ sep :: a = rest' ++ sep :: b) : rest = rest' ∧ a = b := by
  have h := congrArg List.reverse h
  simp only [List.reverse_append, List.reverse_cons, List.append_assoc, List.singleton_append] at h
  obtain ⟨hab, hrest⟩ := append_inj_of_setOff (by rwa [List.mem_reverse])
    (by rwa [List.mem_reverse]) (.inr ⟨_, rfl⟩) (.inr ⟨_, rfl⟩) h
  exact ⟨List.reverse_inj.1 (List.cons.inj hrest).2, List.reverse_inj.1 hab⟩

theorem not_mem_toString_nat (hsep : sep.isDigit = false) (n : Nat) :
    sep ∉ (toString n).toList := by
  rw [Nat.toString_eq_repr, Nat.toList_repr]
  intro hmem
  rw [Nat.isDigit_of_mem_toDigits (by decide) (by decide) hmem] at hsep
  cases hsep

theorem hyphen_not_mem_toString (n : Nat) : '-' ∉ (toString n).toList :=
  not_mem_toString_nat (by decide) n

theorem toString_nat_inj (h : (toString m).toList = (toString n).toList) : m = n := by
  simp only [Nat.toString_eq_repr, Nat.toList_repr] at h
  calc m = Nat.ofDigitChars 10 (Nat.toDigits 10 m) 0 :=
        (Nat.ofDigitChars_toDigits (by decide) (by decide)).symm
    _ = Nat.ofDigitChars 10 (Nat.toDigits 10 n) 0 := by rw [h]
    _ = n := Nat.ofDigitChars_toDigits (by decide) (by decide)

/-- The sign is no digit, and the digits are not empty. -/
theorem toList_toString_int (x : Int) :
    (toString x).toList = (toString x.natAbs).toList ∧ 0 ≤ x ∨
      (toString x).toList = '-' :: (toString x.natAbs).toList ∧ x < 0 := by
  cases x with
  | ofNat m => exact .inl ⟨rfl, Int.natCast_nonneg m⟩
  | negSucc m => exact .inr ⟨String.toList_append, Int.negSucc_lt_zero m⟩

theorem not_mem_toString_int (hsep : sep.isDigit = false) (hsign : sep ≠ '-') (x : Int) :
    sep ∉ (toString x).toList := by
  have hdigits := not_mem_toString_nat hsep x.natAbs
  rcases toList_toString_int x with ⟨h, -⟩ | ⟨h, -⟩
  · rwa [h]
  · rw [h, List.mem_cons, not_or]
    exact ⟨hsign, hdigits⟩

theorem toString_nat_ne_nil (n : Nat) : (toString n).toList ≠ [] := by
  rw [Nat.toString_eq_repr, Nat.toList_repr]
  exact Nat.toDigits_ne_nil

theorem toString_nat_ne_cons (n : Nat) : (toString n).toList ≠ '-' :: rest := by
  intro h
  have hmem : '-' ∈ (toString n).toList := by
    rw [h]
    exact .head _
  exact hyphen_not_mem_toString n hmem

/-- The number after the last hyphen can be read back. -/
theorem append_toString_nat_inj
    (h : rest ++ '-' :: (toString m).toList = rest' ++ '-' :: (toString n).toList) :
    rest = rest' ∧ m = n := by
  obtain ⟨hrest, hdigits⟩ :=
    append_inj_of_not_mem (hyphen_not_mem_toString m) (hyphen_not_mem_toString n) h
  exact ⟨hrest, toString_nat_inj hdigits⟩

theorem toString_int_inj (h : (toString x).toList = (toString y).toList) : x = y := by
  rcases toList_toString_int x with ⟨hx, hx'⟩ | ⟨hx, hx'⟩ <;>
    rcases toList_toString_int y with ⟨hy, hy'⟩ | ⟨hy, hy'⟩ <;>
    rw [hx, hy] at h
  · have habs := toString_nat_inj h
    omega
  · exact absurd h (toString_nat_ne_cons _)
  · exact absurd h.symm (toString_nat_ne_cons _)
  · have habs := toString_nat_inj (List.cons.inj h).2
    omega

end SetOff

/-! ## Names -/

/-- What a name adds for the place in a fan-out. -/
def indexEnding : Option Nat → List Char
  | none => []
  | some i => '-' :: (toString i).toList

theorem toList_derivedName (taskName : String) (id : Int) (index : Option Nat) :
    (derivedName taskName id index).toList =
      (nameStem taskName).toList ++ '-' :: ((toString id).toList ++ indexEnding index) := by
  cases index <;> simp [derivedName, indexEnding]

/-- What a name is made of. -/
structure NameParts where
  stem : String
  id : Int
  index : Option Nat

namespace NameParts

/-- The stem ends in what the other parts have apart from theirs: the sign of the instance, or the
instance of an item. -/
def Mimics (p q : NameParts) : Prop :=
  (p.stem = q.stem ++ "-" ∧ q.id < 0 ∧ p.id = -q.id ∧ p.index = q.index) ∨
    (p.stem = q.stem ++ "-" ++ toString q.id ∧ p.index = none ∧ 0 ≤ p.id ∧
      q.index = some p.id.toNat)

instance (p q : NameParts) : Decidable (p.Mimics q) :=
  inferInstanceAs (Decidable (_ ∨ _))

variable {p q : NameParts} {stem stem' : String} {id id' : Int} {i j : Nat}

theorem Mimics.length_lt (h : p.Mimics q) : q.stem.length < p.stem.length := by
  have hhyphen : "-".length = 1 := rfl
  rcases h with ⟨h, -⟩ | ⟨h, -⟩
  · rw [h, String.length_append, hhyphen]
    exact Nat.lt_succ_self _
  · rw [h, String.length_append, String.length_append, hhyphen]
    omega

/-- The name that is made of the parts. -/
def chars (p : NameParts) : List Char :=
  p.stem.toList ++ '-' :: ((toString p.id).toList ++ indexEnding p.index)

/-- A stem with the hyphen that comes from the sign of the instance. -/
def signed (stem : String) (id : Int) : List Char :=
  if id < 0 then stem.toList ++ ['-'] else stem.toList

theorem signed_of_nonneg (hid : 0 ≤ id) : signed stem id = stem.toList :=
  if_neg (Int.not_lt.2 hid)

theorem chars_alone (stem : String) (id : Int) :
    chars ⟨stem, id, none⟩ = signed stem id ++ '-' :: (toString id.natAbs).toList := by
  rw [chars, signed, indexEnding, List.append_nil]
  rcases toList_toString_int id with ⟨h, hid⟩ | ⟨h, hid⟩
  · rw [h, if_neg (Int.not_lt.2 hid)]
  · rw [h, if_pos hid, List.append_assoc]
    rfl

theorem chars_item (stem : String) (id : Int) (i : Nat) :
    chars ⟨stem, id, some i⟩ = chars ⟨stem, id, none⟩ ++ '-' :: (toString i).toList := by
  simp only [chars, indexEnding, List.append_nil, List.append_assoc, List.cons_append]

theorem chars_alone_eq (h : chars ⟨stem, id, none⟩ = chars ⟨stem', id', none⟩) :
    (stem = stem' ∧ id = id') ∨ (stem = stem' ++ "-" ∧ id' < 0 ∧ id = -id') ∨
      (stem' = stem ++ "-" ∧ id < 0 ∧ id' = -id) := by
  rw [chars_alone, chars_alone] at h
  obtain ⟨hsigned, habs⟩ := append_toString_nat_inj h
  have hhyphen (s : String) : s.toList ++ ['-'] = (s ++ "-").toList := by
    rw [String.toList_append]
    rfl
  unfold signed at hsigned
  simp only [hhyphen] at hsigned
  split at hsigned <;> split at hsigned
  · rw [← hhyphen, ← hhyphen, List.append_left_inj, String.toList_inj] at hsigned
    exact .inl ⟨hsigned, by omega⟩
  · exact .inr (.inr ⟨(String.toList_inj.1 hsigned).symm, ‹_›, by omega⟩)
  · exact .inr (.inl ⟨String.toList_inj.1 hsigned, ‹_›, by omega⟩)
  · exact .inl ⟨String.toList_inj.1 hsigned, by omega⟩

/-- The last number of an object on its own is its instance, and that of an item is its index. -/
theorem mimics_of_chars_alone (h : chars ⟨stem, id, none⟩ = chars ⟨stem', id', some j⟩) :
    Mimics ⟨stem, id, none⟩ ⟨stem', id', some j⟩ := by
  rw [chars_item, chars_alone stem] at h
  obtain ⟨hsigned, habs⟩ := append_toString_nat_inj h
  by_cases hid : id < 0
  · -- A sign would stand where the instance of the item ends in a digit.
    rw [signed, if_pos hid, chars_alone] at hsigned
    have hnil := (append_inj_of_not_mem (List.not_mem_nil) (hyphen_not_mem_toString _) hsigned).2
    exact absurd hnil.symm (toString_nat_ne_nil _)
  · rw [signed_of_nonneg (Int.not_lt.1 hid)] at hsigned
    have hj : j = id.toNat := by omega
    refine .inr ⟨String.toList_inj.1 ?_, rfl, Int.not_lt.1 hid, congrArg some hj⟩
    rw [hsigned, chars, indexEnding, List.append_nil, String.toList_append, String.toList_append,
      List.append_assoc]
    rfl

theorem Mimics.chars_eq (h : p.Mimics q) : p.chars = q.chars := by
  obtain ⟨stem, id, index⟩ := p
  obtain ⟨stem', id', index'⟩ := q
  dsimp only [Mimics] at h
  rcases h with ⟨rfl, hneg, rfl, rfl⟩ | ⟨rfl, rfl, hnonneg, rfl⟩
  · have halone : chars ⟨stem' ++ "-", -id', none⟩ = chars ⟨stem', id', none⟩ := by
      rw [chars_alone, chars_alone, signed_of_nonneg (by omega), signed, if_pos hneg,
        Int.natAbs_neg, String.toList_append]
      rfl
    cases index with
    | none => exact halone
    | some i => rw [chars_item, chars_item, halone]
  · obtain ⟨j, rfl⟩ := Int.eq_ofNat_of_zero_le hnonneg
    rw [chars_item, chars_alone, signed_of_nonneg hnonneg]
    simp only [chars, indexEnding, String.toList_append, List.append_nil, List.append_assoc,
      List.cons_append]
    rfl

theorem eq_or_mimics_of_chars_alone (index : Option Nat)
    (h : chars ⟨stem, id, none⟩ = chars ⟨stem', id', none⟩) :
    NameParts.mk stem id index = ⟨stem', id', index⟩ ∨
      Mimics ⟨stem, id, index⟩ ⟨stem', id', index⟩ ∨
      Mimics ⟨stem', id', index⟩ ⟨stem, id, index⟩ := by
  rcases chars_alone_eq h with ⟨rfl, rfl⟩ | ⟨hstem, hneg, hid⟩ | ⟨hstem, hneg, hid⟩
  · exact .inl rfl
  · exact .inr (.inl (.inl ⟨hstem, hneg, hid, rfl⟩))
  · exact .inr (.inr (.inl ⟨hstem, hneg, hid, rfl⟩))

theorem chars_eq_iff : p.chars = q.chars ↔ p = q ∨ p.Mimics q ∨ q.Mimics p := by
  refine ⟨fun h => ?_, ?_⟩
  · obtain ⟨stem, id, index⟩ := p
    obtain ⟨stem', id', index'⟩ := q
    cases index with
    | none =>
      cases index' with
      | none => exact eq_or_mimics_of_chars_alone none h
      | some j => exact .inr (.inl (mimics_of_chars_alone h))
    | some i =>
      cases index' with
      | none => exact .inr (.inr (mimics_of_chars_alone h.symm))
      | some j =>
        rw [chars_item, chars_item] at h
        obtain ⟨halone, rfl⟩ := append_toString_nat_inj h
        exact eq_or_mimics_of_chars_alone (some i) halone
  · rintro (rfl | h | h)
    · rfl
    · exact h.chars_eq
    · exact h.chars_eq.symm

end NameParts

/-- Names are the same only if their parts are, or one ends its stem in what the other has apart. -/
theorem derivedName_eq_iff {taskName taskName' : String} {id id' : Int}
    {index index' : Option Nat} :
    derivedName taskName id index = derivedName taskName' id' index' ↔
      NameParts.mk (nameStem taskName) id index = ⟨nameStem taskName', id', index'⟩ ∨
        NameParts.Mimics ⟨nameStem taskName, id, index⟩ ⟨nameStem taskName', id', index'⟩ ∨
        NameParts.Mimics ⟨nameStem taskName', id', index'⟩ ⟨nameStem taskName, id, index⟩ := by
  rw [← NameParts.chars_eq_iff, ← String.toList_inj, toList_derivedName, toList_derivedName]
  rfl

/-- One task gives different names to different instances and items. -/
theorem derivedName_inj {taskName : String} {id id' : Int} {index index' : Option Nat} :
    derivedName taskName id index = derivedName taskName id' index' ↔
      id = id' ∧ index = index' := by
  rw [derivedName_eq_iff]
  constructor
  · rintro (h | h | h)
    · exact ⟨congrArg NameParts.id h, congrArg NameParts.index h⟩
    · exact absurd h.length_lt (Nat.lt_irrefl _)
    · exact absurd h.length_lt (Nat.lt_irrefl _)
  · rintro ⟨rfl, rfl⟩
    exact .inl rfl

/-! ## Directories -/

/-- Below whatever base, different instances and items have different directories. -/
theorem joinPath_inj {base base' : String} {id id' : Int} {i j : Nat} :
    joinPath base (toString id ++ "/" ++ toString i) =
        joinPath base' (toString id' ++ "/" ++ toString j) ↔
      withoutEndSlashes base = withoutEndSlashes base' ∧ id = id' ∧ i = j := by
  constructor
  · intro h
    -- Read from the end, the index comes first, then the instance, then the base.
    have h := congrArg (fun s : String => s.toList.reverse) h
    simp only [joinPath, String.toList_append, List.reverse_append, List.append_assoc] at h
    have hindex (n : Nat) : '/' ∉ (toString n).toList.reverse := by
      rw [List.mem_reverse]
      exact not_mem_toString_nat (by decide) n
    have hid (x : Int) : '/' ∉ (toString x).toList.reverse := by
      rw [List.mem_reverse]
      exact not_mem_toString_int (by decide) (by decide) x
    have hslash (rest : List Char) : SetOff '/' ("/".toList.reverse ++ rest) := .inr ⟨rest, rfl⟩
    obtain ⟨hi, h⟩ := append_inj_of_setOff (hindex i) (hindex j) (hslash _) (hslash _) h
    rw [List.append_right_inj] at h
    obtain ⟨hid, h⟩ := append_inj_of_setOff (hid id) (hid id') (hslash _) (hslash _) h
    rw [List.append_right_inj, List.reverse_inj, String.toList_inj] at h
    exact ⟨h, toString_int_inj (List.reverse_inj.1 hid), toString_nat_inj (List.reverse_inj.1 hi)⟩
  · rintro ⟨hbase, rfl, rfl⟩
    rw [joinPath, hbase]
    rfl

end ClusterJobs
