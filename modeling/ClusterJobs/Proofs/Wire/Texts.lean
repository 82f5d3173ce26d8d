import ClusterJobs.Json.Reader
import ClusterJobs.Proofs.Wire.Codecs

/-!
# Values of JSON texts

Whatever is read from a text is a proper value: its whole numbers fit a word of 64 bits, its floats are
finite, and the members of its objects are in order.
-/

namespace ClusterJobs.Json

variable {depth fuel : Nat} {cs rest : List Char} {v : Value}

/-- The digits packed into a word fit it. -/
theorem packDigits_le {word : Nat} (h : word ≤ 18446744073709551615) :
    (packDigits word cs).1 ≤ 18446744073709551615 := by
  induction cs generalizing word with
  | nil => exact h
  | cons c cs ih =>
    simp only [packDigits]
    split
    · next hfits => exact ih hfits
    · exact h

/-- A whole number is read as one only if it fits a word. -/
theorem proper_int_of_fits {negative fits : Bool} {n : Nat} (hn : n ≤ 18446744073709551615)
    (h : (fits && (!negative || (n ≠ 0 && n ≤ 9223372036854775808))) = true) :
    Value.Proper (.int (if negative then -(n : Int) else (n : Int))) := by
  cases negative
  · exact .int (by simp) (by simp; omega)
  · have hn : n ≠ 0 ∧ n ≤ 9223372036854775808 := by simpa using (Bool.and_eq_true_iff.1 h).2
    exact .int (by simp; omega) (by simp; omega)

theorem proper_number {whole fits : Bool} {n : Int} {x : Float} {after : List Char}
    (hn : fits = true → Value.Proper (.int n))
    (h : (if whole && fits then some (Value.int n, after)
      else if x.isFinite then some (.float x, after) else none) = some (v, rest)) : v.Proper := by
  split at h
  · next hfits =>
    cases h
    exact hn (Bool.and_eq_true_iff.1 hfits).2
  · split at h <;> cases h
    next hfinite => exact .float hfinite

theorem proper_of_readNumber (h : readNumber cs = some (v, rest)) : v.Proper := by
  simp only [readNumber, Option.bind_eq_bind, Option.bind_eq_some_iff] at h
  obtain ⟨whole, -, fraction, -, exponent, -, h⟩ := h
  exact proper_number (proper_int_of_fits (packDigits_le (packDigits_le (Nat.zero_le _)))) h

theorem proper_object {pairs : List (String × Value)} (h : ∀ p ∈ pairs, p.2.Proper) :
    (Value.object pairs).Proper :=
  .obj (Fields.sorted_ofPairs pairs) fun p hp => h p (Fields.mem_of_mem_ofPairs hp)

/-- What is read with so many steps is proper, if what was read before is. -/
structure ReadsProper (fuel : Nat) : Prop where
  value : ∀ {depth cs v rest}, readValue depth fuel cs = some (v, rest) → v.Proper
  items : ∀ {depth done cs v rest}, (∀ w ∈ done, w.Proper) →
    readItems depth fuel done cs = some (v, rest) → v.Proper
  members : ∀ {depth done cs v rest}, (∀ p ∈ done, Value.Proper p.2) →
    readMembers depth fuel done cs = some (v, rest) → v.Proper

theorem ReadsProper.zero : ReadsProper 0 where
  value h := by cases h
  items _ h := by cases h
  members _ h := by cases h

theorem ReadsProper.value_succ (ih : ReadsProper fuel)
    (h : readValue depth (fuel + 1) cs = some (v, rest)) : v.Proper := by
  rw [readValue] at h
  split at h
  · cases h
    exact .null
  · cases h
    exact .bool true
  · cases h
    exact .bool false
  · obtain ⟨p, -, hp⟩ := Option.map_eq_some_iff.1 h
    cases hp
    exact .str _
  · split at h
    · cases h
    · split at h
      · cases h
        exact .arr (by simp)
      · exact ih.items (by simp) h
  · split at h
    · cases h
    · split at h
      · cases h
        exact .obj .nil (by simp)
      · exact ih.members (by simp) h
  · exact proper_of_readNumber h

theorem ReadsProper.items_succ (ih : ReadsProper fuel) {done : List Value}
    (hdone : ∀ w ∈ done, w.Proper)
    (h : readItems depth (fuel + 1) done cs = some (v, rest)) : v.Proper := by
  rw [readItems] at h
  split at h
  · cases h
  · next w more hread =>
    have hw := ih.value hread
    have hdone' : ∀ u ∈ w :: done, u.Proper := List.forall_mem_cons.2 ⟨hw, hdone⟩
    split at h
    · exact ih.items hdone' h
    · cases h
      exact .arr fun u hu => hdone' u (List.mem_reverse.1 hu)
    · cases h

theorem ReadsProper.members_succ (ih : ReadsProper fuel) {done : List (String × Value)}
    (hdone : ∀ p ∈ done, p.2.Proper)
    (h : readMembers depth (fuel + 1) done cs = some (v, rest)) : v.Proper := by
  rw [readMembers] at h
  split at h
  · split at h
    · cases h
    · next name after hname =>
      split at h
      · split at h
        · cases h
        · next w more hread =>
          have hw := ih.value hread
          have hdone' : ∀ p ∈ (String.ofList name, w) :: done, p.2.Proper :=
            List.forall_mem_cons.2 ⟨hw, hdone⟩
          split at h
          · exact ih.members hdone' h
          · cases h
            exact proper_object fun p hp => hdone' p (List.mem_reverse.1 hp)
          · cases h
      · cases h
  · cases h

theorem readsProper (fuel : Nat) : ReadsProper fuel := by
  -- Values, items and members are read by turns, and each turn spends one step.
  induction fuel with
  | zero => exact .zero
  | succ fuel ih => exact ⟨ih.value_succ, ih.items_succ, ih.members_succ⟩

/-- Whatever a text says is proper. -/
theorem proper_of_parse? {s : String} (h : Value.parse? s = some v) : v.Proper := by
  simp only [Value.parse?] at h
  split at h
  · next w rest hread =>
    split at h <;> cases h
    exact (readsProper _).value hread
  · cases h

end ClusterJobs.Json
