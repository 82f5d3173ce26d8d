import Mathlib.Data.List.Nodup
import Mathlib.Data.String.Basic
import ClusterJobs.Json.Overlay

/-!
# Members of objects

An object that is built from members has each of them, and one that is left out is not there. Tables
stay in order whatever is written into them, so no key occurs twice.
-/

namespace ClusterJobs

namespace Fields

variable {α : Type} {fs later : Fields α} {key : String} {v : α}

theorem get?_put (fs : Fields α) (key other : String) (v : α) :
    (fs.put key v).get? other = if key = other then some v else fs.get? other := by
  split
  · next heq => rw [← heq, get?_put_self]
  · next hne => exact get?_put_of_ne fs v hne

/-- A key that is not written over keeps its value. -/
theorem get?_overwrite_of_ne (h : ∀ p ∈ later, p.1 ≠ key) :
    (fs.overwrite later).get? key = fs.get? key := by
  induction later generalizing fs with
  | nil => rfl
  | cons p later ih =>
    have hfirst : (fs.put p.1 p.2).get? key = fs.get? key := get?_put_of_ne fs p.2 (h p (.head _))
    exact (ih fun q hq => h q (.tail _ hq)).trans hfirst

theorem get?_overwrite_of_mem (hnodup : (later.map Prod.fst).Nodup) (hmem : (key, v) ∈ later) :
    (fs.overwrite later).get? key = some v := by
  induction later generalizing fs with
  | nil => cases hmem
  | cons p later ih =>
    obtain ⟨hnew, hnodup⟩ := List.nodup_cons.1 hnodup
    rcases List.mem_cons.1 hmem with rfl | hmem
    · have hrest : ∀ q ∈ later, q.1 ≠ key := by
        rintro q hq rfl
        exact hnew (List.mem_map.2 ⟨q, hq, rfl⟩)
      exact (get?_overwrite_of_ne hrest).trans (get?_put_self fs key v)
    · exact ih hnodup hmem

theorem get?_remove (fs : Fields α) (key other : String) :
    (fs.remove key).get? other = if key = other then none else fs.get? other := by
  induction fs with
  | nil => simp [remove, get?]
  | cons p rest ih =>
    obtain ⟨k, w⟩ := p
    by_cases hk : k = key
    · rw [remove, if_pos hk, ih]
      by_cases ho : key = other
      · rw [if_pos ho, if_pos ho]
      · rw [if_neg ho, if_neg ho, get?, if_neg fun h => ho (hk.symm.trans h)]
    · rw [remove, if_neg hk, get?, get?, ih]
      by_cases ho : key = other
      · rw [if_pos ho, if_pos ho, if_neg fun h => hk (h.trans ho.symm)]
      · rw [if_neg ho, if_neg ho]

theorem get?_mapValues {β : Type} (f : α → β) (fs : Fields α) (key : String) :
    (fs.mapValues f).get? key = (fs.get? key).map f := by
  induction fs with
  | nil => rfl
  | cons p rest ih =>
    rw [mapValues, List.map_cons, get?, get?]
    split
    · rfl
    · exact ih

theorem mem_of_get? (h : fs.get? key = some v) : (key, v) ∈ fs := by
  induction fs with
  | nil => cases h
  | cons p rest ih =>
    rw [get?] at h
    split at h
    · next heq =>
      cases h
      cases heq
      exact .head _
    · exact .tail _ (ih h)

theorem get?_eq_none_iff : fs.get? key = none ↔ ∀ p ∈ fs, p.1 ≠ key := by
  induction fs with
  | nil => simp [get?]
  | cons p rest ih =>
    rw [get?, List.forall_mem_cons, ← ih]
    split
    · next heq => simp [heq]
    · next hne => exact (and_iff_right hne).symm

/-! ## Tables in order -/

/-- The keys are in increasing order, each key once. -/
def Sorted (fs : Fields α) : Prop :=
  fs.Pairwise fun p q => p.1 < q.1

theorem mem_put {p : String × α} (h : p ∈ fs.put key v) : p = (key, v) ∨ p ∈ fs := by
  induction fs with
  | nil => exact .inl (List.mem_singleton.1 h)
  | cons q rest ih =>
    rw [put] at h
    split at h
    · exact (List.mem_cons.1 h).imp_right (.tail _)
    · split at h
      · exact List.mem_cons.1 h
      · rcases List.mem_cons.1 h with rfl | h
        · exact .inr (.head _)
        · exact (ih h).imp_right (.tail _)

theorem Sorted.put (h : fs.Sorted) (key : String) (v : α) : (fs.put key v).Sorted := by
  induction fs with
  | nil => exact List.pairwise_singleton _ _
  | cons q rest ih =>
    obtain ⟨hfirst, hrest⟩ := List.pairwise_cons.1 h
    rw [Fields.put]
    split
    · next heq =>
      subst heq
      exact List.pairwise_cons.2 ⟨hfirst, hrest⟩
    · next hne =>
      split
      · next hlt =>
        refine List.pairwise_cons.2 ⟨fun p hp => ?_, h⟩
        rcases List.mem_cons.1 hp with rfl | hp
        · exact hlt
        · exact hlt.trans (hfirst p hp)
      · next hge =>
        have hlt : q.1 < key := lt_of_le_of_ne (le_of_not_gt hge) hne
        refine List.pairwise_cons.2 ⟨fun p hp => ?_, ih hrest⟩
        rcases mem_put hp with rfl | hp
        · exact hlt
        · exact hfirst p hp

theorem remove_sublist (fs : Fields α) (key : String) : (fs.remove key).Sublist fs := by
  induction fs with
  | nil => exact .slnil
  | cons p rest ih =>
    rw [remove]
    split
    · exact ih.cons p
    · exact ih.cons_cons p

theorem Sorted.remove (h : fs.Sorted) (key : String) : (fs.remove key).Sorted :=
  h.sublist (remove_sublist fs key)

theorem Sorted.overwrite (h : fs.Sorted) (later : Fields α) : (fs.overwrite later).Sorted := by
  induction later generalizing fs with
  | nil => exact h
  | cons p rest ih => exact ih (h.put p.1 p.2)

theorem sorted_ofPairs (pairs : List (String × α)) : (ofPairs pairs).Sorted :=
  Sorted.overwrite .nil pairs

theorem Sorted.nodup (h : fs.Sorted) : (fs.map Prod.fst).Nodup :=
  List.pairwise_map.2 (h.imp fun hlt => ne_of_lt hlt)

end Fields

namespace Json.Value

variable {members : List (String × Value)} {optional : List (String × Option Value)} {key : String}
  {v : Value} {x : Option Value}

theorem get?_object (hnodup : (members.map Prod.fst).Nodup) (hmem : (key, v) ∈ members) :
    (object members).get? key = some v :=
  Fields.get?_overwrite_of_mem hnodup hmem

/-- The members that have a value. -/
abbrev present (optional : List (String × Option Value)) : List (String × Value) :=
  optional.filterMap fun p => p.2.map fun v => (p.1, v)

theorem mem_present : (key, v) ∈ present optional ↔ (key, some v) ∈ optional := by
  simp [present]

theorem present_keys_sublist (optional : List (String × Option Value)) :
    ((present optional).map Prod.fst).Sublist (optional.map Prod.fst) := by
  induction optional with
  | nil => exact .slnil
  | cons p rest ih =>
    obtain ⟨key, _ | v⟩ := p
    · exact ih.cons _
    · exact ih.cons_cons _

/-- A member is there if it has a value. -/
theorem get?_objectSome (hnodup : (optional.map Prod.fst).Nodup) (hmem : (key, x) ∈ optional) :
    (objectSome optional).get? key = x := by
  cases x with
  | some v =>
    exact get?_object (hnodup.sublist (present_keys_sublist optional)) (mem_present.2 hmem)
  | none =>
    refine Fields.get?_overwrite_of_ne ?_
    rintro ⟨other, v⟩ hv rfl
    cases List.inj_on_of_nodup_map hnodup hmem (mem_present.1 hv) rfl

theorem get?_withMember (v : Value) (key other : String) (new : Value) :
    (v.withMember key new).get? other = if key = other then some new else v.get? other := by
  have hmembers : Fields.get? v.members other = v.get? other := by
    cases v <;> rfl
  exact (Fields.get?_put ..).trans (by rw [hmembers])

theorem at?_cons (v : Value) (key : String) (rest : List String) :
    v.at? (key :: rest) = (v.get? key).bind (·.at? rest) :=
  rfl

theorem at?_object {rest : List String} (hnodup : (members.map Prod.fst).Nodup)
    (hmem : (key, v) ∈ members) : (object members).at? (key :: rest) = v.at? rest := by
  rw [at?_cons, get?_object hnodup hmem, Option.bind_some]

theorem at?_objectSome {rest : List String} (hnodup : (optional.map Prod.fst).Nodup)
    (hmem : (key, x) ∈ optional) :
    (objectSome optional).at? (key :: rest) = x.bind (·.at? rest) := by
  rw [at?_cons, get?_objectSome hnodup hmem]

/-- The items of a list; none of any other value. -/
def items : Value → List Value
  | .arr items => items
  | _ => []

end Json.Value

end ClusterJobs
