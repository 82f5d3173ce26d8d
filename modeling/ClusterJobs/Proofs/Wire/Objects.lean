import ClusterJobs.Proofs.Manifest.Members
import ClusterJobs.Wire.Decode

/-!
# Objects on the wire

What a record is decoded from is found by the names of its members. The object that a record is written
as has each member under its name, whatever the order of its names.
-/

namespace ClusterJobs

open Json (Value)

namespace Wire

theorem ofJsonItems_eq_map (vs : List Value) : ofJsonItems vs = vs.map ofJson := by
  induction vs with
  | nil => rfl
  | cons v vs ih => simp [ofJsonItems, ih]

theorem ofJsonMembers_eq_map (ms : Fields Value) :
    ofJsonMembers ms = ms.map fun p => (.text p.1, ofJson p.2) := by
  induction ms with
  | nil => rfl
  | cons p ms ih => simp [ofJsonMembers, ih]

mutual

/-- Every scalar of a JSON value has its own type already. -/
@[simp]
theorem settle_ofJson : ∀ v : Value, (ofJson v).settle = ofJson v
  | .null | .bool _ | .int _ | .float _ | .str _ => rfl
  | .arr vs => by simp [ofJson, settle, settleItems_ofJsonItems vs]
  | .obj ms => by simp [ofJson, settle, settleEntries_ofJsonMembers ms]

theorem settleItems_ofJsonItems : ∀ vs : List Value, settleItems (ofJsonItems vs) = ofJsonItems vs
  | [] => rfl
  | v :: vs => by simp [ofJsonItems, settleItems, settle_ofJson v, settleItems_ofJsonItems vs]

theorem settleEntries_ofJsonMembers :
    ∀ ms : Fields Value, settleEntries (ofJsonMembers ms) = ofJsonMembers ms
  | [] => rfl
  | (k, v) :: ms => by
    simp [ofJsonMembers, settleEntries, settle, settle_ofJson v, settleEntries_ofJsonMembers ms]

end

end Wire

/-! ## Members by name -/

namespace Fields

variable {α : Type} {pairs : List (String × α)}

instance (fs : Fields α) : Decidable fs.Sorted :=
  inferInstanceAs (Decidable (fs.Pairwise fun p q => p.1 < q.1))

theorem get?_eq_lookup (fs : Fields α) (key : String) : fs.get? key = List.lookup key fs := by
  induction fs with
  | nil => rfl
  | cons p rest ih =>
    obtain ⟨k, v⟩ := p
    rw [get?, List.lookup_cons, ih]
    by_cases h : k = key
    · simp [h]
    · simp [h, beq_eq_false_iff_ne.2 (Ne.symm h)]

/-- A value that is written over a table hides what was at its key. -/
theorem get?_overwrite (hnodup : (pairs.map Prod.fst).Nodup) (fs : Fields α) (key : String) :
    (fs.overwrite pairs).get? key = (get? pairs key).or (fs.get? key) := by
  induction pairs generalizing fs with
  | nil => rfl
  | cons p rest ih =>
    obtain ⟨hnew, hrest⟩ := List.nodup_cons.1 hnodup
    have hstep : (fs.overwrite (p :: rest)).get? key = ((fs.put p.1 p.2).overwrite rest).get? key := rfl
    rw [hstep, ih hrest, get?_put, get?]
    by_cases h : p.1 = key
    · have hnone : get? rest key = none :=
        get?_eq_none_iff.2 fun q hq heq => hnew (List.mem_map.2 ⟨q, hq, heq.trans h.symm⟩)
      simp [h, hnone]
    · simp [h]

theorem get?_ofPairs (hnodup : (pairs.map Prod.fst).Nodup) (key : String) :
    (ofPairs pairs).get? key = get? pairs key := by
  have h := get?_overwrite hnodup [] key
  rwa [get?, Option.or_none] at h

theorem put_of_lt {fs : Fields α} {key : String} (h : ∀ p ∈ fs, p.1 < key) (v : α) :
    fs.put key v = fs ++ [(key, v)] := by
  induction fs with
  | nil => rfl
  | cons p rest ih =>
    have hp := h p (by simp)
    rw [put, if_neg (ne_of_lt hp), if_neg (lt_asymm hp), ih fun q hq => h q (by simp [hq])]
    rfl

theorem overwrite_of_sorted {fs later : Fields α} (h : Sorted (fs ++ later)) :
    fs.overwrite later = fs ++ later := by
  induction later generalizing fs with
  | nil => simp [overwrite]
  | cons p rest ih =>
    have hlast : ∀ q ∈ fs, q.1 < p.1 := fun q hq => (List.pairwise_append.1 h).2.2 q hq p (by simp)
    have hstep : fs.overwrite (p :: rest) = (fs.put p.1 p.2).overwrite rest := rfl
    rw [hstep, put_of_lt hlast, ih (by simpa using h)]
    simp

/-- A table in order is read as it is. -/
theorem ofPairs_of_sorted {fs : Fields α} (h : fs.Sorted) : ofPairs fs = fs :=
  overwrite_of_sorted h

theorem mem_overwrite {fs later : Fields α} {p : String × α} (h : p ∈ fs.overwrite later) :
    p ∈ later ∨ p ∈ fs := by
  induction later generalizing fs with
  | nil => exact .inr h
  | cons q rest ih =>
    have hstep : p ∈ (fs.put q.1 q.2).overwrite rest := h
    rcases ih hstep with hrest | hput
    · exact .inl (by simp [hrest])
    · rcases mem_put hput with rfl | hfs
      · exact .inl (by simp)
      · exact .inr hfs

theorem mem_of_mem_ofPairs {p : String × α} (h : p ∈ ofPairs pairs) : p ∈ pairs :=
  (mem_overwrite h).resolve_right (by simp)

/-- A member that has no value is left out. -/
theorem get?_present {optional : List (String × Option Value)}
    (hnodup : (optional.map Prod.fst).Nodup) (key : String) :
    get? (Value.present optional) key = (get? optional key).join := by
  induction optional with
  | nil => rfl
  | cons p rest ih =>
    obtain ⟨k, x⟩ := p
    obtain ⟨hnew, hrest⟩ := List.nodup_cons.1 hnodup
    have hnone (h : k = key) : get? (Value.present rest) key = none := by
      refine get?_eq_none_iff.2 fun q hq heq => hnew ?_
      have hkey := (Value.present_keys_sublist rest).mem (List.mem_map_of_mem hq)
      rwa [h, ← heq]
    cases x with
    | none =>
      by_cases h : k = key
      · simpa [Value.present, get?, h] using hnone h
      · simpa [Value.present, get?, h] using ih hrest
    | some v =>
      by_cases h : k = key
      · simp [get?, h]
      · simpa [Value.present, get?, h] using ih hrest

end Fields

/-- A member of an object whose absent members are left out. -/
theorem Json.Value.get?_objectSome_eq {optional : List (String × Option Value)}
    (hnodup : (optional.map Prod.fst).Nodup) (key : String) :
    (objectSome optional).get? key = (Fields.get? optional key).join := by
  have hpresent := hnodup.sublist (present_keys_sublist optional)
  exact (Fields.get?_ofPairs hpresent key).trans (Fields.get?_present hnodup key)

namespace Members

/-- The members of a record that is written as a JSON object. -/
def ofFields (ms : Fields Value) : Members :=
  ms.mapValues Wire.ofJson

theorem find?_ofFields (ms : Fields Value) (name : String) :
    (ofFields ms).find? name = (ms.get? name).map Wire.ofJson := by
  rw [← Fields.get?_mapValues, Fields.get?_eq_lookup]
  rfl

end Members

namespace Decode

theorem namedMembers_ofJsonMembers (ms : Fields Value) :
    namedMembers (Wire.ofJsonMembers ms) = Members.ofFields ms := by
  induction ms with
  | nil => rfl
  | cons p ms ih => simp [Wire.ofJsonMembers, namedMembers, text, ih, Members.ofFields, Fields.mapValues]

theorem members_obj {ms : Fields Value} (hnodup : (ms.map Prod.fst).Nodup) (padded : Bool)
    (names : List String) : members padded names (.ofJson (.obj ms)) = some (.ofFields ms) := by
  have hkeys : (Members.ofFields ms).map Prod.fst = ms.map Prod.fst := by
    simp [Members.ofFields, Fields.mapValues]
  have honce (n : String) : ((Members.ofFields ms).countP fun m => m.1 == n) ≤ 1 := by
    have hcount := List.nodup_iff_count_le_one.1 hnodup n
    rw [← hkeys, List.count, List.countP_map] at hcount
    exact hcount
  simp only [Wire.ofJson, members, namedMembers_ofJsonMembers]
  rw [if_neg]
  simpa using fun n _ => honce n

/-- An object that is written has each member under its name. -/
theorem members_object (pairs : List (String × Value)) (padded : Bool) (names : List String) :
    members padded names (.ofJson (.object pairs)) = some (.ofFields (Fields.ofPairs pairs)) :=
  members_obj (Fields.sorted_ofPairs pairs).nodup padded names

end Decode

end ClusterJobs
