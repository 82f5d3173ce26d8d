import ClusterJobs.Gang.Job
import ClusterJobs.Proofs.Wire.Objects
import ClusterJobs.Proofs.Wire.WholeFloats

/-!
# Codecs

A decoder and the writer of its values fit each other if what is written is read back, and what is read
can be written. Codecs of lists, tables and records are built from those of their parts.
-/

namespace ClusterJobs

open Json (Value)

/-- A value that a JSON text can say: its whole numbers fit a word of 64 bits, its floats are finite,
and the members of its objects are in order. -/
inductive Json.Value.Proper : Value → Prop where
  | null : Proper .null
  | bool (b : Bool) : Proper (.bool b)
  | int {n : Int} : -2 ^ 63 ≤ n → n < 2 ^ 64 → Proper (.int n)
  | float {x : Float} : x.isFinite = true → Proper (.float x)
  | str (s : String) : Proper (.str s)
  | arr {vs : List Value} : (∀ v ∈ vs, Proper v) → Proper (.arr vs)
  | obj {ms : Fields Value} : ms.Sorted → (∀ p ∈ ms, Proper p.2) → Proper (.obj ms)

namespace Json.Value

@[simp]
theorem proper_null : Proper .null := .null

@[simp]
theorem proper_str (s : String) : Proper (.str s) := .str s

@[simp]
theorem proper_int {n : Int} : Proper (.int n) ↔ -2 ^ 63 ≤ n ∧ n < 2 ^ 64 :=
  ⟨fun | .int hlow hhigh => ⟨hlow, hhigh⟩, fun h => .int h.1 h.2⟩

@[simp]
theorem proper_float {x : Float} : Proper (.float x) ↔ x.isFinite = true :=
  ⟨fun | .float h => h, .float⟩

@[simp]
theorem proper_arr {vs : List Value} : Proper (.arr vs) ↔ ∀ v ∈ vs, v.Proper :=
  ⟨fun | .arr h => h, .arr⟩

@[simp]
theorem proper_obj {ms : Fields Value} : Proper (.obj ms) ↔ ms.Sorted ∧ ∀ p ∈ ms, p.2.Proper :=
  ⟨fun | .obj hms hvalues => ⟨hms, hvalues⟩, fun h => .obj h.1 h.2⟩

end Json.Value

namespace Decode

variable {α : Type} {d : Decoder α} {f : α → Value} {P : α → Prop}

/-- The values that satisfy `P` can be written, and these are the ones that are read. -/
structure Codec (d : Decoder α) (f : α → Value) (P : α → Prop) : Prop where
  reads : ∀ a, P a → d (.ofJson (f a)) = some a
  yields : ∀ v a, v.Proper → d (.ofJson v) = some a → P a

/-! ## Scalars -/

theorem codec_text : Codec text .str fun _ => True where
  reads _ _ := rfl
  yields _ _ _ _ := trivial

@[simp]
theorem text_str (s : String) : text (.ofJson (.str s)) = some s := rfl

theorem codec_bool : Codec bool .bool fun _ => True where
  reads _ _ := rfl
  yields _ _ _ _ := trivial

theorem holds_iff (r : Decimal.WordRange) (n : Int) : r.holds n = true ↔ r.low ≤ n ∧ n ≤ r.high := by
  rw [Decimal.WordRange.holds, Bool.and_eq_true, decide_eq_true_iff, decide_eq_true_iff]

theorem codec_word (r : Decimal.WordRange) : Codec (word r) .int fun n => r.low ≤ n ∧ n ≤ r.high where
  reads n hn := by simp [Wire.ofJson, word, (holds_iff r n).2 hn]
  yields v n _ h := by
    cases v <;> simp [Wire.ofJson, word] at h
    obtain ⟨hholds, rfl⟩ := h
    exact (holds_iff r _).1 hholds

/-- A natural number that fits a word whose range starts at zero. -/
theorem codec_natWord {r : Decimal.WordRange} (hlow : r.low = 0) :
    Codec (fun w => (word r w).map Int.toNat) (fun n => .int n) fun n : Nat => (n : Int) ≤ r.high where
  reads n hn := by simp [(codec_word r).reads n ⟨by omega, hn⟩]
  yields v n hv h := by
    obtain ⟨i, hi, rfl⟩ := Option.map_eq_some_iff.1 h
    obtain ⟨hi0, hir⟩ := (codec_word r).yields v i hv hi
    omega

theorem codec_nat64 : Codec nat64 (fun n => .int n) fun n : Nat => n < 2 ^ 64 where
  reads n hn := (codec_natWord rfl).reads n (Int.ofNat_le.2 (Nat.le_of_lt_succ hn))
  yields v n hv h := Nat.lt_succ_of_le (Int.ofNat_le.1 ((codec_natWord rfl).yields v n hv h))

theorem codec_nat32 : Codec nat32 (fun n => .int n) fun n : Nat => n < 2 ^ 32 where
  reads n hn := (codec_natWord rfl).reads n (Int.ofNat_le.2 (Nat.le_of_lt_succ hn))
  yields v n hv h := Nat.lt_succ_of_le (Int.ofNat_le.1 ((codec_natWord rfl).yields v n hv h))

theorem codec_oneOf {named : String → Option α} {name : α → String}
    (hnamed : ∀ a, named (name a) = some a) :
    Codec (oneOf named) (fun a => .str (name a)) fun _ => True where
  reads a _ := by simp [Wire.ofJson, oneOf, text, hnamed]
  yields _ _ _ _ := trivial

/-! ## Lists and tables -/

theorem all_ofJsonItems_map (hc : Codec d f P) {as : List α} (has : ∀ a ∈ as, P a) :
    all d (Wire.ofJsonItems (as.map f)) = some as := by
  induction as with
  | nil => rfl
  | cons a as ih =>
    simp only [List.forall_mem_cons] at has
    simp [Wire.ofJsonItems, all, hc.reads a has.1, ih has.2]

theorem mem_of_all {vs : List Value} {as : List α} (h : all d (Wire.ofJsonItems vs) = some as) :
    ∀ a ∈ as, ∃ v ∈ vs, d (.ofJson v) = some a := by
  induction vs generalizing as with
  | nil =>
    cases h
    simp
  | cons v vs ih =>
    simp only [Wire.ofJsonItems, all, Option.bind_eq_bind, Option.bind_eq_some_iff,
      Option.some.injEq] at h
    obtain ⟨a, ha, rest, hrest, rfl⟩ := h
    simp only [List.forall_mem_cons, List.exists_mem_cons_iff]
    exact ⟨.inl ha, fun b hb => .inr (ih hrest b hb)⟩

theorem codec_list (hc : Codec d f P) :
    Codec (list d) (fun as => .arr (as.map f)) fun as => ∀ a ∈ as, P a where
  reads as has := all_ofJsonItems_map hc has
  yields v as hv h a ha := by
    cases hv <;> try cases h
    next vs hvs =>
      obtain ⟨v, hv, hread⟩ := mem_of_all h a ha
      exact hc.yields v a (hvs v hv) hread

theorem entries_ofJsonMembers (hc : Codec d f P) {fs : Fields α} (hfs : ∀ p ∈ fs, P p.2) :
    entries d (Wire.ofJsonMembers (fs.mapValues f)) = some fs := by
  induction fs with
  | nil => rfl
  | cons p fs ih =>
    simp only [List.forall_mem_cons] at hfs
    have hrest := ih hfs.2
    simp only [Fields.mapValues] at hrest
    simp [Fields.mapValues, Wire.ofJsonMembers, entries, text, hc.reads _ hfs.1, hrest]

theorem mem_of_entries {ms : Fields Value} {pairs : List (String × α)}
    (h : entries d (Wire.ofJsonMembers ms) = some pairs) :
    ∀ p ∈ pairs, ∃ q ∈ ms, d (.ofJson q.2) = some p.2 := by
  induction ms generalizing pairs with
  | nil =>
    cases h
    simp
  | cons q ms ih =>
    simp only [Wire.ofJsonMembers, entries, text, Option.bind_eq_bind, Option.bind_eq_some_iff,
      Option.some.injEq] at h
    obtain ⟨key, rfl, a, ha, rest, hrest, rfl⟩ := h
    simp only [List.forall_mem_cons, List.exists_mem_cons_iff]
    exact ⟨.inl ha, fun p hp => .inr (ih hrest p hp)⟩

theorem codec_table (hc : Codec d f P) :
    Codec (table d) (fun fs => .obj (fs.mapValues f)) fun fs => fs.Sorted ∧ ∀ p ∈ fs, P p.2 where
  reads fs hfs := by
    simp [Wire.ofJson, table, entries_ofJsonMembers hc hfs.2, Fields.ofPairs_of_sorted hfs.1]
  yields v fs hv h := by
    cases hv <;> try cases h
    next ms hms hvalues =>
      obtain ⟨pairs, hpairs, rfl⟩ := Option.map_eq_some_iff.1 h
      refine ⟨Fields.sorted_ofPairs pairs, fun p hp => ?_⟩
      obtain ⟨q, hq, hread⟩ := mem_of_entries hpairs p (Fields.mem_of_mem_ofPairs hp)
      exact hc.yields _ _ (hvalues q hq) hread

theorem codec_texts : Codec (list text) .strings fun ss => ∀ s ∈ ss, True :=
  codec_list codec_text

theorem codec_textTable : Codec (table text) .texts fun fs => fs.Sorted ∧ ∀ p ∈ fs, True :=
  codec_table codec_text

/-! ## Any value -/

mutual

/-- A proper value is read as it is. -/
theorem json_ofJson : ∀ v : Value, v.Proper → json (.ofJson v) = some v
  | .null, _ | .bool _, _ | .int _, _ | .str _, _ => rfl
  | .float x, .float hx => by simp [Wire.ofJson, json, hx]
  | .arr vs, .arr hvs => by simp [Wire.ofJson, json, jsonItems_ofJsonItems vs hvs]
  | .obj ms, .obj hms hvalues => by
    simp [Wire.ofJson, json, jsonEntries_ofJsonMembers ms hvalues, Json.Value.object,
      Fields.ofPairs_of_sorted hms]

theorem jsonItems_ofJsonItems :
    ∀ vs : List Value, (∀ v ∈ vs, v.Proper) → jsonItems (Wire.ofJsonItems vs) = some vs
  | [], _ => rfl
  | v :: vs, h => by
    simp only [List.forall_mem_cons] at h
    simp [Wire.ofJsonItems, jsonItems, json_ofJson v h.1, jsonItems_ofJsonItems vs h.2]

theorem jsonEntries_ofJsonMembers :
    ∀ ms : Fields Value, (∀ p ∈ ms, p.2.Proper) → jsonEntries (Wire.ofJsonMembers ms) = some ms
  | [], _ => rfl
  | (k, v) :: ms, h => by
    simp only [List.forall_mem_cons] at h
    simp [Wire.ofJsonMembers, jsonEntries, text, json_ofJson v h.1,
      jsonEntries_ofJsonMembers ms h.2]

end

theorem codec_json : Codec json id Json.Value.Proper where
  reads v hv := json_ofJson v hv
  yields v w hv h := by
    rw [json_ofJson v hv] at h
    cases h
    exact hv

/-! ## Optional values -/

theorem optional_ofJson {v : Value} (hv : v ≠ .null) :
    optional d (.ofJson v) = (d (.ofJson v)).map some := by
  cases v <;> first | rfl | exact absurd rfl hv

theorem codec_orNull (hc : Codec d f P) (hf : ∀ a, P a → f a ≠ .null) :
    Codec (optional d) (.orNull f) fun o => ∀ a ∈ o, P a where
  -- A value that is written as `null` would be read as none, which is what `hf` excludes.
  reads o ho := by
    cases o with
    | none => rfl
    | some a =>
      have ha : P a := ho a rfl
      simp [Json.Value.orNull, optional_ofJson (hf a ha), hc.reads a ha]
  yields v o hv h a ha := by
    subst ha
    by_cases hnull : v = .null
    · subst hnull
      cases h
    · simp only [optional_ofJson hnull, Option.map_eq_some_iff, Option.some.injEq,
        exists_eq_right] at h
      exact hc.yields v a hv h

theorem codec_optionalText : Codec (optional text) (.orNull .str) fun o => ∀ s ∈ o, True :=
  codec_orNull codec_text (by simp)

theorem codec_optionalNat32 :
    Codec (optional nat32) (.orNull fun n : Nat => .int n) fun o => ∀ n ∈ o, n < 2 ^ 32 :=
  codec_orNull codec_nat32 (by simp)

end Decode

/-! ## Members -/

/-- What is known of the members of a record that a proper value says. -/
def Members.Proper (ms : Members) : Prop :=
  ∀ p ∈ ms, ∃ v : Value, v.Proper ∧ p.2 = .ofJson v

namespace Decode

variable {α : Type} {d : Decoder α} {f : α → Value} {P : α → Prop} {ms : Members} {name : String}
  {a fallback : α}

theorem proper_members {padded : Bool} {names : List String} {v : Value} (hv : v.Proper)
    (h : members padded names (.ofJson v) = some ms) : ms.Proper := by
  intro p hp
  cases hv <;> simp only [Wire.ofJson, members] at h <;> try cases h
  next vs hvs =>
    split at h
    · cases h
    · split at h <;> cases h
      rw [Wire.ofJsonItems_eq_map] at hp
      obtain ⟨v, hv, hpv⟩ := List.mem_map.1 (List.of_mem_zip hp).2
      exact ⟨v, hvs v hv, hpv.symm⟩
  next fs hfs hvalues =>
    split at h <;> cases h
    rw [namedMembers_ofJsonMembers] at hp
    obtain ⟨q, hq, rfl⟩ := List.mem_map.1 hp
    exact ⟨q.2, hvalues q hq, rfl⟩

theorem Codec.of_find? (hc : Codec d f P) (hms : ms.Proper) {w : Wire}
    (hw : ms.find? name = some w) (h : d w = some a) : P a := by
  have hmem : (name, w) ∈ ms := Fields.mem_of_get? ((Fields.get?_eq_lookup ms name).trans hw)
  obtain ⟨v, hv, rfl⟩ := hms _ hmem
  exact hc.yields v a hv h

theorem Codec.of_required (hc : Codec d f P) (hms : ms.Proper)
    (h : ms.required name d = some a) : P a := by
  obtain ⟨w, hw, hread⟩ := Option.bind_eq_some_iff.1 h
  exact hc.of_find? hms hw hread

theorem Codec.of_withDefault (hc : Codec d f P) (hms : ms.Proper) (hd : P fallback)
    (h : ms.withDefault name fallback d = some a) : P a := by
  unfold Members.withDefault at h
  split at h
  · cases h
    exact hd
  · next hw => exact hc.of_find? hms hw h

/-- A member that may be missing is one with a default. -/
theorem Codec.of_optional {g : Option α → Value} (hc : Codec (optional d) g fun o => ∀ a ∈ o, P a)
    (hms : ms.Proper) {o : Option α} (h : ms.optional name d = some o) : ∀ a ∈ o, P a :=
  hc.of_withDefault hms (by simp) h

/-! ## Members that are written -/

section Written

variable {fs : Fields Value}

/-- The members of a record are found in the object that it is written as. -/
theorem exists_members {v : Value} {pairs : List (String × Value)} (hv : v = .object pairs)
    (hnodup : (pairs.map Prod.fst).Nodup) :
    ∃ fs : Fields Value,
      (∀ padded names, members padded names (.ofJson v) = some (.ofFields fs)) ∧
        ∀ name {x}, Fields.get? pairs name = x → fs.get? name = x := by
  subst hv
  exact ⟨_, members_object pairs, fun name _ h => (Fields.get?_ofPairs hnodup name).trans h⟩

/-- In a record that leaves members out, a member that has no value is not found. -/
theorem exists_members_some {v : Value} {parts : List (String × Option Value)}
    (hv : v = .objectSome parts) (hnodup : (parts.map Prod.fst).Nodup) :
    ∃ fs : Fields Value,
      (∀ padded names, members padded names (.ofJson v) = some (.ofFields fs)) ∧
        ∀ name {x}, Fields.get? parts name = some x → fs.get? name = x := by
  subst hv
  refine ⟨_, members_object (Value.present parts), fun name x h => ?_⟩
  have hget := Value.get?_objectSome_eq hnodup name
  rw [h] at hget
  exact hget

theorem Codec.required_written (hc : Codec d f P) (hget : fs.get? name = some (f a)) (ha : P a) :
    (Members.ofFields fs).required name d = some a := by
  rw [Members.required, Members.find?_ofFields, hget]
  exact hc.reads a ha

theorem Codec.withDefault_written (hc : Codec d f P) (hget : fs.get? name = some (f a)) (ha : P a) :
    (Members.ofFields fs).withDefault name fallback d = some a := by
  rw [Members.withDefault, Members.find?_ofFields, hget]
  exact hc.reads a ha

theorem Codec.optional_written {g : Option α → Value}
    (hc : Codec (optional d) g fun o => ∀ a ∈ o, P a) {o : Option α}
    (hget : fs.get? name = some (g o)) (ho : ∀ a ∈ o, P a) :
    (Members.ofFields fs).optional name d = some o :=
  hc.withDefault_written hget ho

/-- A member that may be missing is left out if there is none. -/
theorem Codec.optional_omitted (hc : Codec d f P) (hf : ∀ a, P a → f a ≠ .null) {o : Option α}
    (hget : fs.get? name = o.map f) (ho : ∀ a ∈ o, P a) :
    (Members.ofFields fs).optional name d = some o := by
  cases o with
  | none => rw [Members.optional, Members.find?_ofFields, hget, Option.map_none, Option.map_none]
  | some a => exact (codec_orNull hc hf).optional_written hget ho

/-- A list that is left out if it is empty is empty where it is missing. -/
theorem Codec.withDefault_unlessEmpty {β : Type} {d : Decoder (List β)} {f : List β → Value}
    {P : List β → Prop} (hc : Codec d f P) {items : List β}
    (hget : fs.get? name = unlessEmpty f items) (hitems : P items) :
    (Members.ofFields fs).withDefault name [] d = some items := by
  cases items with
  | nil =>
    rw [Members.withDefault, Members.find?_ofFields, hget]
    rfl
  | cons b items => exact hc.withDefault_written hget hitems

end Written

end Decode

end ClusterJobs
