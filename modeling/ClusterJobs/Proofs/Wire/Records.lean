import ClusterJobs.Proofs.Wire.Codecs

/-!
# What a record is read from

A record is read from the members that it knows. A missing member counts as its default, and members
of other names count for nothing.
-/

namespace ClusterJobs

open Json (Value)

/-- The required members are the same, and so are those with defaults, where a missing one counts as
its default. -/
structure Fields.Agree (required : List String) (defaults ms ms' : Fields Value) : Prop where
  needed : ∀ name ∈ required, ms.get? name = ms'.get? name
  others : ∀ name v, defaults.get? name = some v →
    (ms.get? name).getD v = (ms'.get? name).getD v

/-- Objects that agree on the members that are known are read alike. -/
def Decode.ReadsOnly {α : Type} (d : Decoder α) (required : List String) (defaults : Fields Value) :
    Prop :=
  ∀ ms ms' : Fields Value, ms.Sorted → ms'.Sorted → Fields.Agree required defaults ms ms' →
    d (.ofJson (.obj ms)) = d (.ofJson (.obj ms'))

namespace Fields.Agree

variable {α : Type} {required : List String} {defaults ms ms' : Fields Value} {name : String}
  {v : Value} {d : Decoder α}

theorem required_eq (h : Agree required defaults ms ms') (hname : name ∈ required) :
    (Members.ofFields ms).required name d = (Members.ofFields ms').required name d := by
  rw [Members.required, Members.required, Members.find?_ofFields, Members.find?_ofFields,
    h.needed name hname]

theorem withDefault_eq {fallback : α} (h : Agree required defaults ms ms')
    (hdefault : defaults.get? name = some v) (hread : d (.ofJson v) = some fallback) :
    (Members.ofFields ms).withDefault name fallback d =
      (Members.ofFields ms').withDefault name fallback d := by
  have hvalue (fs : Fields Value) :
      (Members.ofFields fs).withDefault name fallback d = d (.ofJson ((fs.get? name).getD v)) := by
    rw [Members.withDefault, Members.find?_ofFields]
    cases fs.get? name with
    | none => exact hread.symm
    | some w => rfl
  rw [hvalue, hvalue, h.others name v hdefault]

/-- A member that may be missing is one with a default. -/
theorem optional_eq (h : Agree required defaults ms ms') (hdefault : defaults.get? name = some v)
    (hread : Decode.optional d (.ofJson v) = some none) :
    (Members.ofFields ms).optional name d = (Members.ofFields ms').optional name d :=
  h.withDefault_eq hdefault hread

end Fields.Agree

namespace Decode

variable {α β : Type}

/-- It is enough to look at what is read from the members. -/
theorem ReadsOnly.of_read {d : Decoder α} {padded : Bool} {names required : List String}
    {defaults : Fields Value} {read : Members → Option α}
    (hd : ∀ w, d w = (members padded names w).bind read)
    (hread : ∀ ms ms' : Fields Value, Fields.Agree required defaults ms ms' →
      read (.ofFields ms) = read (.ofFields ms')) :
    ReadsOnly d required defaults := by
  intro ms ms' hms hms' h
  rw [hd, hd, members_obj hms.nodup, members_obj hms'.nodup]
  exact hread ms ms' h

theorem ReadsOnly.map {d : Decoder α} {required : List String} {defaults : Fields Value}
    (h : ReadsOnly d required defaults) (f : α → β) :
    ReadsOnly (fun w => (d w).map f) required defaults := by
  intro ms ms' hms hms' hagree
  simp only [h ms ms' hms hms' hagree]

theorem bind_alike {x y : Option α} {f g : α → Option β} (hxy : x = y) (h : ∀ a, f a = g a) :
    x.bind f = y.bind g := by
  rw [hxy, funext h]

/-- What is read first is given to the rest. -/
theorem bind_of_some {x : Option α} {f : α → Option β} {a : α} {b : β} (hx : x = some a)
    (hf : f a = some b) : x.bind f = some b := by
  rw [hx, Option.bind_some, hf]

end Decode

/-! ## Members of what is read -/

namespace Json.Value

/-- The value of a member of a record, which is an object, or a list of its members in order. -/
def member? (v : Value) (names : List String) (name : String) : Option Value :=
  match v with
  | .obj ms => Fields.get? ms name
  | .arr items => Fields.get? (names.zip items) name
  | _ => none

theorem Proper.of_member? {v w : Value} {names : List String} {name : String} (hv : v.Proper)
    (h : v.member? names name = some w) : w.Proper := by
  cases hv <;> try cases h
  next items hitems => exact hitems w (List.of_mem_zip (Fields.mem_of_get? h)).2
  next ms hms hvalues => exact hvalues _ (Fields.mem_of_get? h)

/-- Which members are missing from an object whose absent members are left out. -/
theorem isNone_get?_objectSome {parts : List (String × Option Value)}
    (hnodup : (parts.map Prod.fst).Nodup) (name : String) :
    ((objectSome parts).get? name).isNone =
      ((Fields.mapValues Option.isNone parts).get? name).getD true := by
  rw [get?_objectSome_eq hnodup, Fields.get?_mapValues]
  cases Fields.get? parts name <;> rfl

theorem get?_object_of_notMem {pairs : List (String × Value)} {name : String}
    (h : name ∉ pairs.map Prod.fst) : (object pairs).get? name = none := by
  refine Fields.get?_overwrite_of_ne ?_
  rintro p hp rfl
  exact h (List.mem_map_of_mem hp)

theorem at?_pair {v w : Value} {key : String} (h : v.get? key = some w) (name : String) :
    v.at? [key, name] = w.get? name := by
  rw [at?_cons, h, Option.bind_some, at?_cons]
  exact Option.bind_fun_some _

@[simp]
theorem isNone_unlessEmpty {α : Type} (f : List α → Value) (items : List α) :
    (unlessEmpty f items).isNone = items.isEmpty := by
  cases items <;> rfl

end Json.Value

theorem Decode.find?_of_members {v : Value} {padded : Bool} {names : List String} {ms : Members}
    (hv : v.Proper) (h : members padded names (.ofJson v) = some ms) (name : String) :
    ms.find? name = (v.member? names name).map .ofJson := by
  cases hv <;> try cases h
  next items hitems =>
    have hms : ms = Fields.mapValues Wire.ofJson (names.zip items) := by
      simp only [Wire.ofJson, members, Wire.ofJsonItems_eq_map, List.zip_map_right] at h
      split at h
      · cases h
      · split at h <;> cases h
        rfl
    rw [hms, Value.member?, ← Fields.get?_mapValues, Fields.get?_eq_lookup]
    rfl
  next fs hfs hvalues =>
    rw [members_obj hfs.nodup, Option.some.injEq] at h
    rw [← h, Members.find?_ofFields]
    rfl

end ClusterJobs
