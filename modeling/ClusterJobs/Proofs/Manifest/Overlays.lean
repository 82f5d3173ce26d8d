import ClusterJobs.Proofs.Manifest.Compiled

/-!
# Overlays

An overlay changes nothing but what stands at the paths of its edits. Two paths lie apart if neither
leads through the other. What stands apart from every edit is as authored, and a value that is written
stays as long as every later edit is apart from it.
-/

namespace ClusterJobs.Json

/-! ## Paths -/

/-- The paths part at some member, so neither leads through the other. -/
def Path.Apart : Path → Path → Prop
  | key :: rest, other :: rest' => key ≠ other ∨ Apart rest rest'
  | _, _ => False

namespace Path

variable {path other rest : Path} {key key' : String}

@[simp] theorem apart_cons {rest' : Path} :
    Apart (key :: rest) (key' :: rest') ↔ key ≠ key' ∨ Apart rest rest' :=
  .rfl

theorem Apart.ne_nil (h : Apart path other) : other ≠ [] := by
  rintro rfl
  cases path <;> exact h

theorem Apart.append (h : Apart path other) (below : Path) : Apart path (other ++ below) := by
  induction path generalizing other with
  | nil => exact h.elim
  | cons key path ih =>
    cases other with
    | nil => exact h.elim
    | cons key' other => exact Or.imp_right ih h

theorem Apart.append_left (h : Apart path other) (below : Path) : Apart (path ++ below) other := by
  induction path generalizing other with
  | nil => exact h.elim
  | cons key path ih =>
    cases other with
    | nil => exact h.elim
    | cons key' other => exact Or.imp_right ih h

/-- Members of different names lie apart, whatever is below them. -/
theorem apart_of_ne (path : Path) (hne : key ≠ key') (rest rest' : Path) :
    Apart (path ++ key :: rest) (path ++ key' :: rest') := by
  induction path with
  | nil => exact .inl hne
  | cons _ path ih => exact .inr ih

/-- What is apart from a member is apart from the parent, or below another member of it. -/
theorem apart_member (h : Apart (path ++ [key]) other) :
    Apart path other ∨ ∃ key' rest, other = path ++ key' :: rest ∧ key ≠ key' := by
  induction path generalizing other with
  | nil =>
    cases other with
    | nil => exact h.elim
    | cons key' rest => exact .inr ⟨key', rest, rfl, h.resolve_right fun h => h.elim⟩
  | cons first path ih =>
    cases other with
    | nil => exact h.elim
    | cons first' other =>
      rcases h with hne | h
      · exact .inl (.inl hne)
      · by_cases hfirst : first = first'
        · subst hfirst
          rcases ih h with h | ⟨key', rest, rfl, hne⟩
          · exact .inl (.inr h)
          · exact .inr ⟨key', rest, rfl, hne⟩
        · exact .inl (.inl hfirst)

end Path

/-! ## Values at paths -/

namespace Value

variable {v new : Value} {path other : Path}

theorem at?_append (v : Value) (path rest : Path) :
    v.at? (path ++ rest) = (v.at? path).bind (·.at? rest) := by
  induction path generalizing v with
  | nil => rfl
  | cons key path ih =>
    rw [List.cons_append, at?_cons, at?_cons, Option.bind_assoc]
    exact congrArg _ (funext fun w => ih w)

theorem at?_concat (v : Value) (path : Path) (key : String) :
    v.at? (path ++ [key]) = (v.at? path).bind (·.get? key) := by
  rw [at?_append]
  refine congrArg _ (funext fun w => ?_)
  exact Option.bind_fun_some (w.get? key)

/-- The value with another one at a path. On the way every value that is not an object is replaced by
one. -/
def plant (v : Value) : Path → Value → Value
  | [], new => new
  | key :: rest, new => v.withMember key ((v.member key).plant rest new)

theorem member_eq (v : Value) (key : String) : v.member key = (v.get? key).getD .null := by
  cases v <;> rfl

theorem at?_null {path : Path} (h : path ≠ []) : Value.null.at? path = none := by
  cases path with
  | nil => exact absurd rfl h
  | cons key rest => rfl

theorem exists_obj_of_get? {key : String} (h : v.get? key = some new) : ∃ ms, v = .obj ms := by
  cases v with
  | obj ms => exact ⟨ms, rfl⟩
  | _ => cases h

/-- Below a member that is missing there is nothing. -/
theorem at?_member (v : Value) (key : String) {rest : Path} (h : rest ≠ []) :
    (v.member key).at? rest = v.at? (key :: rest) := by
  rw [member_eq, at?_cons]
  cases v.get? key with
  | none => exact at?_null h
  | some w => rfl

theorem getD_at?_member (v : Value) (key : String) (rest : Path) :
    ((v.member key).at? rest).getD .null = (v.at? (key :: rest)).getD .null := by
  cases rest with
  | nil =>
    rw [member_eq, at?_cons]
    cases v.get? key <;> rfl
  | cons key' rest => rw [at?_member v key (List.cons_ne_nil _ _)]

/-- A change of what stands at a path plants the changed value there. -/
theorem updateAt_eq {ε : Type} (v : Value) (path : Path) (f : Value → Except ε Value) :
    v.updateAt path f = (f ((v.at? path).getD .null)).map (v.plant path) := by
  induction path generalizing v with
  | nil =>
    rw [updateAt, at?, Option.getD_some]
    cases f v <;> rfl
  | cons key rest ih =>
    rw [updateAt, ih, getD_at?_member]
    cases f ((v.at? (key :: rest)).getD .null) <;> rfl

theorem at?_plant_append (v : Value) (path : Path) (new : Value) (rest : Path) :
    (v.plant path new).at? (path ++ rest) = new.at? rest := by
  induction path generalizing v with
  | nil => rfl
  | cons key path ih =>
    rw [plant, List.cons_append, at?_cons, get?_withMember, if_pos rfl]
    exact ih _

theorem at?_plant_self (v : Value) (path : Path) (new : Value) :
    (v.plant path new).at? path = some new := by
  have h := at?_plant_append v path new []
  rwa [List.append_nil] at h

theorem at?_plant_of_apart (h : path.Apart other) :
    (v.plant path new).at? other = v.at? other := by
  induction path generalizing v other with
  | nil => exact h.elim
  | cons key path ih =>
    cases other with
    | nil => exact h.elim
    | cons key' other =>
      rw [plant, at?_cons, get?_withMember]
      split
      · next heq =>
        subst heq
        have hapart : Path.Apart path other := h.resolve_left fun hne => hne rfl
        rw [Option.bind_some, ih hapart, at?_member v key hapart.ne_nil]
      · exact (at?_cons v key' other).symm

end Value

/-! ## Edits -/

namespace Edit

variable {e : Edit} {es fs : List Edit} {v w new : Value} {path other parent : Path} {key : String}
  {ms added : List (String × Value)} {items : List Value}

/-- Where an edit writes. -/
def place : Edit → Path
  | set path _ => path
  | assign parent key _ => parent ++ [key]
  | extendFirst base path _ => base ++ path
  | drop parent key => parent ++ [key]

@[simp] theorem place_set : (set path new).place = path := rfl

@[simp] theorem place_assign : (assign parent key new).place = parent ++ [key] := rfl

@[simp] theorem place_extendFirst : (extendFirst parent path added).place = parent ++ path := rfl

@[simp] theorem place_drop : (drop parent key).place = parent ++ [key] := rfl

theorem apply_set_eq_ok_iff : (set path new).apply v = .ok w ↔ w = v.plant path new := by
  rw [apply, Value.updateAt_eq, map_eq_ok_iff]
  constructor
  · rintro ⟨x, hx, rfl⟩
    cases hx
    rfl
  · rintro rfl
    exact ⟨new, rfl, rfl⟩

/-- A member is only assigned to an object or to `null`, and no other member of it changes. -/
theorem exists_of_assign (h : (assign parent key new).apply v = .ok w) :
    ∃ object, w = v.plant parent object ∧ object.get? key = some new ∧
      ∀ other, key ≠ other → object.get? other = ((v.at? parent).getD .null).get? other := by
  rw [apply, Value.updateAt_eq, map_eq_ok_iff] at h
  obtain ⟨object, hobject, rfl⟩ := h
  refine ⟨object, rfl, ?_⟩
  cases hold : (v.at? parent).getD .null with
  | obj ms =>
    rw [hold] at hobject
    cases hobject
    exact ⟨Fields.get?_put_self ms key new, fun other hne => Fields.get?_put_of_ne ms new hne⟩
  | null =>
    rw [hold] at hobject
    cases hobject
    exact ⟨if_pos rfl, fun other hne => if_neg hne⟩
  | _ =>
    rw [hold] at hobject
    cases hobject

/-- The first item of the list gains the members, and all else of the list stays. -/
theorem exists_of_extendFirst (h : (extendFirst parent path added).apply v = .ok w) :
    ∃ ms items, v.at? (parent ++ path) = some (.arr (.obj ms :: items)) ∧
      w = v.plant (parent ++ path) (.arr (Value.extend ms added :: items)) := by
  rw [apply, Value.updateAt_eq, map_eq_ok_iff] at h
  obtain ⟨new, hnew, rfl⟩ := h
  unfold Value.extendFirst at hnew
  split at hnew
  · next ms items hold =>
    cases hnew
    refine ⟨ms, items, ?_, rfl⟩
    cases hat : v.at? (parent ++ path) with
    | none =>
      rw [hat] at hold
      cases hold
    | some old =>
      rw [hat] at hold
      exact congrArg some hold
  · cases hnew

theorem exists_of_drop (h : (drop parent key).apply v = .ok w) :
    ∃ object, w = v.plant parent object ∧ object.get? key = none ∧
      (∀ other, key ≠ other → object.get? other = ((v.at? parent).getD .null).get? other) ∧
      object.items = ((v.at? parent).getD .null).items := by
  rw [apply, Value.updateAt_eq, map_eq_ok_iff] at h
  obtain ⟨object, hobject, rfl⟩ := h
  refine ⟨object, rfl, ?_⟩
  cases hold : (v.at? parent).getD .null with
  | obj ms =>
    rw [hold] at hobject
    cases hobject
    exact ⟨(Fields.get?_remove ms key key).trans (if_pos rfl),
      fun other hne => (Fields.get?_remove ms key other).trans (if_neg hne), rfl⟩
  | _ =>
    rw [hold] at hobject
    cases hobject
    exact ⟨rfl, fun _ _ => rfl, rfl⟩

theorem exists_apply_assign (h : v.at? parent = some (.obj ms)) :
    ∃ w, (assign parent key new).apply v = .ok w := by
  rw [apply, Value.updateAt_eq, h]
  exact ⟨_, rfl⟩

theorem exists_apply_extendFirst (h : v.at? (parent ++ path) = some (.arr (.obj ms :: items))) :
    ∃ w, (extendFirst parent path added).apply v = .ok w := by
  rw [apply, Value.updateAt_eq, h]
  exact ⟨_, rfl⟩

/-- A value that agrees with what it is planted over, but for one member, leaves all as it was that is
apart from the member. -/
theorem at?_plant_of_apart_member {object : Value}
    (hother : ∀ other, key ≠ other → object.get? other = ((v.at? parent).getD .null).get? other)
    (h : Path.Apart (parent ++ [key]) other) : (v.plant parent object).at? other = v.at? other := by
  rcases Path.apart_member h with h | ⟨key', rest, rfl, hne⟩
  · exact Value.at?_plant_of_apart h
  · rw [Value.at?_plant_append, Value.at?_append, Value.at?_cons, hother key' hne]
    cases v.at? parent <;> rfl

/-- What stands apart from an edit is as before. -/
theorem at?_apply_of_apart (h : e.apply v = .ok w) (hapart : Path.Apart e.place other) :
    w.at? other = v.at? other := by
  cases e with
  | set path new =>
    obtain rfl := apply_set_eq_ok_iff.1 h
    exact Value.at?_plant_of_apart hapart
  | assign parent key new =>
    obtain ⟨object, rfl, -, hother⟩ := exists_of_assign h
    exact at?_plant_of_apart_member hother hapart
  | extendFirst base path added =>
    obtain ⟨ms, items, -, rfl⟩ := exists_of_extendFirst h
    exact Value.at?_plant_of_apart hapart
  | drop parent key =>
    obtain ⟨object, rfl, -, hother, -⟩ := exists_of_drop h
    exact at?_plant_of_apart_member hother hapart

/-! ## Lists of edits -/

theorem applyAll_append_eq_ok_iff :
    applyAll (es ++ fs) v = .ok w ↔ ∃ u, applyAll es v = .ok u ∧ applyAll fs u = .ok w := by
  induction es generalizing v with
  | nil =>
    constructor
    · exact fun h => ⟨v, rfl, h⟩
    · rintro ⟨u, hu, h⟩
      cases hu
      exact h
  | cons e es ih =>
    rw [List.cons_append, applyAll, applyAll, bind_eq_ok_iff]
    constructor
    · rintro ⟨x, hx, h⟩
      obtain ⟨u, hu, h⟩ := ih.1 h
      exact ⟨u, bind_eq_ok_iff.2 ⟨x, hx, hu⟩, h⟩
    · rintro ⟨u, hu, h⟩
      obtain ⟨x, hx, hu⟩ := bind_eq_ok_iff.1 hu
      exact ⟨x, hx, ih.2 ⟨u, hu, h⟩⟩

/-- What stands apart from all edits is as before. -/
theorem at?_applyAll_of_apart (h : applyAll es v = .ok w)
    (hapart : ∀ e ∈ es, Path.Apart e.place other) : w.at? other = v.at? other := by
  induction es generalizing v with
  | nil =>
    cases h
    rfl
  | cons e es ih =>
    obtain ⟨u, hu, h⟩ := bind_eq_ok_iff.1 h
    exact (ih h fun f hf => hapart f (.tail _ hf)).trans
      (at?_apply_of_apart hu (hapart e (.head _)))

/-- An edit that is last at its place decides what stands there. -/
theorem exists_apply_of_applyAll (h : applyAll (es ++ e :: fs) v = .ok w) :
    ∃ u u', applyAll es v = .ok u ∧ e.apply u = .ok u' ∧
      ∀ other, (∀ f ∈ fs, Path.Apart f.place other) → w.at? other = u'.at? other := by
  obtain ⟨u, hu, h⟩ := applyAll_append_eq_ok_iff.1 h
  obtain ⟨u', hu', h⟩ := bind_eq_ok_iff.1 h
  exact ⟨u, u', hu, hu', fun other hapart => at?_applyAll_of_apart h hapart⟩

/-- A value that is written at a path is there in the end if every other edit is apart from it. -/
theorem at?_of_mem_set (h : applyAll es v = .ok w) (hmem : set path new ∈ es)
    (hall : ∀ e ∈ es, e = set path new ∨ Path.Apart e.place path) : w.at? path = some new := by
  induction es generalizing v with
  | nil => cases hmem
  | cons e es ih =>
    obtain ⟨u, hu, h⟩ := bind_eq_ok_iff.1 h
    by_cases hlater : set path new ∈ es
    · exact ih h hlater fun f hf => hall f (.tail _ hf)
    · obtain rfl : set path new = e := (List.mem_cons.1 hmem).resolve_right hlater
      have hrest : ∀ f ∈ es, Path.Apart f.place path := fun f hf =>
        (hall f (.tail _ hf)).resolve_left fun heq => hlater (heq ▸ hf)
      obtain rfl := apply_set_eq_ok_iff.1 hu
      exact (at?_applyAll_of_apart h hrest).trans (Value.at?_plant_self v path new)

theorem forall_mem_setSome {α : Type} {f : α → Value} {x : Option α} {p : Edit → Prop} :
    (∀ e ∈ setSome path f x, p e) ↔ ∀ a, x = some a → p (set path (f a)) := by
  cases x <;> simp [setSome]

end Edit

end ClusterJobs.Json
