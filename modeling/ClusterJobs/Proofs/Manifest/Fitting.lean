import ClusterJobs.Proofs.Manifest.Envelopes

/-!
# Overlays that fit

A member can be assigned where an object stands, and a container be written where a list begins with
one; every other edit can always be made. What an edit needs stays as long as every earlier edit writes
elsewhere, or below the object. The overlays of all jobs fit the built-in templates, so no built-in
template makes a job fail.
-/

namespace ClusterJobs

namespace Json

/-! ## What edits need -/

namespace Value

/-- There is an object at a path. -/
def ObjectAt (v : Value) (path : Path) : Prop :=
  ∃ ms, v.at? path = some (.obj ms)

/-- There is a list at a path whose first item is an object. -/
def ItemAt (v : Value) (path : Path) : Prop :=
  ∃ ms items, v.at? path = some (.arr (.obj ms :: items))

variable {v : Value} {path rest : Path}

/-- Whatever leads to a list is an object. -/
theorem ItemAt.objectAt {key : String} (h : v.ItemAt (path ++ key :: rest)) : v.ObjectAt path := by
  obtain ⟨ms, items, hat⟩ := h
  rw [at?_append] at hat
  obtain ⟨object, hobject, hrest⟩ := Option.bind_eq_some_iff.1 hat
  obtain ⟨member, hmember, -⟩ := Option.bind_eq_some_iff.1 hrest
  obtain ⟨members, rfl⟩ := exists_obj_of_get? hmember
  exact ⟨members, hobject⟩

/-- A value that is planted below a path leaves an object there. -/
theorem objectAt_plant (v : Value) (path : Path) (key : String) (rest : Path) (new : Value) :
    (v.plant (path ++ key :: rest) new).ObjectAt path := by
  induction path generalizing v with
  | nil => exact ⟨_, rfl⟩
  | cons first path ih =>
    obtain ⟨ms, h⟩ := ih (v.member first)
    refine ⟨ms, ?_⟩
    rw [List.cons_append, plant, at?_cons, get?_withMember, if_pos rfl]
    exact h

end Value

namespace Edit

variable {e f : Edit} {es fs : List Edit} {v w : Value} {path : Path}

/-- The edit can be made: it finds what it needs. -/
def Fits (v : Value) : Edit → Prop
  | set _ _ | drop _ _ => True
  | assign parent _ _ => v.ObjectAt parent
  | extendFirst base path _ => v.ItemAt (base ++ path)

/-- The edit writes below a path. -/
def WritesBelow (e : Edit) (path : Path) : Prop :=
  ∃ key rest, e.place = path ++ key :: rest

/-- The first edit leaves what the second one needs. -/
def Spares (e : Edit) : Edit → Prop
  | set _ _ | drop _ _ => True
  | assign parent _ _ => Path.Apart e.place parent ∨ e.WritesBelow parent
  | extendFirst base path _ => Path.Apart e.place (base ++ path)

theorem exists_apply (h : e.Fits v) : ∃ w, e.apply v = .ok w := by
  cases e with
  | set path new => exact ⟨_, apply_set_eq_ok_iff.2 rfl⟩
  | drop parent key => exact ⟨_, Value.updateAt_eq ..⟩
  | assign parent key new =>
    obtain ⟨ms, hat⟩ := h
    exact exists_apply_assign hat
  | extendFirst base path added =>
    obtain ⟨ms, items, hat⟩ := h
    exact exists_apply_extendFirst hat

/-- What an edit below an object writes is a member of the object, or stands below one. -/
theorem parent_of_below {parent rest : Path} {member key : String}
    (h : parent ++ [member] = path ++ key :: rest) :
    parent = path ∨ ∃ rest', parent = path ++ key :: rest' := by
  rcases List.eq_nil_or_concat rest with rfl | ⟨rest', last, rfl⟩
  · exact .inl (List.append_inj' h rfl).1
  · rw [List.concat_eq_append, ← List.cons_append, ← List.append_assoc] at h
    exact .inr ⟨rest', (List.append_inj' h rfl).1⟩

/-- An edit below an object leaves an object. -/
theorem objectAt_of_below (hobject : v.ObjectAt path) (h : e.apply v = .ok w)
    (hbelow : e.WritesBelow path) : w.ObjectAt path := by
  obtain ⟨key, rest, hplace⟩ := hbelow
  cases e with
  | set other new =>
    obtain rfl := apply_set_eq_ok_iff.1 h
    obtain rfl : other = path ++ key :: rest := hplace
    exact Value.objectAt_plant v path key rest new
  | extendFirst base other added =>
    obtain ⟨ms, items, -, rfl⟩ := exists_of_extendFirst h
    rw [place_extendFirst] at hplace
    rw [hplace]
    exact Value.objectAt_plant v path key rest _
  | assign parent member new =>
    obtain ⟨object, rfl, hmember, -⟩ := exists_of_assign h
    rcases parent_of_below hplace with rfl | ⟨rest', rfl⟩
    · obtain ⟨ms, rfl⟩ := Value.exists_obj_of_get? hmember
      exact ⟨ms, Value.at?_plant_self v parent _⟩
    · exact Value.objectAt_plant v path key rest' object
  | drop parent member =>
    rw [apply, Value.updateAt_eq, map_eq_ok_iff] at h
    obtain ⟨object, hdropped, rfl⟩ := h
    rcases parent_of_below hplace with rfl | ⟨rest', rfl⟩
    · obtain ⟨ms, hat⟩ := hobject
      rw [hat] at hdropped
      cases hdropped
      exact ⟨_, Value.at?_plant_self v parent _⟩
    · exact Value.objectAt_plant v path key rest' object

theorem Fits.apply (hfits : f.Fits v) (h : e.apply v = .ok w) (hspares : e.Spares f) :
    f.Fits w := by
  cases f with
  | set path new => trivial
  | drop parent key => trivial
  | assign parent key new =>
    rcases hspares with hapart | hbelow
    · obtain ⟨ms, hat⟩ := hfits
      exact ⟨ms, (at?_apply_of_apart h hapart).trans hat⟩
    · exact objectAt_of_below hfits h hbelow
  | extendFirst base path added =>
    obtain ⟨ms, items, hat⟩ := hfits
    exact ⟨ms, items, (at?_apply_of_apart h hspares).trans hat⟩

/-- The edit needs nothing. -/
def Free : Edit → Prop
  | set _ _ | drop _ _ => True
  | assign _ _ _ | extendFirst _ _ _ => False

theorem free_setSome {α : Type} {g : α → Value} {x : Option α} :
    ∀ e ∈ setSome path g x, e.Free :=
  forall_mem_setSome.2 fun _ _ => trivial

theorem Free.fits (h : e.Free) (v : Value) : e.Fits v := by
  cases e <;> trivial

theorem Free.spares (h : f.Free) (e : Edit) : e.Spares f := by
  cases f <;> trivial

/-- Edits that fit can all be made if none takes away what a later one needs. -/
theorem exists_applyAll (hfits : ∀ e ∈ es, e.Fits v) (hspares : es.Pairwise Spares) :
    ∃ w, applyAll es v = .ok w := by
  induction es generalizing v with
  | nil => exact ⟨v, rfl⟩
  | cons e es ih =>
    obtain ⟨hspares, hlater⟩ := List.pairwise_cons.1 hspares
    obtain ⟨u, hu⟩ := exists_apply (hfits e (.head _))
    obtain ⟨w, hw⟩ := ih (fun f hf => (hfits f (.tail _ hf)).apply hu (hspares f hf)) hlater
    exact ⟨w, bind_eq_ok_iff.2 ⟨u, hu, hw⟩⟩

/-- Edits that need nothing may follow. -/
theorem exists_applyAll_append (hfits : ∀ e ∈ es, e.Fits v) (hspares : es.Pairwise Spares)
    (hfree : ∀ f ∈ fs, f.Free) : ∃ w, applyAll (es ++ fs) v = .ok w := by
  refine exists_applyAll (List.forall_mem_append.2 ⟨hfits, fun f hf => (hfree f hf).fits v⟩) ?_
  refine List.pairwise_append.2 ⟨hspares, ?_, fun e _ f hf => (hfree f hf).spares e⟩
  exact List.pairwise_of_forall_mem_list fun e _ f hf => (hfree f hf).spares e

end Edit

end Json

open Json (Value Path Edit)

/-! ## The overlays of jobs -/

section Overlays

variable {id : Identity} {v : Value}

theorem Identity.free_labelEdits {base : Path} : ∀ e ∈ id.labelEdits base, e.Free := by
  intro e he
  obtain ⟨p, -, rfl⟩ := Identity.mem_labelEdits.1 he
  trivial

/-- The identity can be written wherever there are metadata, and changes nothing else. -/
theorem Identity.exists_applyAll_edits (id : Identity) (hmetadata : v.ObjectAt ["metadata"]) :
    ∃ named, Edit.applyAll id.edits v = .ok named ∧
      ∀ rest, named.at? ("spec" :: rest) = v.at? ("spec" :: rest) := by
  obtain ⟨named, h⟩ : ∃ named, Edit.applyAll id.edits v = .ok named := by
    refine Edit.exists_applyAll_append ?_ ?_ Identity.free_labelEdits
    · simpa [Edit.Fits] using hmetadata
    · have hbelow : Edit.WritesBelow (.assign ["metadata"] "name" (.str id.name)) ["metadata"] :=
        ⟨"name", [], rfl⟩
      simpa [Edit.Spares] using .inr hbelow
  refine ⟨named, h, fun rest => Edit.at?_applyAll_of_apart h fun e he => ?_⟩
  exact Identity.apart_of_mem_edits he (by simp) rest

theorem exists_applyAll_flinkEdits (b : Blueprint) (id : Identity) (p : FlinkParams)
    (hcontainers : v.ItemAt ["spec", "podTemplate", "spec", "containers"]) :
    ∃ w, Edit.applyAll (flinkEdits b id p) v = .ok w := by
  have hspec : v.ObjectAt ["spec"] := Value.ItemAt.objectAt hcontainers
  unfold flinkEdits
  simp only [List.append_assoc]
  refine Edit.exists_applyAll_append ?_ ?_ ?_
  · simpa [Edit.Fits] using ⟨hspec, hcontainers⟩
  · have hbelow (key : String) (value : Value) :
        Edit.WritesBelow (.assign ["spec"] key value) ["spec"] := ⟨key, [], rfl⟩
    simp [Edit.Spares, hbelow]
  · simp only [List.forall_mem_append]
    exact ⟨Edit.free_setSome, Edit.free_setSome, Edit.free_setSome, Edit.free_setSome,
      Edit.free_setSome⟩

theorem exists_applyAll_sparkEdits (b : Blueprint) (id : Identity) (p : SparkParams)
    (arguments : List String) (hspec : v.ObjectAt ["spec"]) :
    ∃ w, Edit.applyAll (sparkEdits b id p arguments) v = .ok w := by
  have hbelow (key : String) (value : Value) :
      Edit.WritesBelow (.assign ["spec"] key value) ["spec"] := ⟨key, [], rfl⟩
  unfold sparkEdits
  simp only [List.append_assoc]
  -- The edits that assign come first.
  rw [← List.append_assoc]
  refine Edit.exists_applyAll_append ?_ ?_ ?_
  · split <;> simpa [Edit.Fits] using hspec
  · split <;> simp [Edit.Spares, hbelow]
  · simp only [List.forall_mem_append, List.forall_mem_flatMap]
    refine ⟨Edit.free_setSome, Edit.free_setSome, Edit.free_setSome, Edit.free_setSome, ?_,
      fun role _ => ⟨Identity.free_labelEdits, ?_⟩, Edit.free_setSome, Edit.free_setSome,
      Edit.free_setSome, Edit.free_setSome, Edit.free_setSome, Edit.free_setSome⟩
    · split <;> simp [Edit.Free]
    · simp [Edit.Free]

end Overlays

end ClusterJobs
