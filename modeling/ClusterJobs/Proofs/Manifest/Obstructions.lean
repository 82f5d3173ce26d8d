import ClusterJobs.Proofs.Manifest.Labels
import ClusterJobs.Proofs.Manifest.Readings

/-!
# Templates that obstruct an overlay

A member is assigned to the metadata of an operator's object, to the specification of a Flink or Spark
job, and to each role of a training job that has pods. Whatever is in the way becomes an object, but a
scalar or a list that stands in one of these places itself takes no member. All other edits can be made,
or fail because a container is missing.
-/

namespace ClusterJobs

namespace Json

/-! ## The fault of an edit -/

namespace Value

/-- A member can be assigned: the value is an object, or `null`, which becomes one. -/
def takesMember : Value → Bool
  | .obj _ | .null => true
  | _ => false

/-- A member can be assigned to what stands at a path. What is missing counts as `null`. -/
def Takes (v : Value) (path : Path) : Prop :=
  ((v.at? path).getD .null).takesMember = true

instance (v : Value) (path : Path) : Decidable (v.Takes path) :=
  inferInstanceAs (Decidable (_ = true))

/-- The fault of assigning a member to what stands at a path. -/
def refusal? (v : Value) (path : Path) (key : String) : Option OverlayFault :=
  if v.Takes path then none else some (.memberOfScalar key)

/-- The fault of writing members of the first item of a list. -/
def noItem? (v : Value) (base path : Path) : Option OverlayFault :=
  match (v.at? (base ++ path)).getD .null with
  | .arr (.obj _ :: _) => none
  | _ => some (.noFirstItem path)

variable {v w new : Value} {base path : Path} {key : String} {added : List (String × Value)}

theorem faultOf_assign : faultOf (v.assign key new) =
    if v.takesMember = true then none else some (.memberOfScalar key) := by
  cases v <;> rfl

theorem faultOf_extendFirst :
    faultOf (Value.extendFirst path added ((v.at? (base ++ path)).getD .null)) =
      v.noItem? base path := by
  unfold extendFirst noItem?
  cases (v.at? (base ++ path)).getD .null with
  | arr items =>
    cases items with
    | nil => rfl
    | cons item rest => cases item <;> rfl
  | _ => rfl

theorem noItem?_eq_none_iff : v.noItem? base path = none ↔ v.ItemAt (base ++ path) := by
  unfold noItem? ItemAt
  split
  · next ms items hat =>
    refine iff_of_true rfl ⟨ms, items, ?_⟩
    cases hold : v.at? (base ++ path) with
    | none =>
      rw [hold] at hat
      cases hat
    | some old =>
      rw [hold] at hat
      exact congrArg some hat
  · next hnot =>
    refine iff_of_false nofun ?_
    rintro ⟨ms, items, hat⟩
    exact hnot ms items (by rw [hat]; rfl)

theorem noItem?_ne : v.noItem? base path ≠ some (.memberOfScalar key) := by
  unfold noItem?
  split <;> simp

theorem Takes.of_objectAt (h : v.ObjectAt path) : v.Takes path := by
  obtain ⟨ms, hat⟩ := h
  rw [Takes, hat]
  rfl

theorem takes_congr (h : w.at? path = v.at? path) : w.Takes path ↔ v.Takes path := by
  rw [Takes, Takes, h]

theorem refusal?_congr (h : w.at? path = v.at? path) :
    w.refusal? path key = v.refusal? path key := by
  simp only [refusal?, takes_congr h]

theorem noItem?_congr (h : w.at? (base ++ path) = v.at? (base ++ path)) :
    w.noItem? base path = v.noItem? base path := by
  rw [noItem?, noItem?, h]

end Value

namespace Edit

variable {e f : Edit} {es : List Edit} {v w new : Value} {base path : Path} {key : String}
  {added : List (String × Value)}

/-- The fault of an edit of a value. -/
def fault? (v : Value) : Edit → Option OverlayFault
  | set _ _ | drop _ _ => none
  | assign parent key _ => v.refusal? parent key
  | extendFirst base path _ => v.noItem? base path

theorem faultOf_apply : faultOf (e.apply v) = e.fault? v := by
  cases e with
  | set path new => rw [apply, Value.updateAt_eq, faultOf_map]; rfl
  | drop parent key => rw [apply, Value.updateAt_eq, faultOf_map]; rfl
  | assign parent key new =>
    rw [apply, Value.updateAt_eq, faultOf_map]
    exact Value.faultOf_assign
  | extendFirst base path added =>
    rw [apply, Value.updateAt_eq, faultOf_map]
    exact Value.faultOf_extendFirst

/-- The first edit, once made, leaves the second one as able or unable as it was. -/
def Leaves (e : Edit) : Edit → Prop
  | set _ _ | drop _ _ => True
  | assign parent _ _ => Path.Apart e.place parent ∨ ∃ key new, e = assign parent key new
  | extendFirst base path _ => Path.Apart e.place (base ++ path)

theorem fault?_of_leaves (h : e.apply v = .ok w) (hleaves : e.Leaves f) :
    f.fault? w = f.fault? v := by
  cases f with
  | set path new => rfl
  | drop parent key => rfl
  | extendFirst base path added => exact Value.noItem?_congr (at?_apply_of_apart h hleaves)
  | assign parent key new =>
    rcases hleaves with hapart | ⟨key', new', rfl⟩
    · exact Value.refusal?_congr (at?_apply_of_apart h hapart)
    · -- What took one member takes another, before and after.
      have hv : v.Takes parent := by
        have hnone := faultOf_eq_none_iff.2 ⟨w, h⟩
        rw [faultOf_apply, fault?, Value.refusal?] at hnone
        by_contra hnot
        rw [if_neg hnot] at hnone
        cases hnone
      obtain ⟨object, rfl, hmember, -⟩ := exists_of_assign h
      obtain ⟨ms, rfl⟩ := Value.exists_obj_of_get? hmember
      have hw := Value.Takes.of_objectAt ⟨ms, Value.at?_plant_self v parent (.obj ms)⟩
      rw [fault?, fault?, Value.refusal?, Value.refusal?, if_pos hv, if_pos hw]

/-- Edits fail with the fault of the first of them that cannot be made in the value they begin with. -/
theorem faultOf_applyAll (hleaves : es.Pairwise Leaves) :
    faultOf (applyAll es v) = es.findSome? (fault? v) := by
  induction es generalizing v with
  | nil => rfl
  | cons e es ih =>
    obtain ⟨hfirst, hlater⟩ := List.pairwise_cons.1 hleaves
    rw [findSome?_cons_or, ← faultOf_apply]
    refine faultOf_bind fun w hw => (ih hlater).trans ?_
    exact findSome?_congr fun f hf => fault?_of_leaves hw (hfirst f hf)

theorem applyAll_append (es fs : List Edit) (v : Value) :
    applyAll (es ++ fs) v = applyAll es v >>= applyAll fs := by
  induction es generalizing v with
  | nil => rfl
  | cons e es ih =>
    rw [List.cons_append, applyAll, applyAll, bind_assoc]
    exact bind_congr ih

theorem Free.fault?_eq_none (h : e.Free) : e.fault? v = none := by
  cases e with
  | set | drop => rfl
  | assign | extendFirst => exact h.elim

theorem Free.leaves (h : f.Free) (e : Edit) : e.Leaves f := by
  cases f with
  | set | drop => trivial
  | assign | extendFirst => exact h.elim

theorem findSome?_eq_none_of_free (h : ∀ e ∈ es, e.Free) : es.findSome? (fault? v) = none :=
  List.findSome?_eq_none_iff.2 fun e he => (h e he).fault?_eq_none

/-- Edits that need nothing may follow. -/
theorem faultOf_applyAll_append {fs : List Edit} (hleaves : es.Pairwise Leaves)
    (hfree : ∀ f ∈ fs, f.Free) : faultOf (applyAll (es ++ fs) v) = es.findSome? (fault? v) := by
  rw [faultOf_applyAll, List.findSome?_append, findSome?_eq_none_of_free hfree, Option.or_none]
  refine List.pairwise_append.2 ⟨hleaves, ?_, fun e _ f hf => (hfree f hf).leaves e⟩
  exact List.pairwise_of_forall_mem_list fun e _ f hf => (hfree f hf).leaves e

end Edit

end Json

open Json (Value Path Edit OverlayFault)

/-! ## The faults of overlays -/

section Overlays

variable {id : Identity} {v w : Value} {es : List Edit} {name : TemplateName} {fault : JobFault}

theorem faultOf_overlay_eq (name : TemplateName) (es : List Edit) (v : Value) :
    faultOf (overlay name es v) = (faultOf (Edit.applyAll es v)).map (overlayFault name) := by
  unfold overlay
  cases Edit.applyAll es v <;> rfl

/-- An identity is refused by metadata that take no name. -/
theorem Identity.faultOf_applyAll_edits (id : Identity) (v : Value) :
    faultOf (Edit.applyAll id.edits v) = v.refusal? ["metadata"] "name" := by
  rw [Identity.edits, Edit.faultOf_applyAll_append ?_ Identity.free_labelEdits]
  · simp only [findSome?_cons_or, List.findSome?_nil, Edit.fault?, Value.refusal?]
    split <;> rfl
  · simp [Edit.Leaves]

theorem faultOf_applyAll_flinkEdits (b : Blueprint) (id : Identity) (p : FlinkParams) (v : Value) :
    faultOf (Edit.applyAll (flinkEdits b id p) v) = (v.refusal? ["spec"] "image").or
      (v.noItem? ["spec"] ["podTemplate", "spec", "containers"]) := by
  unfold flinkEdits
  simp only [List.append_assoc]
  rw [Edit.faultOf_applyAll_append]
  · simp only [findSome?_cons_or, List.findSome?_nil, Edit.fault?, Value.refusal?, Option.or_none,
      Option.none_or]
    split <;> rfl
  · simp [Edit.Leaves]
  · simp only [List.forall_mem_append]
    exact ⟨Edit.free_setSome, Edit.free_setSome, Edit.free_setSome, Edit.free_setSome,
      Edit.free_setSome⟩

/-- The first member that is assigned to the specification of a Spark job. -/
def Request.firstSparkMember (r : Request) : String :=
  if Text.isBlankText r.image then "imagePullPolicy" else "image"

theorem faultOf_applyAll_sparkEdits (b : Blueprint) (id : Identity) (p : SparkParams)
    (arguments : List String) (v : Value) :
    faultOf (Edit.applyAll (sparkEdits b id p arguments) v) =
      v.refusal? ["spec"] b.request.firstSparkMember := by
  unfold sparkEdits Request.firstSparkMember
  simp only [List.append_assoc]
  -- The edits that assign come first.
  rw [← List.append_assoc, Edit.faultOf_applyAll_append]
  · split <;>
      simp only [List.nil_append, List.cons_append, findSome?_cons_or, List.findSome?_nil,
        Edit.fault?, Value.refusal?] <;> split <;> rfl
  · split <;> simp [Edit.Leaves]
  · simp only [List.forall_mem_append, List.forall_mem_flatMap]
    refine ⟨Edit.free_setSome, Edit.free_setSome, Edit.free_setSome, Edit.free_setSome, ?_,
      fun role _ => ⟨Identity.free_labelEdits, ?_⟩, Edit.free_setSome, Edit.free_setSome,
      Edit.free_setSome, Edit.free_setSome, Edit.free_setSome, Edit.free_setSome⟩
    · split <;> simp [Edit.Free]
    · simp [Edit.Free]

/-- Edits that follow an identity find the specification as it was. -/
theorem Identity.faultOf_applyAll_append (id : Identity) {later : Option OverlayFault}
    (h : ∀ u, (∀ rest, u.at? ("spec" :: rest) = v.at? ("spec" :: rest)) →
      faultOf (Edit.applyAll es u) = later) :
    faultOf (Edit.applyAll (id.edits ++ es) v) =
      (v.refusal? ["metadata"] "name").or later := by
  rw [Edit.applyAll_append, ← id.faultOf_applyAll_edits]
  refine faultOf_bind fun u hu => h u fun rest => Edit.at?_applyAll_of_apart hu fun e he => ?_
  exact Identity.apart_of_mem_edits he (by simp) rest

theorem overlayFault_eq_iff {f : OverlayFault} {key : String} :
    overlayFault name f = .memberOfScalar key ↔ f = .memberOfScalar key := by
  cases f <;> simp [overlayFault, Templates.unusable]

end Overlays

/-! ## The faults of objects -/

section Render

variable {c : Compiler} {b : Blueprint} {id : Identity} {v w : Value} {role : TrainingRole}
  {roles : List TrainingRole}

theorem faultOf_renderFlink (b : Blueprint) (id : Identity) (p : FlinkParams) (t : Value) :
    faultOf (renderFlink b id p t) =
      ((t.refusal? ["metadata"] "name").or ((t.refusal? ["spec"] "image").or
        (t.noItem? ["spec"] ["podTemplate", "spec", "containers"]))).map
          (overlayFault .flinkDeployment) := by
  rw [renderFlink, faultOf_overlay_eq, id.faultOf_applyAll_append]
  intro u hspec
  rw [faultOf_applyAll_flinkEdits, Value.refusal?_congr (hspec []), Value.noItem?_congr (hspec _)]

theorem faultOf_renderSpark (b : Blueprint) (id : Identity) (p : SparkParams) (t : Value) :
    faultOf (renderSpark b id p t) =
      ((t.refusal? ["metadata"] "name").map (overlayFault .sparkApplication)).or
        ((WrittenList.fault? ("args", b.request.args)).or
          ((t.refusal? ["spec"] b.request.firstSparkMember).map
            (overlayFault .sparkApplication))) := by
  rw [renderSpark, ← id.faultOf_applyAll_edits, ← faultOf_overlay_eq]
  refine faultOf_bind fun named hnamed => faultOf_bind fun arguments _ => ?_
  have hspec : named.at? ["spec"] = t.at? ["spec"] :=
    Edit.at?_applyAll_of_apart (overlay_eq_ok_iff.1 hnamed) fun e he =>
      Identity.apart_of_mem_edits he (by simp) []
  rw [faultOf_overlay_eq, faultOf_applyAll_sparkEdits, Value.refusal?_congr hspec]

/-- The fault of a role of a training job. -/
def Request.roleFault? (r : Request) (v : Value) (role : TrainingRole) : Option JobFault :=
  if role.replicas = 0 then none
  else
    ((v.refusal? role.path "replicas").map (overlayFault .trainingJob)).or
      ((r.taskLists.findSome? WrittenList.fault?).or
        ((v.noItem? role.path ["template", "spec", "containers"]).map (overlayFault .trainingJob)))

/-- A role is written as well or as badly where all below it is the same. -/
theorem Request.roleFault?_congr {r : Request}
    (h : ∀ rest, w.at? (role.path ++ rest) = v.at? (role.path ++ rest)) :
    r.roleFault? w role = r.roleFault? v role := by
  have hrole := h []
  rw [List.append_nil] at hrole
  rw [roleFault?, roleFault?, Value.refusal?_congr hrole, Value.noItem?_congr (h _)]

theorem faultOf_applyAll_countEdits (role : TrainingRole) (id : Identity) (v : Value) :
    faultOf (Edit.applyAll (role.countEdits id) v) = v.refusal? role.path "replicas" := by
  rw [TrainingRole.countEdits, Edit.faultOf_applyAll]
  · simp only [findSome?_cons_or, List.findSome?_nil, Edit.fault?, Option.or_none]
  · simp [Edit.Leaves]

theorem faultOf_renderRole_eq (b : Blueprint) (id : Identity) (role : TrainingRole) (v : Value) :
    faultOf (renderRole b id role v) = b.request.roleFault? v role := by
  unfold renderRole Request.roleFault?
  by_cases hreplicas : role.replicas = 0
  · rw [if_pos hreplicas, if_pos hreplicas, faultOf_overlay_eq, Edit.faultOf_applyAll]
    · rfl
    · exact List.pairwise_singleton _ _
  · rw [if_neg hreplicas, if_neg hreplicas, ← faultOf_applyAll_countEdits role id,
      ← faultOf_overlay_eq,
      ← b.faultOf_mainContainer trainingContainer (role.resources.getD b.request.resources)]
    refine faultOf_bind fun counted hcounted => faultOf_bind fun container _ => ?_
    have hcontainers : counted.at? role.containersPath = v.at? role.containersPath := by
      refine Edit.at?_applyAll_of_apart (overlay_eq_ok_iff.1 hcounted) ?_
      simp [TrainingRole.containersPath, TrainingRole.path, rolesPath]
    rw [faultOf_overlay_eq, Edit.faultOf_applyAll (List.pairwise_singleton _ _),
      List.findSome?_singleton, ← Value.noItem?_congr hcontainers]
    rfl

/-- Roles fail with the first of them that cannot be written in the value they begin with. -/
theorem faultOf_renderRoles_eq (b : Blueprint) (id : Identity) {roles : List TrainingRole}
    (hnodup : (roles.map TrainingRole.name).Nodup) (v : Value) :
    faultOf (renderRoles b id roles v) = roles.findSome? (b.request.roleFault? v) := by
  induction roles generalizing v with
  | nil => rfl
  | cons role roles ih =>
    obtain ⟨hnew, hothers⟩ := List.nodup_cons.1 hnodup
    rw [findSome?_cons_or, ← faultOf_renderRole_eq b id]
    refine faultOf_bind fun w hw => (ih hothers w).trans ?_
    refine findSome?_congr fun other hother => ?_
    have hne : role.name ≠ other.name := by
      intro heq
      exact hnew (heq ▸ List.mem_map_of_mem hother)
    exact Request.roleFault?_congr fun rest =>
      at?_renderRole_of_apart hw ((Path.apart_of_ne rolesPath hne [] []).append rest)

theorem faultOf_renderTraining (b : Blueprint) (id : Identity) (p : TrainingParams) (t : Value) :
    faultOf (renderTraining b id p t) =
      ((t.refusal? ["metadata"] "name").map (overlayFault .trainingJob)).or
        (p.roles.findSome? (b.request.roleFault? t)) := by
  rw [renderTraining, ← id.faultOf_applyAll_edits, ← faultOf_overlay_eq]
  refine faultOf_bind fun named hnamed => ?_
  rw [faultOf_renderRoles_eq b id (by simp [TrainingParams.roles])]
  refine findSome?_congr fun role _ => Request.roleFault?_congr fun rest => ?_
  exact Edit.at?_applyAll_of_apart (overlay_eq_ok_iff.1 hnamed) fun e he =>
    Identity.apart_of_mem_edits he (by simp) _

end Render

/-! ## Steps that do not break down -/

section Answers

variable {α β : Type} {x : Except JobFault α} {c : Compiler} {b : Blueprint} {id : Identity}
  {fault : JobFault}

theorem WrittenList.fault?_ne {l : WrittenList} (fault : JobFault)
    (hbreaks : fault.breaksDown = true) : l.fault? ≠ some fault := by
  intro h
  obtain ⟨cause, -, rfl⟩ := WrittenList.fault?_eq_some_iff.1 h
  cases hbreaks

theorem WrittenList.findSome?_fault?_ne {ls : List WrittenList} (fault : JobFault)
    (hbreaks : fault.breaksDown = true) : ls.findSome? WrittenList.fault? ≠ some fault := by
  intro h
  obtain ⟨l, -, hl⟩ := List.exists_of_findSome?_eq_some h
  exact fault?_ne fault hbreaks hl

theorem overlayFault_ne_tooManyPods {f : OverlayFault} {name : TemplateName} :
    overlayFault name f ≠ .tooManyPods := by
  cases f <;> simp [overlayFault, Templates.unusable]

/-- If the step fails, it answers its fault: the program does not break down. -/
def Answers (x : Except JobFault α) : Prop :=
  ∀ fault, fault.breaksDown = true → faultOf x ≠ some fault

theorem answers_fetch (b : Blueprint) : Answers b.fetch := by
  intro fault hbreaks h
  unfold Blueprint.fetch at h
  split at h
  · split at h <;> cases h
    cases hbreaks
  · cases h

theorem answers_pod (b : Blueprint) : Answers b.pod := by
  intro fault hbreaks h
  cases hfetch : b.fetch with
  | error cause =>
    rw [Blueprint.pod, hfetch] at h
    exact answers_fetch b fault hbreaks (hfetch ▸ h)
  | ok fetch =>
    rw [Blueprint.faultOf_pod hfetch] at h
    exact WrittenList.findSome?_fault?_ne fault hbreaks h

theorem answers_check (e : Envelope) : Answers e.check := by
  intro fault hbreaks h
  obtain ⟨message, rfl⟩ := Envelope.exists_invalid_of_check (faultOf_eq_some_iff.1 h)
  cases hbreaks

theorem answers_plain (c : Compiler) (b : Blueprint) (id : Identity) :
    Answers (c.render b id .plain) := by
  intro fault hbreaks h
  exact answers_pod b fault hbreaks ((faultOf_bind_ok _).symm.trans h)

/-- A queue-admitted job breaks down only over the number of its pods. -/
theorem Compiler.gangFault?_ne {replicas : Option MasterWorker} {key : String} :
    c.gangFault? replicas ≠ some (.memberOfScalar key) := by
  unfold gangFault? Templates.gangJob
  split
  · next hbase =>
    split at hbase
    · cases hbase
    · cases hbase
      nofun
  · split <;> nofun

end Answers

/-! ## Requests that meet an obstacle -/

/-- A role of a training job that is left out, or can be written over a template. -/
def Request.Passes (r : Request) (t : Value) (role : TrainingRole) : Prop :=
  role.replicas = 0 ∨ (∀ l ∈ r.taskLists, l.Readable) ∧ t.ItemAt role.containersPath

/-- The places of templates that the job of a workload assigns members to. -/
def Workload.assigned : Workload → List (TemplateName × Path)
  | .plain | .queueAdmitted _ => []
  | .flink _ => [(.flinkDeployment, ["metadata"]), (.flinkDeployment, ["spec"])]
  | .spark _ => [(.sparkApplication, ["metadata"]), (.sparkApplication, ["spec"])]
  | .training p =>
    (.trainingJob, ["metadata"]) :: p.roles.map fun role => (.trainingJob, role.path)

/-- The request, once its envelope is sound, comes to assign this member to a scalar or a list. -/
def Compiler.Refuses (c : Compiler) (r : Request) (key : String) : Prop :=
  match r.workload with
  | .plain | .queueAdmitted _ => False
  | .flink _ =>
    let t := c.templates .flinkDeployment
    ¬ t.Takes ["metadata"] ∧ key = "name" ∨
      t.Takes ["metadata"] ∧ ¬ t.Takes ["spec"] ∧ key = "image"
  | .spark _ =>
    let t := c.templates .sparkApplication
    ¬ t.Takes ["metadata"] ∧ key = "name" ∨
      t.Takes ["metadata"] ∧ WrittenList.Readable ("args", r.args) ∧ ¬ t.Takes ["spec"] ∧
        key = r.firstSparkMember
  | .training p =>
    let t := c.templates .trainingJob
    ¬ t.Takes ["metadata"] ∧ key = "name" ∨
      t.Takes ["metadata"] ∧ ∃ earlier role later, p.roles = earlier ++ role :: later ∧
        (role.replicas ≠ 0 ∧ ¬ t.Takes role.path ∧ key = "replicas") ∧
        ∀ other ∈ earlier, r.Passes t other

section Spec

variable {c : Compiler} {b : Blueprint} {id : Identity} {r : Request} {index : Option Nat}
  {t : Value} {role : TrainingRole} {name : TemplateName} {path : Path} {key key' : String}

theorem refusal?_eq_some_iff :
    (t.refusal? path key).map (overlayFault name) = some (.memberOfScalar key') ↔
      ¬ t.Takes path ∧ key' = key := by
  unfold Value.refusal?
  split
  · next htakes => simp [htakes]
  · next hnot => simp [hnot, overlayFault, eq_comm]

theorem refusal?_eq_none_iff :
    (t.refusal? path key).map (overlayFault name) = none ↔ t.Takes path := by
  unfold Value.refusal?
  split <;> simp [*]

theorem readable_iff {ls : List WrittenList} :
    ls.findSome? WrittenList.fault? = none ↔ ∀ l ∈ ls, l.Readable := by
  simp only [List.findSome?_eq_none_iff, WrittenList.fault?_eq_none_iff]

theorem noItem?_map_ne {base : Path} :
    (t.noItem? base path).map (overlayFault name) ≠ some (.memberOfScalar key) := by
  intro h
  obtain ⟨fault, hfault, hkey⟩ := Option.map_eq_some_iff.1 h
  exact Value.noItem?_ne (hfault.trans (congrArg some (overlayFault_eq_iff.1 hkey)))

theorem Request.roleFault?_eq_none_iff : r.roleFault? t role = none ↔ r.Passes t role := by
  unfold roleFault? Passes
  by_cases hreplicas : role.replicas = 0
  · rw [if_pos hreplicas]
    exact iff_of_true rfl (.inl hreplicas)
  · rw [if_neg hreplicas, Option.or_eq_none_iff, Option.or_eq_none_iff, readable_iff,
      refusal?_eq_none_iff, Option.map_eq_none_iff, Value.noItem?_eq_none_iff,
      or_iff_right hreplicas]
    -- A role that lists a container is an object, so that it takes a number.
    exact and_iff_right_of_imp fun h => .of_objectAt h.2.objectAt

theorem Request.roleFault?_eq_some_iff : r.roleFault? t role = some (.memberOfScalar key) ↔
    role.replicas ≠ 0 ∧ ¬ t.Takes role.path ∧ key = "replicas" := by
  unfold roleFault?
  split
  · next hreplicas => simp [hreplicas]
  · next hreplicas =>
    simp only [Option.or_eq_some_iff, refusal?_eq_some_iff,
      WrittenList.findSome?_fault?_ne (.memberOfScalar key) rfl, noItem?_map_ne, and_false,
      or_false, ne_eq, hreplicas, not_false_eq_true, true_and]

/-- The object of an operator's job is refused a member where the request is. -/
theorem Compiler.render_refused_iff (hrequest : b.request = r) :
    faultOf (c.render b id r.workload) = some (.memberOfScalar key) ↔ c.Refuses r key := by
  subst hrequest
  unfold Compiler.Refuses
  cases b.request.workload with
  | plain =>
    exact iff_of_false (answers_plain c b id _ rfl) False.elim
  | queueAdmitted replicas =>
    refine iff_of_false (fun h => ?_) False.elim
    rw [faultOf_queueAdmitted, Option.or_eq_some_iff] at h
    exact h.elim (answers_pod b _ rfl) fun h => gangFault?_ne h.2
  | flink p =>
    rw [render, faultOf_renderFlink, Option.map_or, Option.map_or]
    simp only [Option.or_eq_some_iff, refusal?_eq_some_iff, refusal?_eq_none_iff, noItem?_map_ne,
      and_false, or_false]
  | spark p =>
    rw [render, faultOf_renderSpark]
    simp only [Option.or_eq_some_iff, refusal?_eq_some_iff, refusal?_eq_none_iff,
      WrittenList.fault?_ne (.memberOfScalar key) rfl, WrittenList.fault?_eq_none_iff, false_or]
  | training p =>
    rw [render, faultOf_renderTraining]
    simp only [Option.or_eq_some_iff, refusal?_eq_some_iff, refusal?_eq_none_iff,
      List.findSome?_eq_some_iff, Request.roleFault?_eq_some_iff, Request.roleFault?_eq_none_iff]

theorem Compiler.compile_refused_iff : c.compile r index = .error (.memberOfScalar key) ↔
    r.resources.check = .ok () ∧ c.Refuses r key := by
  rw [← faultOf_eq_some_iff, compile]
  cases hcheck : r.resources.check with
  | error fault =>
    refine iff_of_false ?_ ?_
    · have hanswers := answers_check r.resources (.memberOfScalar key) rfl
      rwa [hcheck] at hanswers
    · rintro ⟨hsound, -⟩
      cases hsound
  | ok u =>
    rw [faultOf_ok_bind]
    dsimp only
    rw [faultOf_bind_ok]
    exact (render_refused_iff rfl).trans (and_iff_right rfl).symm

/-- Only a gang job can have too many pods, and only once its pod can be made. -/
theorem Compiler.render_overfilled_iff {w : Workload} :
    faultOf (c.render b id w) = some .tooManyPods ↔
      (∃ pod, b.pod = .ok pod) ∧ ∃ replicas, w = .queueAdmitted replicas ∧ c.Overfills replicas := by
  cases w with
  | plain => simp [answers_plain c b id .tooManyPods rfl]
  | queueAdmitted replicas =>
    rw [faultOf_queueAdmitted, Option.or_eq_some_iff, gangFault?_eq_tooManyPods_iff,
      or_iff_right (answers_pod b .tooManyPods rfl), faultOf_eq_none_iff]
    simp
  | flink p =>
    rw [render, faultOf_renderFlink]
    simp [overlayFault_ne_tooManyPods]
  | spark p =>
    rw [render, faultOf_renderSpark]
    simp [Option.or_eq_some_iff, overlayFault_ne_tooManyPods, WrittenList.fault?_ne .tooManyPods rfl]
  | training p =>
    have hrole (role : TrainingRole) : b.request.roleFault? (c.templates .trainingJob) role ≠
        some .tooManyPods := by
      unfold Request.roleFault?
      split
      · exact (Option.some_ne_none _).symm
      · simp [Option.or_eq_some_iff, overlayFault_ne_tooManyPods,
          WrittenList.findSome?_fault?_ne .tooManyPods rfl]
    rw [render, faultOf_renderTraining]
    simp [Option.or_eq_some_iff, overlayFault_ne_tooManyPods, List.findSome?_eq_some_iff, hrole]

theorem Compiler.compile_overfilled_iff : c.compile r index = .error .tooManyPods ↔
    r.resources.check = .ok () ∧
      (∃ pod, (c.blueprint r index (containerName r.kind
        (derivedName r.taskName r.taskInstanceId index))).pod = .ok pod) ∧
      ∃ replicas, r.workload = .queueAdmitted replicas ∧ c.Overfills replicas := by
  rw [← faultOf_eq_some_iff, compile]
  cases hcheck : r.resources.check with
  | error fault =>
    have hanswers := answers_check r.resources .tooManyPods rfl
    rw [hcheck] at hanswers
    refine iff_of_false hanswers ?_
    rintro ⟨hsound, -⟩
    cases hsound
  | ok u =>
    rw [faultOf_ok_bind]
    dsimp only
    rw [faultOf_bind_ok]
    exact render_overfilled_iff.trans (and_iff_right rfl).symm

theorem Compiler.not_refuses
    (htakes : ∀ place ∈ r.workload.assigned, (c.templates place.1).Takes place.2) :
    ¬ c.Refuses r key := by
  unfold Compiler.Refuses
  cases hw : r.workload with
  | plain | queueAdmitted => exact id
  | flink p | spark p =>
    simp only [hw, Workload.assigned, List.forall_mem_cons] at htakes
    simp [htakes]
  | training p =>
    simp only [hw, Workload.assigned, List.forall_mem_cons, List.forall_mem_map] at htakes
    obtain ⟨hmetadata, hroles⟩ := htakes
    rintro (⟨hnot, -⟩ | ⟨-, earlier, role, later, hsplit, ⟨-, hnot, -⟩, -⟩)
    · exact hnot hmetadata
    · exact hnot (hroles role (hsplit ▸ by simp))

theorem Workload.takes_builtin (w : Workload) :
    ∀ place ∈ w.assigned, (TemplateName.builtin place.1).Takes place.2 := by
  cases w with
  | plain | queueAdmitted => exact List.forall_mem_nil _
  | flink p | spark p =>
    simp only [Workload.assigned, List.forall_mem_cons, List.not_mem_nil, false_implies,
      implies_true, and_true]
    decide
  | training p =>
    simp only [Workload.assigned, TrainingParams.roles, List.map_cons, List.map_nil,
      TrainingRole.path]
    decide

/-- The objects that are stamped in the end are objects. -/
theorem Compiler.exists_obj_of_render {workload : Workload} {object : Value}
    (h : c.render b id workload = .ok object) : ∃ ms, object = .obj ms := by
  have hname := at?_name_render h
  rw [Value.at?_cons] at hname
  obtain ⟨metadata, hmetadata, -⟩ := Option.bind_eq_some_iff.1 hname
  exact Value.exists_obj_of_get? hmetadata

end Spec

/-- When a job meets a value that takes no member. -/
structure RefusalSpec (c : Compiler) (r : Request) (index : Option Nat) : Prop where
  refused_iff : ∀ key, c.compile r index = .error (.memberOfScalar key) ↔
    r.resources.check = .ok () ∧ c.Refuses r key
  /-- No member is refused where all places that members are assigned to take them. -/
  takes : (∀ place ∈ r.workload.assigned, (c.templates place.1).Takes place.2) →
    ∀ key, ¬ c.Refuses r key
  builtin : ∀ place ∈ r.workload.assigned, (TemplateName.builtin place.1).Takes place.2
  /-- What is stamped with its version and kind is an object. -/
  object : ∀ b id object, c.render b id r.workload = .ok object → ∃ ms, object = .obj ms
  /-- No other fault breaks the compiler down, but that a gang job has more pods than a word can count.
  Its template leaves their number open then. -/
  overfilled_iff : c.compile r index = .error .tooManyPods ↔
    r.resources.check = .ok () ∧
      (∃ pod, (c.blueprint r index (Compiler.containerName r.kind
        (derivedName r.taskName r.taskInstanceId index))).pod = .ok pod) ∧
      ∃ replicas, r.workload = .queueAdmitted replicas ∧ c.Overfills replicas

theorem refusal_spec (c : Compiler) (r : Request) (index : Option Nat) : RefusalSpec c r index :=
  ⟨fun _ => Compiler.compile_refused_iff, fun h _ => Compiler.not_refuses h,
    r.workload.takes_builtin, fun _ _ _ h => Compiler.exists_obj_of_render h,
    Compiler.compile_overfilled_iff⟩

/-- A template that is read, and whose metadata are a text, takes no name. -/
theorem compile_textMetadata :
    ∃ ts, Templates.load [("spark-application", "metadata: text")] = .ok ts ∧
      Compiler.compile { Compiler.standard with templates := ts }
        { Request.etl false with workload := .spark .standard } none =
          .error (.memberOfScalar "name") := by
  have h : (Templates.load [("spark-application", "metadata: text")]).map (fun ts =>
      faultOf (Compiler.compile { Compiler.standard with templates := ts }
        { Request.etl false with workload := .spark .standard } none)) =
      .ok (some (.memberOfScalar "name")) := by decide +kernel
  obtain ⟨ts, hts, hfault⟩ := map_eq_ok_iff.1 h
  simp only [faultOf_eq_some_iff] at hfault
  exact ⟨ts, hts, hfault⟩

end ClusterJobs
