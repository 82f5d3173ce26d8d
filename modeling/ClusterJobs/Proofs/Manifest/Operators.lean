import ClusterJobs.Proofs.Manifest.Overlays

/-!
# Objects of operators

The object of a Flink or Spark job is its template after one list of edits. A training job is written
role by role; what one role writes is apart from the other, and a role without pods is not there.
-/

namespace ClusterJobs

open Json (Value Path Edit OverlayFault)

variable {c : Compiler} {b : Blueprint} {id : Identity} {object v w : Value} {e : Edit}
  {name : TemplateName} {es fs : List Edit} {base : Path}

theorem overlay_eq_ok_iff : overlay name es v = .ok w ↔ Edit.applyAll es v = .ok w := by
  unfold overlay
  cases Edit.applyAll es v <;> simp

/-- Two overlays of one template are one. -/
theorem overlay_append : (∃ u, overlay name es v = .ok u ∧ overlay name fs u = .ok w) ↔
    Edit.applyAll (es ++ fs) v = .ok w := by
  simp only [overlay_eq_ok_iff]
  exact Edit.applyAll_append_eq_ok_iff.symm

/-! ## Identity -/

theorem Identity.mem_labelEdits :
    e ∈ id.labelEdits base ↔ ∃ p ∈ id.labels, e = .set (base ++ [p.1]) (.str p.2) := by
  simp [Identity.labelEdits, eq_comm]

/-- The identity is written into the metadata. -/
theorem Identity.place_of_mem_edits (h : e ∈ id.edits) : ∃ rest, e.place = "metadata" :: rest := by
  rcases List.mem_append.1 h with h | h
  · simp only [List.mem_cons, List.not_mem_nil, or_false] at h
    rcases h with rfl | rfl
    · exact ⟨["name"], rfl⟩
    · exact ⟨["namespace"], rfl⟩
  · obtain ⟨p, -, rfl⟩ := Identity.mem_labelEdits.1 h
    exact ⟨["labels", p.1], rfl⟩

theorem Identity.apart_of_mem_edits (h : e ∈ id.edits) {key : String} (hkey : "metadata" ≠ key)
    (rest : Path) : Path.Apart e.place (key :: rest) := by
  obtain ⟨path, hplace⟩ := Identity.place_of_mem_edits h
  rw [hplace]
  exact .inl hkey

/-! ## Flink and Spark -/

theorem Compiler.render_flink_eq_ok_iff {p : FlinkParams} :
    c.render b id (.flink p) = .ok object ↔
      Edit.applyAll (id.edits ++ flinkEdits b id p) (c.templates .flinkDeployment) = .ok object :=
  overlay_eq_ok_iff

theorem Compiler.render_spark_eq_ok_iff {p : SparkParams} :
    c.render b id (.spark p) = .ok object ↔
      ∃ arguments, parseMember "args" b.request.args = .ok arguments ∧
        Edit.applyAll (id.edits ++ sparkEdits b id p arguments)
          (c.templates .sparkApplication) = .ok object := by
  rw [render, renderSpark, bind_eq_ok_iff]
  constructor
  · rintro ⟨named, hnamed, h⟩
    obtain ⟨arguments, hargs, h⟩ := bind_eq_ok_iff.1 h
    exact ⟨arguments, hargs, overlay_append.1 ⟨named, hnamed, h⟩⟩
  · rintro ⟨arguments, hargs, h⟩
    obtain ⟨named, hnamed, h⟩ := overlay_append.2 h
    exact ⟨named, hnamed, bind_eq_ok_iff.2 ⟨arguments, hargs, h⟩⟩

/-! ## Training -/

section Training

variable {role : TrainingRole} {roles : List TrainingRole}

/-- The roles of a training job that are there. -/
def Json.Value.presentRoles (object : Value) : List String :=
  ["Master", "Worker"].filter fun role => (object.at? (rolesPath ++ [role])).isSome

/-- Where a role stands. -/
def TrainingRole.path (role : TrainingRole) : Path :=
  rolesPath ++ [role.name]

/-- What is written for a role with pods. -/
def TrainingRole.edits (role : TrainingRole) (id : Identity) (container : Container) : List Edit :=
  [.assign role.path "replicas" (natToJson role.replicas),
    .set (role.path ++ ["template", "metadata", "labels"]) (.texts id.podLabels)] ++
    [.extendFirst role.path ["template", "spec", "containers"] container.members]

theorem Compiler.render_training_eq_ok_iff {p : TrainingParams} :
    c.render b id (.training p) = .ok object ↔
      ∃ named, Edit.applyAll id.edits (c.templates .trainingJob) = .ok named ∧
        renderRoles b id p.roles named = .ok object := by
  rw [render, renderTraining, bind_eq_ok_iff]
  simp only [overlay_eq_ok_iff]

theorem renderRole_absent_eq_ok_iff (hreplicas : role.replicas = 0) :
    renderRole b id role v = .ok w ↔ (Edit.drop rolesPath role.name).apply v = .ok w := by
  rw [renderRole, if_pos hreplicas, overlay_eq_ok_iff, Edit.applyAll, bind_eq_ok_iff]
  simp only [Edit.applyAll, Except.ok.injEq, exists_eq_right]

theorem renderRole_present_eq_ok_iff (hreplicas : role.replicas ≠ 0) :
    renderRole b id role v = .ok w ↔
      ∃ container, b.mainContainer trainingContainer
          (role.resources.getD b.request.resources) = .ok container ∧
        Edit.applyAll (role.edits id container) v = .ok w := by
  rw [renderRole, if_neg hreplicas]
  simp only [bind_eq_ok_iff]
  constructor
  · rintro ⟨counted, hcounted, container, hcontainer, h⟩
    exact ⟨container, hcontainer, overlay_append.1 ⟨counted, hcounted, h⟩⟩
  · rintro ⟨container, hcontainer, h⟩
    obtain ⟨counted, hcounted, h⟩ := overlay_append.2 h
    exact ⟨counted, hcounted, container, hcontainer, h⟩

/-- A role is written in its place and nowhere else. -/
theorem at?_renderRole_of_apart (h : renderRole b id role v = .ok w) {other : Path}
    (hapart : Path.Apart role.path other) : w.at? other = v.at? other := by
  by_cases hreplicas : role.replicas = 0
  · exact Edit.at?_apply_of_apart ((renderRole_absent_eq_ok_iff hreplicas).1 h) hapart
  · obtain ⟨container, -, h⟩ := (renderRole_present_eq_ok_iff hreplicas).1 h
    refine Edit.at?_applyAll_of_apart h fun e he => ?_
    have hbelow : ∃ below, e.place = role.path ++ below := by
      simp only [TrainingRole.edits, List.cons_append, List.nil_append, List.mem_cons,
        List.not_mem_nil, or_false] at he
      rcases he with rfl | rfl | rfl <;> exact ⟨_, rfl⟩
    obtain ⟨below, hplace⟩ := hbelow
    rw [hplace]
    exact hapart.append_left below

theorem at?_renderRoles_of_apart (h : renderRoles b id roles v = .ok w) {other : Path}
    (hapart : ∀ role ∈ roles, Path.Apart role.path other) : w.at? other = v.at? other := by
  induction roles generalizing v with
  | nil =>
    cases h
    rfl
  | cons role roles ih =>
    obtain ⟨u, hu, h⟩ := bind_eq_ok_iff.1 h
    exact (ih h fun r hr => hapart r (.tail _ hr)).trans
      (at?_renderRole_of_apart hu (hapart role (.head _)))

/-- In the end there is of a role what was written when its turn came. -/
theorem exists_of_renderRoles (hnodup : (roles.map TrainingRole.name).Nodup)
    (h : renderRoles b id roles v = .ok w) (hrole : role ∈ roles) :
    ∃ u u', renderRole b id role u = .ok u' ∧
      ∀ rest, w.at? (rolesPath ++ role.name :: rest) = u'.at? (rolesPath ++ role.name :: rest) := by
  induction roles generalizing v with
  | nil => cases hrole
  | cons first roles ih =>
    obtain ⟨hnew, hothers⟩ := List.nodup_cons.1 hnodup
    obtain ⟨u, hu, hlater⟩ := bind_eq_ok_iff.1 h
    rcases List.mem_cons.1 hrole with rfl | hrole
    · refine ⟨v, u, hu, fun rest => ?_⟩
      refine at?_renderRoles_of_apart hlater fun other hother => ?_
      have hne : other.name ≠ role.name := by
        intro heq
        exact hnew (heq ▸ List.mem_map_of_mem hother)
      exact Path.apart_of_ne rolesPath hne [] rest
    · exact ih hothers hlater hrole

theorem at?_role_absent (hreplicas : role.replicas = 0) (h : renderRole b id role v = .ok w)
    (rest : Path) : w.at? (rolesPath ++ role.name :: rest) = none := by
  obtain ⟨roles, rfl, hname, -⟩ :=
    Edit.exists_of_drop ((renderRole_absent_eq_ok_iff hreplicas).1 h)
  rw [Value.at?_plant_append, Value.at?_cons, hname, Option.bind_none]

theorem at?_labels_role (hreplicas : role.replicas ≠ 0) (h : renderRole b id role v = .ok w) :
    w.at? (rolesPath ++ [role.name, "template", "metadata", "labels"]) =
      some (.texts id.podLabels) := by
  obtain ⟨container, -, h⟩ := (renderRole_present_eq_ok_iff hreplicas).1 h
  refine Edit.at?_of_mem_set h (by simp [TrainingRole.edits, TrainingRole.path]) ?_
  simp [TrainingRole.edits, TrainingRole.path, rolesPath]

variable {p : TrainingParams}

theorem exists_of_render_training (h : c.render b id (.training p) = .ok object)
    (hrole : role ∈ p.roles) :
    ∃ u u', renderRole b id role u = .ok u' ∧ ∀ rest,
      object.at? (rolesPath ++ role.name :: rest) = u'.at? (rolesPath ++ role.name :: rest) := by
  obtain ⟨named, -, h⟩ := Compiler.render_training_eq_ok_iff.1 h
  exact exists_of_renderRoles (by simp [TrainingParams.roles]) h hrole

/-- The roles with pods are those that are there. -/
theorem presentRoles_of_render (h : c.render b id (.training p) = .ok object) :
    object.presentRoles =
      (p.roles.filter fun role => decide (role.replicas ≠ 0)).map TrainingRole.name := by
  have hthere : ∀ role ∈ p.roles,
      (object.at? (rolesPath ++ [role.name])).isSome = decide (role.replicas ≠ 0) := by
    intro role hrole
    obtain ⟨u, u', hu, hat⟩ := exists_of_render_training h hrole
    by_cases hreplicas : role.replicas = 0
    · simp [hat [], at?_role_absent hreplicas hu, hreplicas]
    · have hlabels := at?_labels_role hreplicas hu
      rw [List.append_cons, Value.at?_append] at hlabels
      obtain ⟨v, hv, -⟩ := Option.bind_eq_some_iff.1 hlabels
      simp [hat [], hv, hreplicas]
  have hfilter : p.roles.filter
        ((fun role => (object.at? (rolesPath ++ [role])).isSome) ∘ TrainingRole.name) =
      p.roles.filter fun role => decide (role.replicas ≠ 0) := List.filter_congr hthere
  calc object.presentRoles
      = (p.roles.map TrainingRole.name).filter
          fun role => (object.at? (rolesPath ++ [role])).isSome := rfl
    _ = _ := by rw [List.filter_map, hfilter]

end Training

/-! ## Names -/

/-- The name that is written with the identity stays if no later edit is about it. -/
theorem at?_name_of_applyAll (h : Edit.applyAll (id.edits ++ fs) v = .ok w)
    (hfs : ∀ f ∈ fs, Path.Apart f.place ["metadata", "name"]) :
    w.at? ["metadata", "name"] = some (.str id.name) := by
  obtain ⟨u, hu, hlater⟩ : ∃ u, (Edit.assign ["metadata"] "name" (.str id.name)).apply v = .ok u ∧
      Edit.applyAll (.assign ["metadata"] "namespace" (.str id.nameSpace) ::
        (id.labelEdits ["metadata", "labels"] ++ fs)) u = .ok w := bind_eq_ok_iff.1 h
  obtain ⟨metadata, rfl, hname, -⟩ := Edit.exists_of_assign hu
  rw [Edit.at?_applyAll_of_apart hlater]
  · have hplant := Value.at?_plant_append v ["metadata"] metadata ["name"]
    rw [Value.at?_cons, hname] at hplant
    exact hplant
  · rw [List.forall_mem_cons, List.forall_mem_append]
    refine ⟨by simp, fun f hf => ?_, hfs⟩
    obtain ⟨p, -, rfl⟩ := Identity.mem_labelEdits.1 hf
    simp

theorem flinkEdits_apart (b : Blueprint) (id : Identity) (p : FlinkParams) {key : String}
    (hkey : "spec" ≠ key) (rest : Path) :
    ∀ f ∈ flinkEdits b id p, Path.Apart f.place (key :: rest) := by
  simp only [flinkEdits, List.forall_mem_append, List.forall_mem_cons, Edit.forall_mem_setSome]
  simp [hkey]

theorem sparkEdits_apart (b : Blueprint) (id : Identity) (p : SparkParams) (arguments : List String)
    {key : String} (hkey : "spec" ≠ key) (rest : Path) :
    ∀ f ∈ sparkEdits b id p arguments, Path.Apart f.place (key :: rest) := by
  have hlabels (role : String) : ∀ f ∈ id.labelEdits ["spec", role, "labels"],
      Path.Apart f.place (key :: rest) := by
    intro f hf
    obtain ⟨label, -, rfl⟩ := Identity.mem_labelEdits.1 hf
    exact .inl hkey
  simp only [sparkEdits, sparkRoles, List.flatMap_cons, List.flatMap_nil, List.forall_mem_append,
    List.forall_mem_cons, Edit.forall_mem_setSome]
  simpa [hkey] using ⟨hlabels "driver", hlabels "executor"⟩

/-- The object of every workload is named. -/
theorem Compiler.at?_name_render {workload : Workload} (h : c.render b id workload = .ok object) :
    object.at? ["metadata", "name"] = some (.str id.name) := by
  cases workload with
  | plain =>
    obtain ⟨pod, -, rfl⟩ := render_plain_eq_ok_iff.1 h
    exact at?_name_plainObject id pod
  | queueAdmitted replicas =>
    obtain ⟨pod, authored, job, -, -, hjob, rfl⟩ := render_queueAdmitted_eq_ok_iff.1 h
    exact GangJob.at?_name_of_overlay hjob
  | flink p =>
    refine at?_name_of_applyAll (render_flink_eq_ok_iff.1 h) ?_
    exact flinkEdits_apart b id p (by simp) _
  | spark p =>
    obtain ⟨arguments, -, h⟩ := render_spark_eq_ok_iff.1 h
    exact at?_name_of_applyAll h (sparkEdits_apart b id p arguments (by simp) _)
  | training p =>
    obtain ⟨named, hnamed, h⟩ := render_training_eq_ok_iff.1 h
    have hapart : ∀ role ∈ p.roles, Path.Apart role.path ["metadata", "name"] :=
      fun role _ => Or.inl (by simp)
    rw [← List.append_nil id.edits] at hnamed
    rw [at?_renderRoles_of_apart h hapart]
    exact at?_name_of_applyAll hnamed (List.forall_mem_nil _)

end ClusterJobs
