import ClusterJobs.Proofs.Manifest.Labels
import ClusterJobs.Proofs.Manifest.Pointers

/-!
# What overlays write

For each kind of object that an operator gets, a table says all that its overlay writes. No two entries
are in each other's way, so everything in the table is there in the end, and all that lies apart from
the table is as authored.
-/

namespace ClusterJobs

open Json (Value Path Edit Pointer Mark Lays)

/-! ## Tables of marks -/

/-- What is written below one pointer. -/
structure MarkGroup where
  base : Pointer
  inner : List Mark

namespace MarkGroup

/-- A value is written at a path. -/
def written (path : Path) (value : Value) : MarkGroup :=
  ⟨path.pointer, [⟨[], some value⟩]⟩

/-- A value is written at a path if there is one. -/
def optional (path : Path) (value : Option Value) : MarkGroup :=
  ⟨path.pointer, value.toList.map fun v => ⟨[], some v⟩⟩

/-- Labels are written at a path, one by one. -/
def labels (path : Path) (table : Fields String) : MarkGroup :=
  ⟨path.pointer, table.map fun p => ⟨[.member p.1], some (.str p.2)⟩⟩

/-- Members are written into the first item of the list at a path, one by one. -/
def firstItem (path : Path) (members : List (String × Value)) : MarkGroup :=
  ⟨path.pointer ++ [.item 0], members.map fun p => ⟨[.member p.1], some p.2⟩⟩

/-- Nothing is left at a path. -/
def absent (path : Path) : MarkGroup :=
  ⟨path.pointer, [⟨[], none⟩]⟩

/-- The marks of a group, seen from the root. -/
def marks (g : MarkGroup) : List Mark :=
  g.inner.map (Mark.below g.base)

end MarkGroup

/-- The identity of an object is written into its metadata. -/
def Identity.table (id : Identity) : List MarkGroup := [
  .written ["metadata", "name"] (.str id.name),
  .written ["metadata", "namespace"] (.str id.nameSpace),
  .labels ["metadata", "labels"] id.labels]

/-- The kind of an object is written at its root. -/
def Coordinates.table (place : Coordinates) : List MarkGroup := [
  .written ["apiVersion"] (.str place.apiVersion),
  .written ["kind"] (.str place.kind)]

def FlinkParams.table (p : FlinkParams) (r : Request) (id : Identity) : List MarkGroup := [
  .written ["spec", "image"] (.str r.image),
  .written ["spec", "imagePullPolicy"] (.str r.pullPolicy),
  .written ["spec", "podTemplate", "metadata", "labels"] (.texts id.podLabels),
  .firstItem ["spec", "podTemplate", "spec", "containers"] [("env", variablesToJson r.variables)],
  .optional ["spec", "job", "parallelism"] (p.parallelism.map natToJson),
  .optional ["spec", "flinkConfiguration", "taskmanager.numberOfTaskSlots"]
    (p.slots.map fun n => .str (toString n)),
  .optional ["spec", "job", "entryClass"] (p.mainClass.map .str),
  .optional ["spec", "jobManager", "resource", "memory"] (p.jobManagerMemory.map .str),
  .optional ["spec", "taskManager", "resource", "memory"] (p.taskManagerMemory.map .str)]

def SparkParams.table (p : SparkParams) (r : Request) (id : Identity) (arguments : List String) :
    List MarkGroup := [
  .optional ["spec", "image"] (if Text.isBlankText r.image then none else some (.str r.image)),
  .written ["spec", "imagePullPolicy"] (.str r.pullPolicy),
  .optional ["spec", "type"] (p.programType.map .str),
  .optional ["spec", "mainClass"] (p.mainClass.map .str),
  .optional ["spec", "mainApplicationFile"] (p.mainApplicationFile.map .str),
  .optional ["spec", "sparkVersion"] (p.sparkVersion.map .str),
  .optional ["spec", "arguments"]
    (if arguments.isEmpty then none else some (.strings arguments)),
  .labels ["spec", "driver", "labels"] id.labels,
  .written ["spec", "driver", "env"] (variablesToJson r.variables),
  .labels ["spec", "executor", "labels"] id.labels,
  .written ["spec", "executor", "env"] (variablesToJson r.variables),
  .optional ["spec", "driver", "cores"] (p.driverCores.map natToJson),
  .optional ["spec", "driver", "memory"] (p.driverMemory.map .str),
  .optional ["spec", "driver", "serviceAccount"] (p.serviceAccount.map .str),
  .optional ["spec", "executor", "instances"] (p.numExecutors.map natToJson),
  .optional ["spec", "executor", "cores"] (p.executorCores.map natToJson),
  .optional ["spec", "executor", "memory"] (p.executorMemory.map .str)]

/-- The count and the labels of a role with pods. -/
def TrainingRole.headTable (role : TrainingRole) (id : Identity) : List MarkGroup := [
  .written (role.path ++ ["replicas"]) (natToJson role.replicas),
  .written (role.path ++ ["template", "metadata", "labels"]) (.texts id.podLabels)]

/-- A role with pods also has the members of its container. A role without pods is not there. -/
def TrainingRole.table (role : TrainingRole) (id : Identity)
    (container : Except JobFault Container) : List MarkGroup :=
  if role.replicas = 0 then [.absent role.path]
  else role.headTable id ++
    [.firstItem (role.path ++ ["template", "spec", "containers"])
      (container.toOption.elim [] Container.members)]

namespace Compiler

/-- The template of an object that an operator gets. -/
def authored? : Workload → Option TemplateName
  | .plain | .queueAdmitted _ => none
  | .flink _ => some .flinkDeployment
  | .spark _ => some .sparkApplication
  | .training _ => some .trainingJob

/-- What is written for a workload beside identity and kind. -/
def workloadTable (b : Blueprint) (id : Identity) : Workload → List MarkGroup
  | .plain | .queueAdmitted _ => []
  | .flink p => p.table b.request id
  | .spark p => p.table b.request id ((parseMember "args" b.request.args).toOption.getD [])
  | .training p => p.roles.flatMap fun role => role.table id
      (b.mainContainer trainingContainer (role.resources.getD b.request.resources))

/-- All that is written into the template of a request. -/
def table (c : Compiler) (r : Request) (index : Option Nat) : List MarkGroup :=
  let name := derivedName r.taskName r.taskInstanceId index
  let id := Identity.ofRequest r name
  id.table ++ workloadTable (c.blueprint r index (containerName r.kind name)) id r.workload ++
    (c.catalog.resolve r.kind.objectKind).table

end Compiler

/-! ## Tables without clashes -/

namespace MarkGroup

variable {g : MarkGroup} {gs : List MarkGroup}

/-- No two marks of the group are in each other's way. -/
def Clear (g : MarkGroup) : Prop :=
  g.inner.Pairwise fun m n => Pointer.Parts m.pointer n.pointer

theorem clear_written (path : Path) (value : Value) : (written path value).Clear :=
  List.pairwise_singleton _ _

theorem clear_absent (path : Path) : (absent path).Clear :=
  List.pairwise_singleton _ _

theorem clear_optional (path : Path) (value : Option Value) : (optional path value).Clear := by
  cases value with
  | none => exact .nil
  | some v => exact List.pairwise_singleton _ _

/-- Members of different names are not in each other's way. -/
theorem pairwise_members {α : Type} {f : α → Value} {table : List (String × α)}
    (hnodup : (table.map Prod.fst).Nodup) :
    (table.map fun p => (⟨[.member p.1], some (f p.2)⟩ : Mark)).Pairwise
      fun m n => Pointer.Parts m.pointer n.pointer := by
  rw [List.pairwise_map]
  exact (List.pairwise_map.1 hnodup).imp fun hne => Or.inl hne

theorem clear_labels (path : Path) {table : Fields String} (h : table.Sorted) :
    (labels path table).Clear :=
  pairwise_members h.nodup

theorem clear_firstItem (path : Path) {members : List (String × Value)}
    (h : (members.map Prod.fst).Nodup) : (firstItem path members).Clear :=
  pairwise_members (f := fun v => v) h

/-- Groups below pointers that part are not in each other's way. -/
theorem pairwise_marks (hclear : ∀ g ∈ gs, g.Clear)
    (hbases : (gs.map base).Pairwise Pointer.Parts) :
    (gs.flatMap marks).Pairwise fun m n => Pointer.Parts m.pointer n.pointer := by
  refine List.pairwise_flatMap.2 ⟨fun g hg => ?_, (List.pairwise_map.1 hbases).imp ?_⟩
  · exact List.pairwise_map.2 ((hclear g hg).imp fun hparts => hparts.within g.base)
  · intro g g' hparts m hm n hn
    obtain ⟨m, -, rfl⟩ := List.mem_map.1 hm
    obtain ⟨n, -, rfl⟩ := List.mem_map.1 hn
    exact ((hparts.append_right n.pointer).symm.append_right m.pointer).symm

end MarkGroup

/-! ## Pointers of tables -/

section Bases

variable (r : Request) (id : Identity) (place : Coordinates)

theorem Identity.bases_eq :
    id.table.map MarkGroup.base = [["metadata", "name"], ["metadata", "namespace"],
      ["metadata", "labels"]].map Path.pointer := rfl

theorem Coordinates.bases_eq :
    place.table.map MarkGroup.base = [["apiVersion"], ["kind"]].map Path.pointer := rfl

/-- The pointers do not depend on what is written. -/
theorem FlinkParams.bases_eq (p : FlinkParams) : (p.table r id).map MarkGroup.base =
    (FlinkParams.table .standard (.etl false) ⟨"", "", [], []⟩).map MarkGroup.base := rfl

theorem SparkParams.bases_eq (p : SparkParams) (arguments : List String) :
    (p.table r id arguments).map MarkGroup.base =
      (SparkParams.table .standard (.etl false) ⟨"", "", [], []⟩ []).map MarkGroup.base := rfl

theorem TrainingRole.bases_eq (role : TrainingRole) (container : Except JobFault Container) :
    (role.table id container).map MarkGroup.base =
      if role.replicas = 0 then [role.path.pointer]
      else [(role.path ++ ["replicas"]).pointer,
        (role.path ++ ["template", "metadata", "labels"]).pointer,
        (role.path ++ ["template", "spec", "containers"]).pointer ++ [.item 0]] := by
  unfold TrainingRole.table
  split <;> rfl

/-- No two entries of a table are at pointers of which one leads through the other. -/
theorem Compiler.bases_part (b : Blueprint) (workload : Workload) :
    ((id.table ++ workloadTable b id workload ++ place.table).map MarkGroup.base).Pairwise
      Pointer.Parts := by
  rw [List.map_append, List.map_append, Identity.bases_eq, Coordinates.bases_eq]
  cases workload with
  | plain | queueAdmitted replicas =>
    rw [workloadTable, List.map_nil]
    decide +kernel
  | flink p =>
    rw [workloadTable, FlinkParams.bases_eq]
    decide +kernel
  | spark p =>
    rw [workloadTable, SparkParams.bases_eq]
    decide +kernel
  | training p =>
    simp only [workloadTable, TrainingParams.roles, List.flatMap_cons, List.flatMap_nil,
      List.append_nil, List.map_append, TrainingRole.bases_eq, TrainingRole.path]
    split <;> split <;> decide +kernel

end Bases

section Clear

open MarkGroup

variable {id : Identity} {b : Blueprint}

theorem Container.nodup_members (c : Container) : (c.members.map Prod.fst).Nodup :=
  (Fields.sorted_ofPairs _).nodup

theorem Container.members_ne_nil (c : Container) : c.members ≠ [] := by
  have hname : c.toJson.get? "name" = some (.str c.name) :=
    Value.get?_objectSome (by simp) (.head _)
  intro hnil
  rw [toJson, hnil] at hname
  cases hname

theorem TrainingRole.clear_table (role : TrainingRole) (container : Except JobFault Container) :
    ∀ g ∈ role.table id container, g.Clear := by
  unfold TrainingRole.table
  split
  · exact List.forall_mem_singleton.2 (clear_absent _)
  · refine List.forall_mem_append.2 ⟨by simp [headTable, clear_written],
      List.forall_mem_singleton.2 (clear_firstItem _ ?_)⟩
    cases container with
    | error e => exact .nil
    | ok c => exact c.nodup_members

theorem Compiler.clear_table (h : id.labels.Sorted) (place : Coordinates) (workload : Workload) :
    ∀ g ∈ id.table ++ workloadTable b id workload ++ place.table, g.Clear := by
  rw [List.forall_mem_append, List.forall_mem_append]
  refine ⟨⟨?_, ?_⟩, ?_⟩
  · simp [Identity.table, clear_written, clear_labels _ h]
  · cases workload with
    | plain | queueAdmitted replicas => exact List.forall_mem_nil _
    | flink p =>
      simp [workloadTable, FlinkParams.table, clear_written, clear_optional, clear_firstItem]
    | spark p =>
      simp [workloadTable, SparkParams.table, clear_written, clear_optional, clear_labels _ h]
    | training p =>
      exact List.forall_mem_flatMap.2 fun role _ => role.clear_table _
  · simp [Coordinates.table, clear_written]

end Clear

/-! ## Overlays and their tables -/

section Edits

open MarkGroup

variable {id : Identity} {b : Blueprint}

theorem Json.Edit.marks_set (path : Path) (new : Value) :
    (Edit.set path new).marks = (written path new).marks := rfl

theorem Json.Edit.marks_assign (parent : Path) (key : String) (new : Value) :
    (Edit.assign parent key new).marks = (written (parent ++ [key]) new).marks := by
  simp [Edit.marks, Edit.inner, Edit.root, MarkGroup.marks, written, Mark.below, Path.pointer]

theorem Json.Edit.marks_drop (parent : Path) (key : String) :
    (Edit.drop parent key).marks = (absent (parent ++ [key])).marks := by
  simp [Edit.marks, Edit.inner, Edit.root, MarkGroup.marks, absent, Mark.below, Path.pointer]

theorem Json.Edit.marks_extendFirst (base path : Path) (added : List (String × Value)) :
    (Edit.extendFirst base path added).marks = (firstItem (base ++ path) added).marks := by
  simp [Edit.marks, Edit.inner, Edit.root, MarkGroup.marks, firstItem, Mark.below]

theorem Json.Edit.marks_setSome {α : Type} (path : Path) (f : α → Value) (x : Option α) :
    (Edit.setSome path f x).flatMap Edit.marks = (optional path (x.map f)).marks := by
  cases x <;> rfl

theorem Identity.marks_labelEdits (id : Identity) (path : Path) :
    (id.labelEdits path).flatMap Edit.marks = (MarkGroup.labels path id.labels).marks := by
  have hlabel (p : String × String) : (Edit.set (path ++ [p.1]) (.str p.2)).marks =
      [⟨path.pointer ++ [.member p.1], some (.str p.2)⟩] := by
    simp [Edit.marks, Edit.inner, Edit.root, Mark.below, Path.pointer]
  rw [labelEdits, List.flatMap_map]
  simp only [hlabel]
  rw [← List.map_eq_flatMap, MarkGroup.marks, MarkGroup.labels, List.map_map]
  rfl

theorem Identity.marks_edits (id : Identity) :
    id.edits.flatMap Edit.marks = id.table.flatMap MarkGroup.marks := by
  simp only [edits, table, List.flatMap_append, List.flatMap_cons, List.flatMap_nil,
    List.append_nil, List.append_assoc, Edit.marks_assign, Identity.marks_labelEdits]
  rfl

/-- The edits that write the kind of an object. -/
def Coordinates.edits (place : Coordinates) : List Edit :=
  [.set ["apiVersion"] (.str place.apiVersion), .set ["kind"] (.str place.kind)]

theorem Coordinates.marks_edits (place : Coordinates) :
    place.edits.flatMap Edit.marks = place.table.flatMap MarkGroup.marks := rfl

theorem FlinkParams.marks_edits (p : FlinkParams) : (flinkEdits b id p).flatMap Edit.marks =
    (p.table b.request id).flatMap MarkGroup.marks := by
  simp only [flinkEdits, table, List.flatMap_append, List.flatMap_cons, List.flatMap_nil,
    List.append_nil, List.append_assoc, Edit.marks_assign, Edit.marks_set, Edit.marks_extendFirst,
    Edit.marks_setSome]
  rfl

theorem SparkParams.marks_edits (p : SparkParams) (arguments : List String) :
    (sparkEdits b id p arguments).flatMap Edit.marks =
      (p.table b.request id arguments).flatMap MarkGroup.marks := by
  have himage : (if Text.isBlankText b.request.image then []
      else [Edit.assign ["spec"] "image" (.str b.request.image)]).flatMap Edit.marks =
      (optional ["spec", "image"] (if Text.isBlankText b.request.image then none
        else some (.str b.request.image))).marks := by
    split <;> rfl
  have harguments : (if arguments.isEmpty then []
      else [Edit.set ["spec", "arguments"] (.strings arguments)]).flatMap Edit.marks =
      (optional ["spec", "arguments"]
        (if arguments.isEmpty then none else some (.strings arguments))).marks := by
    split <;> rfl
  simp only [sparkEdits, table, sparkRoles, List.flatMap_append, List.flatMap_cons,
    List.flatMap_nil, List.append_nil, List.append_assoc, himage, harguments, Edit.marks_assign,
    Edit.marks_set, Edit.marks_setSome, Identity.marks_labelEdits]
  rfl

theorem Identity.writes_labelEdits (id : Identity) (path : Path) :
    ∀ e ∈ id.labelEdits path, e.Writes := by
  intro e he
  obtain ⟨p, -, rfl⟩ := Identity.mem_labelEdits.1 he
  trivial

theorem Identity.writes_edits (id : Identity) : ∀ e ∈ id.edits, e.Writes :=
  List.forall_mem_append.2 ⟨by simp, id.writes_labelEdits _⟩

theorem writes_flinkEdits (b : Blueprint) (id : Identity) (p : FlinkParams) :
    ∀ e ∈ flinkEdits b id p, e.Writes := by
  simp only [flinkEdits, List.forall_mem_append, List.forall_mem_cons, Edit.forall_mem_setSome]
  simp

theorem writes_sparkEdits (b : Blueprint) (id : Identity) (p : SparkParams)
    (arguments : List String) : ∀ e ∈ sparkEdits b id p arguments, e.Writes := by
  simp only [sparkEdits, List.forall_mem_append, List.forall_mem_flatMap, List.forall_mem_cons,
    Edit.forall_mem_setSome]
  simpa using fun role _ => id.writes_labelEdits _

/-- What a role writes into an object is what its table says. -/
theorem exists_edits_of_renderRole {role : TrainingRole} {v w : Value}
    (h : renderRole b id role v = .ok w) : ∃ es, Edit.applyAll es v = .ok w ∧
      (∀ e ∈ es, e.Writes) ∧ es.flatMap Edit.marks =
        (role.table id (b.mainContainer trainingContainer
          (role.resources.getD b.request.resources))).flatMap MarkGroup.marks := by
  by_cases hreplicas : role.replicas = 0
  · have h := (renderRole_absent_eq_ok_iff hreplicas).1 h
    refine ⟨[.drop rolesPath role.name], bind_eq_ok_iff.2 ⟨w, h, rfl⟩, by simp, ?_⟩
    rw [TrainingRole.table, if_pos hreplicas]
    simp only [List.flatMap_cons, List.flatMap_nil, Edit.marks_drop]
    rfl
  · obtain ⟨container, hcontainer, h⟩ := (renderRole_present_eq_ok_iff hreplicas).1 h
    refine ⟨role.edits id container, h, ?_, ?_⟩
    · simp [TrainingRole.edits, container.members_ne_nil, container.nodup_members]
    · rw [TrainingRole.table, if_neg hreplicas, hcontainer]
      simp only [TrainingRole.edits, TrainingRole.headTable, List.flatMap_append,
        List.flatMap_cons, List.flatMap_nil, List.append_nil, Edit.marks_assign, Edit.marks_set,
        Edit.marks_extendFirst]
      rfl

theorem exists_edits_of_renderRoles {roles : List TrainingRole} {v w : Value}
    (h : renderRoles b id roles v = .ok w) : ∃ es, Edit.applyAll es v = .ok w ∧
      (∀ e ∈ es, e.Writes) ∧ es.flatMap Edit.marks =
        (roles.flatMap fun role => role.table id (b.mainContainer trainingContainer
          (role.resources.getD b.request.resources))).flatMap MarkGroup.marks := by
  induction roles generalizing v with
  | nil =>
    cases h
    exact ⟨[], rfl, List.forall_mem_nil _, rfl⟩
  | cons role roles ih =>
    obtain ⟨u, hu, h⟩ := bind_eq_ok_iff.1 h
    obtain ⟨es, hes, hwrites, hmarks⟩ := exists_edits_of_renderRole hu
    obtain ⟨fs, hfs, hwrites', hmarks'⟩ := ih h
    refine ⟨es ++ fs, Edit.applyAll_append_eq_ok_iff.2 ⟨u, hes, hfs⟩,
      List.forall_mem_append.2 ⟨hwrites, hwrites'⟩, ?_⟩
    rw [List.flatMap_append, hmarks, hmarks', List.flatMap_cons, List.flatMap_append]

end Edits

section Compiled

variable {c : Compiler} {r : Request} {index : Option Nat} {m : Manifest} {b : Blueprint}
  {id : Identity} {workload : Workload} {name : TemplateName} {object : Value}

/-- The object of an operator is its template after edits that write what is in the table. -/
theorem Compiler.exists_edits_of_render (hname : authored? workload = some name)
    (h : c.render b id workload = .ok object) :
    ∃ es, Edit.applyAll es (c.templates name) = .ok object ∧ (∀ e ∈ es, e.Writes) ∧
      es.flatMap Edit.marks = (id.table ++ workloadTable b id workload).flatMap MarkGroup.marks := by
  cases workload with
  | plain | queueAdmitted replicas => cases hname
  | flink p =>
    cases hname
    refine ⟨_, render_flink_eq_ok_iff.1 h,
      List.forall_mem_append.2 ⟨id.writes_edits, writes_flinkEdits b id p⟩, ?_⟩
    rw [List.flatMap_append, List.flatMap_append, id.marks_edits, p.marks_edits, workloadTable]
  | spark p =>
    cases hname
    obtain ⟨arguments, harguments, h⟩ := render_spark_eq_ok_iff.1 h
    refine ⟨_, h, List.forall_mem_append.2 ⟨id.writes_edits, writes_sparkEdits b id p arguments⟩, ?_⟩
    rw [List.flatMap_append, List.flatMap_append, id.marks_edits, p.marks_edits, workloadTable,
      harguments]
    rfl
  | training p =>
    cases hname
    obtain ⟨named, hnamed, h⟩ := render_training_eq_ok_iff.1 h
    obtain ⟨es, hes, hwrites, hmarks⟩ := exists_edits_of_renderRoles h
    refine ⟨id.edits ++ es, Edit.applyAll_append_eq_ok_iff.2 ⟨named, hnamed, hes⟩,
      List.forall_mem_append.2 ⟨id.writes_edits, hwrites⟩, ?_⟩
    rw [List.flatMap_append, List.flatMap_append, id.marks_edits, hmarks, workloadTable]

/-- The kind is written as by edits. -/
theorem Compiler.applyAll_stamp (place : Coordinates) (object : Value) :
    Edit.applyAll place.edits object = .ok (stamp place object) := rfl

theorem Compiler.table_parts (c : Compiler) (index : Option Nat) (hsorted : r.labels.Sorted) :
    ((c.table r index).flatMap MarkGroup.marks).Pairwise
      fun m n => Pointer.Parts m.pointer n.pointer :=
  MarkGroup.pairwise_marks (clear_table (Identity.labels_sorted _ hsorted) _ _)
    (bases_part _ _ _ _)

theorem Compiler.lays_of_compile (hsorted : r.labels.Sorted)
    (hname : authored? r.workload = some name) (h : c.compile r index = .ok m) :
    Lays ((c.table r index).flatMap MarkGroup.marks) (c.templates name) m.object := by
  obtain ⟨-, object, hrender, rfl⟩ := compile_eq_ok_iff.1 h
  obtain ⟨es, hes, hwrites, hmarks⟩ := exists_edits_of_render hname hrender
  have hall := Edit.applyAll_append_eq_ok_iff.2
    ⟨object, hes, applyAll_stamp (c.catalog.resolve r.kind.objectKind) object⟩
  have htable : (es ++ (c.catalog.resolve r.kind.objectKind).edits).flatMap Edit.marks =
      (c.table r index).flatMap MarkGroup.marks := by
    rw [List.flatMap_append, hmarks, Coordinates.marks_edits, ← List.flatMap_append, table]
  rw [← htable]
  refine Edit.lays_applyAll hall (List.forall_mem_append.2 ⟨hwrites, ?_⟩) ?_
  · simp [Coordinates.edits]
  · rw [htable]
    exact c.table_parts index hsorted

end Compiled

/-! ## What is authored and what is written -/

/-- An object is its template with some marks, and all else is as authored. -/
structure OverlaySpec (template object : Value) (marks : List Mark) : Prop where
  /-- Nothing that is apart from all marks changes, present or absent. Only items of a list are gone
  if a mark leads through a member where the list was authored. -/
  untouched : ∀ q, (∀ m ∈ marks, Pointer.Apart m.pointer q) →
    object.point? q = template.point? q ∨
      object.point? q = none ∧ ∃ m ∈ marks, template.ListAt m.pointer q
  written : ∀ m ∈ marks, object.point? m.pointer = m.value
  /-- No mark is in another one's way. -/
  apart : marks.Pairwise fun m n => Pointer.Apart m.pointer n.pointer

theorem overlay_spec {c : Compiler} {r : Request} {index : Option Nat} {m : Manifest}
    {name : TemplateName} (hsorted : r.labels.Sorted)
    (hname : Compiler.authored? r.workload = some name) (h : c.compile r index = .ok m) :
    OverlaySpec (c.templates name) m.object ((c.table r index).flatMap MarkGroup.marks) := by
  have hlays := Compiler.lays_of_compile hsorted hname h
  refine ⟨fun q hq => ?_, hlays.written, (c.table_parts index hsorted).imp Pointer.Parts.apart⟩
  rcases hlays.untouched q hq with hsame | ⟨hgone, mark, hmark, hbars⟩
  · exact .inl hsame
  · cases hthere : (c.templates name).point? q with
    | none => exact .inl hgone
    | some x => exact .inr ⟨hgone, mark, hmark, Value.listAt_of_bars hbars hthere⟩

theorem overlay_of_labelled : Request.labelled.labels.Sorted ∧
    Compiler.authored? Request.labelled.workload = some .sparkApplication ∧
    ∃ m, Compiler.standard.compile .labelled none = .ok m ∧
      OverlaySpec (Compiler.standard.templates .sparkApplication) m.object
        ((Compiler.standard.table .labelled none).flatMap MarkGroup.marks) := by
  have hsorted : Request.labelled.labels.Sorted := by
    unfold Fields.Sorted
    decide
  have hok : Except.isOk (Compiler.standard.compile .labelled none) = true := by decide +kernel
  obtain ⟨m, h⟩ := exists_ok_of_isOk hok
  exact ⟨hsorted, rfl, m, h, overlay_spec hsorted rfl h⟩

/-! ## A training job without workers -/

/-- A training job with one master and no workers. -/
def Request.soloist : Request :=
  { Request.etl false with workload := .training ⟨1, 0, none, none⟩ }

/-- The metadata of the master's pods are a list, its container has an image, and there are workers. -/
def Templates.crowded : Templates
  | .trainingJob => .obj [
    ("metadata", .obj []),
    ("spec", .obj [("pytorchReplicaSpecs", .obj [
      ("Master", .obj [("template", .obj [
        ("metadata", .arr [.str "authored"]),
        ("spec", .obj [("containers", .arr [.obj [("image", .str "authored")]])])])]),
      ("Worker", .obj [("restartPolicy", .str "Never")])])])]
  | name => name.builtin

def Compiler.crowded : Compiler :=
  .ofSettings .crowded .standard

/-- Identity and kind of the job, and the count and the labels of its master. -/
def Request.soloistTable : List MarkGroup :=
  (Identity.ofRequest .soloist "etl-7").table ++
    TrainingRole.headTable ⟨"Master", 1, none⟩ (.ofRequest .soloist "etl-7") ++
    (Compiler.crowded.catalog.resolve Request.soloist.kind.objectKind).table

/-- The image of a container, a role without pods, and an item of the list that labels are put
below. -/
def Compiler.crowdedOut : List Pointer := [
  rolesPath.pointer ++ [.member "Master", .member "template", .member "spec",
    .member "containers", .item 0, .member "image"],
  rolesPath.pointer ++ [.member "Worker", .member "restartPolicy"],
  rolesPath.pointer ++ [.member "Master", .member "template", .member "metadata", .item 0]]

/-- Identity, kind, counts and labels are not all that the overlay of a training job writes. -/
theorem compile_crowded : ∃ m, Compiler.crowded.compile .soloist none = .ok m ∧
    ∀ q ∈ Compiler.crowdedOut,
      (∀ mark ∈ Request.soloistTable.flatMap MarkGroup.marks, Pointer.Apart mark.pointer q) ∧
        m.object.point? q ≠ (Compiler.crowded.templates .trainingJob).point? q := by
  have hapart : ∀ q ∈ Compiler.crowdedOut,
      ∀ mark ∈ Request.soloistTable.flatMap MarkGroup.marks, Pointer.Apart mark.pointer q := by
    decide +kernel
  have hrun : (Compiler.crowded.compile .soloist none).map (fun m =>
      decide (∀ q ∈ Compiler.crowdedOut, (m.object.point? q).bind Value.asString? ≠
        ((Compiler.crowded.templates .trainingJob).point? q).bind Value.asString?)) = .ok true := by
    decide +kernel
  obtain ⟨m, hm, hdiffer⟩ := map_eq_ok_iff.1 hrun
  refine ⟨m, hm, fun q hq => ⟨hapart q hq, fun hsame => ?_⟩⟩
  exact of_decide_eq_true hdiffer q hq (congrArg (·.bind Value.asString?) hsame)

end ClusterJobs
