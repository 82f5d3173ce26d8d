import ClusterJobs.Proofs.Manifest.Labels

/-!
# The application of a pod

Pods bear the application of the scheduler as a label, so that they can be traced back to it. Those of
a Spark job do not: its roles get the labels of the object, which leave the application out. They bear
it only if the request asks for the label itself, or the template already has it.
-/

namespace ClusterJobs

open Json (Value Path Edit)

/-- The label of the application on the pods of an object, template by template. -/
def Manifest.applications (m : Manifest) : List (Option Value) :=
  m.podLabels.map (Option.bind · fun labels => labels.get? applicationLabel)

/-- Every pod of the object names the application. -/
def Manifest.NamesApplication (m : Manifest) (application : String) : Prop :=
  ∀ a ∈ m.applications, a = some (.str application)

/-- Where the template of a Spark job has the label of the application for a role. -/
def sparkApplicationPath (role : String) : Path :=
  ["spec", role, "labels", applicationLabel]

/-! ## Labels of a role -/

section Roles

variable {b : Blueprint} {id : Identity} {v w : Value} {p : SparkParams} {arguments : List String}
  {role key : String}

/-- A label that is not of the identity is as the template has it. -/
theorem at?_label_spark_of_absent (hkey : id.labels.get? key = none)
    (h : Edit.applyAll (id.edits ++ sparkEdits b id p arguments) v = .ok w)
    (hrole : role ∈ sparkRoles) :
    w.at? ["spec", role, "labels", key] = v.at? ["spec", role, "labels", key] := by
  have hlabels (other : String) : ∀ e ∈ id.labelEdits ["spec", other, "labels"],
      Path.Apart e.place ["spec", role, "labels", key] := by
    intro e he
    obtain ⟨⟨key', value⟩, hp, rfl⟩ := Identity.mem_labelEdits.1 he
    have hne : key' ≠ key := Fields.get?_eq_none_iff.1 hkey _ hp
    simp [hne]
  refine Edit.at?_applyAll_of_apart h (List.forall_mem_append.2 ⟨fun e he => ?_, ?_⟩)
  · exact Identity.apart_of_mem_edits he (by simp) _
  · simp only [sparkRoles, List.mem_cons, List.not_mem_nil, or_false] at hrole
    simp only [sparkEdits, sparkRoles, List.flatMap_cons, List.flatMap_nil, List.forall_mem_append,
      List.forall_mem_cons, Edit.forall_mem_setSome]
    rcases hrole with rfl | rfl <;> simpa using ⟨hlabels "driver", hlabels "executor"⟩

/-- A label of a role is that of the identity, else that of the template. -/
theorem at?_label_spark_eq (hsorted : id.labels.Sorted)
    (h : Edit.applyAll (id.edits ++ sparkEdits b id p arguments) v = .ok w)
    (hrole : role ∈ sparkRoles) (key : String) :
    w.at? ["spec", role, "labels", key] =
      ((id.labels.get? key).map Value.str).or (v.at? ["spec", role, "labels", key]) := by
  cases hkey : id.labels.get? key with
  | none => exact at?_label_spark_of_absent hkey h hrole
  | some value => exact at?_label_spark hsorted h (Fields.mem_of_get? hkey) hrole

end Roles

/-! ## Applications of a request -/

section Compiled

variable {c : Compiler} {r : Request} {index : Option Nat} {m : Manifest}

theorem Identity.get?_podLabels_application (r : Request) (name : String) (h : r.taskAppId ≠ "") :
    (Identity.ofRequest r name).podLabels.get? applicationLabel = some r.taskAppId := by
  have hempty : ¬ r.taskAppId.isEmpty = true := by simpa using h
  unfold Identity.ofRequest
  dsimp only
  rw [if_neg hempty, Fields.get?_put_self]

/-- The labels of the object have the application only if the request asks for it. -/
theorem Identity.get?_labels_application (r : Request) (name : String) :
    (Identity.ofRequest r name).labels.get? applicationLabel = r.labels.get? applicationLabel := by
  rw [get?_labels, if_neg (by decide), if_neg (by decide)]

theorem namesApplication_of_compile (h : c.compile r index = .ok m) (happ : r.taskAppId ≠ "")
    (hspark : r.kind ≠ .spark) : m.NamesApplication r.taskAppId := by
  intro a ha
  rw [Manifest.applications, podLabels_eq_replicate h hspark, List.map_replicate] at ha
  rw [List.eq_of_mem_replicate ha]
  exact Value.texts_bears _ _ _ (Identity.get?_podLabels_application r m.name happ)

/-- The roles of a Spark job have the label that the request asks for, else that of the template. -/
theorem applications_of_spark (hsorted : r.labels.Sorted) (h : c.compile r index = .ok m)
    (hspark : r.kind = .spark) :
    m.applications = sparkRoles.map fun role =>
      ((r.labels.get? applicationLabel).map Value.str).or
        ((c.templates .sparkApplication).at? (sparkApplicationPath role)) := by
  obtain ⟨-, object, hrender, rfl⟩ := Compiler.compile_eq_ok_iff.1 h
  simp only [Manifest.applications, Manifest.podLabels, hspark, Compiler.at?_spec_stamp,
    List.map_map]
  refine List.map_congr_left fun role hrole => ?_
  cases hw : r.workload with
  | spark p =>
    rw [hw] at hrender
    obtain ⟨arguments, -, hedits⟩ := Compiler.render_spark_eq_ok_iff.1 hrender
    rw [← Identity.get?_labels_application r (derivedName r.taskName r.taskInstanceId index)]
    refine Eq.trans ?_ (at?_label_spark_eq (Identity.labels_sorted _ hsorted) hedits hrole _)
    exact (Value.at?_concat object ["spec", role, "labels"] applicationLabel).symm
  | _ => simp [Request.kind, hw, Workload.kind] at hspark

end Compiled

/-! ## Main result -/

/-- Which pods name the application of a request that has one. -/
structure ApplicationSpec (c : Compiler) (r : Request) (m : Manifest) : Prop where
  count : m.applications.length = r.workload.templateCount
  named : r.kind ≠ .spark → m.NamesApplication r.taskAppId
  /-- What the driver and the executor of a Spark job bear does not depend on the application. -/
  spark : r.kind = .spark → m.applications = sparkRoles.map fun role =>
    ((r.labels.get? applicationLabel).map Value.str).or
      ((c.templates .sparkApplication).at? (sparkApplicationPath role))
  named_iff : m.NamesApplication r.taskAppId ↔ (r.kind = .spark →
    r.labels.get? applicationLabel = some r.taskAppId ∨
      r.labels.get? applicationLabel = none ∧ ∀ role ∈ sparkRoles,
        (c.templates .sparkApplication).at? (sparkApplicationPath role) = some (.str r.taskAppId))
  /-- The built-in template does not have the label. -/
  builtin : r.kind = .spark →
    c.templates .sparkApplication = TemplateName.builtin .sparkApplication →
    r.labels.get? applicationLabel = none → m.applications = [none, none]

theorem applications_spec {c : Compiler} {r : Request} {index : Option Nat} {m : Manifest}
    (hsorted : r.labels.Sorted) (happ : r.taskAppId ≠ "") (h : c.compile r index = .ok m) :
    ApplicationSpec c r m := by
  have hspark := applications_of_spark hsorted h
  constructor
  case count =>
    rw [Manifest.applications, List.length_map]
    exact (podLabels_of_compile hsorted h).1
  case named => exact namesApplication_of_compile h happ
  case spark => exact hspark
  case named_iff =>
    by_cases hkind : r.kind = .spark
    · simp only [hkind, true_implies, Manifest.NamesApplication, hspark hkind,
        List.forall_mem_map]
      cases r.labels.get? applicationLabel <;> simp [sparkRoles]
    · exact iff_of_true (namesApplication_of_compile h happ hkind) fun heq => absurd heq hkind
  case builtin =>
    intro hkind htemplate hlabel
    rw [hspark hkind, hlabel, htemplate]
    rfl

/-! ## Spark jobs of an application -/

theorem applications_of_labelled : Request.labelled.labels.Sorted ∧
    Request.labelled.taskAppId ≠ "" ∧
    ∃ m, Compiler.standard.compile .labelled none = .ok m ∧
      ApplicationSpec .standard .labelled m ∧ ¬ m.NamesApplication Request.labelled.taskAppId := by
  have hsorted : Request.labelled.labels.Sorted := by
    unfold Fields.Sorted
    decide
  have happ : Request.labelled.taskAppId ≠ "" := by decide
  have hok : Except.isOk (Compiler.standard.compile .labelled none) = true := by decide +kernel
  obtain ⟨m, h⟩ := exists_ok_of_isOk hok
  have hspec := applications_spec hsorted happ h
  refine ⟨hsorted, happ, m, h, hspec, fun hnames => ?_⟩
  -- The request asks for the label with another value.
  have hasked := hspec.named_iff.1 hnames rfl
  simp [Request.labelled, Request.etl, Fields.get?, applicationLabel] at hasked

/-- A Spark job without labels of its own. -/
def Request.unlabelled : Request :=
  { Request.etl false with workload := .spark .standard }

/-- A sound request of an application compiles to a Spark job whose pods do not name it. -/
theorem compile_unlabelled :
    Request.unlabelled.check = .ok () ∧ Request.unlabelled.taskAppId = "app-7" ∧
      ∃ m, Compiler.standard.compile .unlabelled none = .ok m ∧ m.applications = [none, none] ∧
        ¬ m.NamesApplication "app-7" := by
  have hok : Except.isOk (Compiler.standard.compile .unlabelled none) = true := by decide +kernel
  obtain ⟨m, h⟩ := exists_ok_of_isOk hok
  have hsorted : Request.unlabelled.labels.Sorted := .nil
  have hnone : m.applications = [none, none] := applications_of_spark hsorted h rfl
  refine ⟨by decide +kernel, rfl, m, h, hnone, fun hnames => ?_⟩
  rw [Manifest.NamesApplication, hnone] at hnames
  cases hnames none (.head _)

end ClusterJobs
