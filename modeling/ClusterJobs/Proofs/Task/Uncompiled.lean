import ClusterJobs.Proofs.Manifest.GangSizes
import ClusterJobs.Proofs.Task.Executions

/-!
# Requests that do not compile

With built-in templates a sound request compiles exactly if every list that its workload uses can be
read, and it asks for no more pods than a word can count. If it does not, its run ends with the fault
of the first job that does not compile, and nothing was asked of anyone, whichever other jobs do
compile.
-/

namespace ClusterJobs

open Json (Value)

/-! ## Main result -/

/-- When a request compiles, and what comes of it if it does not. -/
structure CompilationSpec (e : Engine) (r : Request) : Prop where
  /-- It compiles exactly if the lists that it uses can be read and its pods can be counted. -/
  compiles_iff : (∃ ms, e.compiler.compileAll r = .ok ms) ↔
    (∀ text ∈ r.usedTexts, ∃ items, Yaml.parseList text = .ok items) ∧ ¬ r.workload.Overfull
  /-- If its pods can be counted, its fault is that of the first list that cannot be read. -/
  fault_iff : ¬ r.workload.Overfull → ∀ fault, e.compiler.compileAll r = .error fault ↔
    ∃ before l after, r.lists = before ++ l :: after ∧ (∀ l' ∈ before, l'.Readable) ∧
      l.FailsWith fault
  /-- Each job fails by its own lists, or else because of the number of its pods. -/
  job_fault_iff : ∀ index ∈ r.places, ∀ fault, e.compiler.compile r index = .error fault ↔
    r.FailsAt index fault
  /-- With too many pods no job compiles, so that the fault is that of the first. -/
  overfull_fault_iff : r.workload.Overfull → ∃ place rest, r.places = place :: rest ∧
    ∀ fault, e.compiler.compileAll r = .error fault ↔ r.FailsAt place fault
  /-- If any job does not compile, the run ends with the fault of the first such job: the state is as
  before, and no call was made. -/
  untouched : (∃ index ∈ r.places, ∀ m, e.compiler.compile r index ≠ .ok m) →
    ∃ before place after fault, r.places = before ++ place :: after ∧
      (∀ index ∈ before, ∃ m, e.compiler.compile r index = .ok m) ∧
      e.compiler.compile r place = .error fault ∧
      ∀ {σ : Type} (h : Program.Handler Call Answer (Timed σ)) (ctx : Context) (s : Timed σ),
        e.run h r ctx s = (some (.error fault), s) ∧ e.calls h r ctx s = []

section Spec

variable {e : Engine} {r : Request}

/-- The fault of the first job that does not compile is that of the run. -/
theorem Engine.untouched_of_uncompiled {index : Option Nat} (hindex : index ∈ r.places)
    (huncompiled : ∀ m, e.compiler.compile r index ≠ .ok m) :
    ∃ before place after fault, r.places = before ++ place :: after ∧
      (∀ index ∈ before, ∃ m, e.compiler.compile r index = .ok m) ∧
      e.compiler.compile r place = .error fault ∧
      ∀ {σ : Type} (h : Program.Handler Call Answer (Timed σ)) (ctx : Context) (s : Timed σ),
        e.run h r ctx s = (some (.error fault), s) ∧ e.calls h r ctx s = [] := by
  cases hall : e.compiler.compileAll r with
  | ok ms =>
    obtain ⟨m, -, hm⟩ := Compiler.exists_mem_of_place hall hindex
    exact absurd hm (huncompiled m)
  | error fault =>
    have hfirst := e.compiler.faultOf_compileAll r
    rw [hall, faultOf_error, eq_comm, List.findSome?_eq_some_iff] at hfirst
    obtain ⟨before, place, after, hplaces, hplace, hbefore⟩ := hfirst
    refine ⟨before, place, after, fault, hplaces, fun other hother => ?_,
      faultOf_eq_some_iff.1 hplace, fun h ctx s => ?_⟩
    · exact faultOf_eq_none_iff.1 (hbefore other hother)
    · exact ⟨Engine.run_of_fault hall, Engine.calls_of_fault hall⟩

theorem compilation_spec (hbuiltin : e.compiler.templates = TemplateName.builtin)
    (hcheck : r.check = .ok ()) : CompilationSpec e r := by
  obtain ⟨hresources, hitems⟩ := Request.sound_of_check hcheck
  have hplaces := Request.places_ne_nil hitems
  have hjob (index : Option Nat) (hindex : index ∈ r.places) (fault : JobFault) :
      e.compiler.compile r index = .error fault ↔ r.FailsAt index fault :=
    Compiler.compile_eq_error_iff hbuiltin hresources hindex
  have hlists := Compiler.faultOf_compileAll_of_builtin hbuiltin hresources
  have hfirst := Compiler.faultOf_compileAll_of_overfull hbuiltin hresources
  constructor
  case compiles_iff =>
    by_cases hpods : r.workload.Overfull
    · obtain ⟨place, rest, hsplit⟩ := List.exists_cons_of_ne_nil hplaces
      refine iff_of_false ?_ fun h => h.2 hpods
      rw [← faultOf_eq_none_iff, hfirst hpods hsplit, Compiler.faultOf_compile hbuiltin hresources
        (hsplit ▸ .head _), Workload.podsFault?, if_pos hpods]
      simp
    · rw [and_iff_left hpods, ← faultOf_eq_none_iff, hlists hpods, List.findSome?_eq_none_iff]
      simp only [Request.mem_usedTexts_iff hplaces, WrittenList.fault?_eq_none_iff,
        WrittenList.Readable]
      constructor
      · rintro h text ⟨l, hl, rfl⟩
        exact h l hl
      · exact fun h l hl => h l.2 ⟨l, hl, rfl⟩
  case fault_iff =>
    intro hpods fault
    rw [← faultOf_eq_some_iff, hlists hpods, List.findSome?_eq_some_iff]
    simp only [WrittenList.fault?_eq_some_iff, WrittenList.fault?_eq_none_iff, and_comm]
  case job_fault_iff =>
    exact hjob
  case overfull_fault_iff =>
    intro hpods
    obtain ⟨place, rest, hsplit⟩ := List.exists_cons_of_ne_nil hplaces
    refine ⟨place, rest, hsplit, fun fault => ?_⟩
    rw [← hjob place (hsplit ▸ .head _), ← faultOf_eq_some_iff, hfirst hpods hsplit, faultOf_eq_some_iff]
  case untouched =>
    rintro ⟨index, hindex, huncompiled⟩
    exact Engine.untouched_of_uncompiled hindex huncompiled

end Spec

/-! ## A fan-out of which one job compiles -/

/-- The arguments for the second data source are no list. -/
def Request.halfReadable : Request :=
  { Request.twoSources with fetches := [
      { FetchSpec.standard with fetchName := "a", args := "[a]" },
      { FetchSpec.standard with fetchName := "b", args := "b: c" }] }

/-- The engine of the built-in templates and the standard settings. -/
def Engine.builtin : Engine :=
  .ofSettings TemplateName.builtin .standard 0 .standard

theorem compilation_of_halfReadable :
    Request.halfReadable.check = .ok () ∧ CompilationSpec .builtin .halfReadable ∧
      (∃ m, Engine.builtin.compiler.compile .halfReadable (some 0) = .ok m) ∧
      ∃ fault, ∀ {σ : Type} (h : Program.Handler Call Answer (Timed σ)) (ctx : Context)
        (s : Timed σ), Engine.builtin.run h .halfReadable ctx s = (some (.error fault), s) ∧
          Engine.builtin.calls h .halfReadable ctx s = [] := by
  have hcheck : Request.halfReadable.check = .ok () := by decide +kernel
  have hspec : CompilationSpec .builtin .halfReadable := compilation_spec rfl hcheck
  have hfirst : (Engine.builtin.compiler.compile .halfReadable (some 0)).isOk = true := by
    decide +kernel
  have hsecond : (Engine.builtin.compiler.compile .halfReadable (some 1)).isOk = false := by
    decide +kernel
  refine ⟨hcheck, hspec, exists_ok_of_isOk hfirst, ?_⟩
  obtain ⟨-, -, -, fault, -, -, -, hrun⟩ := hspec.untouched ⟨some 1, by decide, fun m hm => by
    rw [hm] at hsecond
    cases hsecond⟩
  exact ⟨fault, hrun⟩

/-! ## Too many pods -/

/-- A sound request with no list to read still does not compile if it asks for too many pods. -/
theorem compilation_of_overfull : Request.overfull.check = .ok () ∧
    (∀ text ∈ Request.overfull.usedTexts, ∃ items, Yaml.parseList text = .ok items) ∧
    Engine.builtin.compiler.templates = TemplateName.builtin ∧
    Engine.builtin.compiler.compileAll .overfull = .error .tooManyPods := by
  have hlists : ∀ text ∈ Request.overfull.usedTexts, (Yaml.parseList text).isOk = true := by
    decide +kernel
  have hcompile : faultOf (Engine.builtin.compiler.compileAll .overfull) = some .tooManyPods := by
    decide +kernel
  exact ⟨by decide +kernel, fun text htext => exists_ok_of_isOk (hlists text htext), rfl,
    faultOf_eq_some_iff.1 hcompile⟩

end ClusterJobs
