import ClusterJobs.Proofs.Manifest.Compiled
import ClusterJobs.Proofs.Manifest.Names
import ClusterJobs.Proofs.Task.Discarded

/-!
# Items of a fan-out

Every item has a name, a fetch spec and directories of its own. No item sees a directory of another,
whatever the directories of the request are.
-/

namespace ClusterJobs

open Json (Value)

/-! ## The pod of an item -/

section Pod

variable {b : Blueprint} {p : Pod} {i : Nat} {f : FetchSpec} {container : Container}
  {image : String}

theorem args_of_fetchContainer (h : fetchContainer image f = .ok container) :
    Yaml.parseList f.args = .ok container.args := by
  obtain ⟨args, hargs, h⟩ := bind_eq_ok_iff.1 h
  cases h
  simp only [parseMember] at hargs
  split at hargs
  · next items hitems =>
    cases hargs
    exact hitems
  · cases hargs

/-- The pod of an item fetches what its own fetch spec says. -/
theorem Blueprint.exists_fetch_of_pod (h : b.pod = .ok p) (hmultiple : b.request.multiple = true)
    (hindex : b.index = some i) :
    ∃ f container, b.request.fetches[i]? = some f ∧
      fetchContainer b.fetchImage f = .ok container ∧ p.fetcher = some container ∧
      p.volumes = b.dataVolumes.map Prod.fst ++ [b.fetchVolumeOf f] := by
  obtain ⟨fetch, hfetch, h⟩ := bind_eq_ok_iff.1 h
  simp only [Blueprint.fetch, hmultiple, hindex] at hfetch
  cases hf : b.request.fetches[i]? with
  | none =>
    rw [hf] at hfetch
    cases hfetch
  | some f =>
    rw [hf] at hfetch
    cases hfetch
    dsimp only at h
    obtain ⟨fetcher, hfetcher, h⟩ := bind_eq_ok_iff.1 h
    obtain ⟨container, hcontainer, rfl⟩ := map_eq_ok_iff.1 hfetcher
    obtain ⟨main, -, h⟩ := bind_eq_ok_iff.1 h
    cases h
    exact ⟨f, container, rfl, hcontainer, rfl, rfl⟩

end Pod

/-! ## Directories of an item -/

namespace Request

/-- The directory of an item below a base. -/
def itemPath (r : Request) (i : Nat) (base : String) : String :=
  joinPath base (toString r.taskInstanceId ++ "/" ++ toString i)

/-- The directories that an item sees: for its input, its output, and what it fetches. -/
def itemPaths (r : Request) (i : Nat) (f : FetchSpec) : List String :=
  r.volumes.inputHostPath.toList.map (r.itemPath i) ++
    [r.itemPath i r.volumes.outputHostPath, r.itemPath i f.hostPath]

end Request

section Paths

variable {r : Request} {i j : Nat} {f g : FetchSpec} {b : Blueprint} {p : Pod}

theorem hostPaths_of_item (hr : b.request = r) (hindex : b.index = some i)
    (hf : r.fetches[i]? = some f)
    (hvolumes : p.volumes = b.dataVolumes.map Prod.fst ++ [b.fetchVolumeOf f]) :
    p.volumes.map Volume.hostPath = r.itemPaths i f := by
  subst hr
  have hfetches : b.request.fetches.isEmpty = false := by
    rw [List.isEmpty_eq_false_iff_exists_mem]
    exact ⟨f, List.mem_of_getElem? hf⟩
  have hdirectory : b.itemDirectory = toString b.request.taskInstanceId ++ "/" ++ toString i := by
    rw [Blueprint.itemDirectory, hindex]
  have hinput : b.inputHostPath? = b.request.volumes.inputHostPath.map (b.request.itemPath i) := by
    simp only [Blueprint.inputHostPath?, hfetches, hdirectory]
    rfl
  rw [hvolumes, Blueprint.dataVolumes, hinput, Request.itemPaths]
  simp only [Blueprint.outputHostPath, Blueprint.fetchVolumeOf, hdirectory, List.map_append]
  cases b.request.volumes.inputHostPath <;> rfl

/-- Two items see no directory in common. -/
theorem itemPaths_disjoint (hij : i ≠ j) {path : String} (hi : path ∈ r.itemPaths i f) :
    path ∉ r.itemPaths j g := by
  have hbase {k : Nat} {f : FetchSpec} (h : path ∈ r.itemPaths k f) :
      ∃ base, path = r.itemPath k base := by
    rcases List.mem_append.1 h with h | h
    · obtain ⟨base, -, rfl⟩ := List.mem_map.1 h
      exact ⟨base, rfl⟩
    · simp only [List.mem_cons, List.not_mem_nil, or_false] at h
      rcases h with rfl | rfl
      · exact ⟨_, rfl⟩
      · exact ⟨_, rfl⟩
  intro hj
  obtain ⟨base, rfl⟩ := hbase hi
  obtain ⟨base', h⟩ := hbase hj
  exact hij (joinPath_inj.1 h).2.2

end Paths

/-! ## The manifests of a fan-out -/

/-- One container of a pod runs first, with these arguments. It has no such member without any. -/
def Json.Value.FetchesWith (spec : Value) (args : List String) : Prop :=
  ∃ container, spec.get? "initContainers" = some (.arr [container]) ∧
    container.get? "args" = if args = [] then none else some (.strings args)

/-- What sets the items of a fan-out apart. -/
structure FanOutItemsSpec (r : Request) (ms : List Manifest) : Prop where
  /-- There is one manifest for each item. -/
  count : ms.length = r.itemCount
  /-- It has the place and the name of its item, and its object is named so too. -/
  placed : ∀ (i : Nat) (m : Manifest), ms[i]? = some m → m.index = some i ∧
    m.name = derivedName r.taskName r.taskInstanceId (some i) ∧
    m.object.at? ["metadata", "name"] = some (.str m.name)
  /-- No two items have the same name. -/
  distinct : (ms.map Manifest.name).Nodup
  /-- No item is named like the job that is no fan-out, or like a job of the task for another
  instance. -/
  foreign : ∀ m ∈ ms, m.name ≠ derivedName r.taskName r.taskInstanceId none ∧
    ∀ id index, id ≠ r.taskInstanceId → m.name ≠ derivedName r.taskName id index
  /-- What is fetched for an item is what its own fetch spec says, and nothing else. -/
  fetched : ∀ (i : Nat) (m : Manifest), ms[i]? = some m → ∃ f args, r.fetches[i]? = some f ∧
    Yaml.parseList f.args = .ok args ∧ m.podSpecs ≠ [] ∧
    ∀ spec ∈ m.podSpecs, spec.FetchesWith args
  /-- Each pod of an item sees the directories of the item. -/
  paths : ∀ (i : Nat) (m : Manifest) (f : FetchSpec), ms[i]? = some m → r.fetches[i]? = some f →
    ∀ spec ∈ m.podSpecs, spec.hostPaths = r.itemPaths i f
  /-- No directory is seen by two items. -/
  apart : ∀ (i j : Nat) (m m' : Manifest), ms[i]? = some m → ms[j]? = some m' → i ≠ j →
    ∀ path ∈ m.hostPaths, path ∉ m'.hostPaths

section FanOut

variable {c : Compiler} {r : Request} {ms : List Manifest} {m : Manifest} {i : Nat}

theorem compileAll_of_multiple (hmultiple : r.multiple = true) (h : c.compileAll r = .ok ms) :
    ms.length = r.fetches.length ∧
      ∀ (i : Nat) (m : Manifest), ms[i]? = some m → c.compile r (some i) = .ok m := by
  rw [Compiler.compileAll, if_pos hmultiple] at h
  have hitems := Compiler.forall₂_of_compileItems h
  refine ⟨hitems.length_eq.symm.trans List.length_range, fun i m hm => ?_⟩
  obtain ⟨hlt, rfl⟩ := List.getElem?_eq_some_iff.1 hm
  have hrange : i < (List.range r.fetches.length).length := hitems.length_eq ▸ hlt
  simpa using hitems.get hrange hlt

/-- The places of the objects of a request: one on its own, or those of a fan-out. -/
def Request.places (r : Request) : List (Option Nat) :=
  if r.multiple then (List.range r.fetches.length).map some else [none]

theorem Compiler.forall₂_of_compileAll (h : c.compileAll r = .ok ms) :
    List.Forall₂ (fun index m => c.compile r index = .ok m) r.places ms := by
  unfold Request.places
  cases hmultiple : r.multiple with
  | true =>
    rw [Compiler.compileAll, if_pos hmultiple] at h
    rw [if_pos rfl]
    exact List.forall₂_map_left_iff.2 (Compiler.forall₂_of_compileItems h)
  | false =>
    rw [Compiler.compileAll, if_neg (ne_true_of_eq_false hmultiple)] at h
    obtain ⟨m, hm, rfl⟩ := map_eq_ok_iff.1 h
    exact .cons hm .nil

theorem Compiler.exists_place_of_mem (h : c.compileAll r = .ok ms) (hm : m ∈ ms) :
    ∃ index ∈ r.places, c.compile r index = .ok m := by
  have hall := Compiler.forall₂_of_compileAll h
  obtain ⟨i, hi, rfl⟩ := List.mem_iff_getElem.1 hm
  exact ⟨_, List.getElem_mem _, hall.get (hall.length_eq ▸ hi) hi⟩

theorem Compiler.exists_mem_of_place (h : c.compileAll r = .ok ms) {index : Option Nat}
    (hindex : index ∈ r.places) : ∃ m ∈ ms, c.compile r index = .ok m := by
  have hall := Compiler.forall₂_of_compileAll h
  obtain ⟨i, hi, rfl⟩ := List.mem_iff_getElem.1 hindex
  exact ⟨_, List.getElem_mem _, hall.get hi (hall.length_eq ▸ hi)⟩

/-- The pods of an item fetch what its fetch spec says, and see its directories. -/
theorem pods_of_item (hmultiple : r.multiple = true)
    (hkind : r.kind = .plain ∨ r.kind = .queueAdmitted) (h : c.compile r (some i) = .ok m) :
    ∃ f args, r.fetches[i]? = some f ∧ Yaml.parseList f.args = .ok args ∧ m.podSpecs ≠ [] ∧
      ∀ spec ∈ m.podSpecs, spec.FetchesWith args ∧ spec.hostPaths = r.itemPaths i f := by
  obtain ⟨p, hpod, -, hne, hspecifies⟩ := exists_pod_of_compile h hkind
  obtain ⟨f, container, hf, hcontainer, hfetcher, hvolumes⟩ :=
    Blueprint.exists_fetch_of_pod hpod hmultiple rfl
  refine ⟨f, container.args, hf, args_of_fetchContainer hcontainer, hne, fun spec hspec => ?_⟩
  have hs := hspecifies spec hspec
  refine ⟨⟨container.toJson, ?_, ?_⟩, hs.hostPaths.trans (hostPaths_of_item rfl rfl hf hvolumes)⟩
  · rw [hs "initContainers" (by simp), p.get?_initContainers, hfetcher]
    rfl
  · rw [container.get?_args, stringsUnlessEmpty]
    simp only [List.isEmpty_iff]

theorem fanOutItems_spec (hmultiple : r.multiple = true)
    (hkind : r.kind = .plain ∨ r.kind = .queueAdmitted) (h : c.compileAll r = .ok ms) :
    FanOutItemsSpec r ms := by
  obtain ⟨hlength, hcompile⟩ := compileAll_of_multiple hmultiple h
  have hplaced (i : Nat) (m : Manifest) (hm : ms[i]? = some m) : m.index = some i ∧
      m.name = derivedName r.taskName r.taskInstanceId (some i) ∧
      m.object.at? ["metadata", "name"] = some (.str m.name) := by
    obtain ⟨-, -, hname, -⟩ := exists_pod_of_compile (hcompile i m hm) hkind
    obtain ⟨-, object, -, rfl⟩ := Compiler.compile_eq_ok_iff.1 (hcompile i m hm)
    exact ⟨rfl, rfl, hname⟩
  have hpods (i : Nat) (m : Manifest) (hm : ms[i]? = some m) :=
    pods_of_item hmultiple hkind (hcompile i m hm)
  have hpaths (i : Nat) (m : Manifest) (hm : ms[i]? = some m) {path : String}
      (hpath : path ∈ m.hostPaths) : ∃ f, path ∈ r.itemPaths i f := by
    obtain ⟨f, args, -, -, -, hspecs⟩ := hpods i m hm
    obtain ⟨spec, hspec, hpath⟩ := List.mem_flatMap.1 hpath
    rw [(hspecs spec hspec).2] at hpath
    exact ⟨f, hpath⟩
  constructor
  case count => rw [hlength, Request.itemCount, if_pos hmultiple]
  case placed => exact hplaced
  case distinct =>
    refine List.pairwise_map.2 (List.pairwise_iff_getElem.2 fun i j hi hj hij hname => ?_)
    rw [(hplaced i _ (List.getElem?_eq_getElem hi)).2.1,
      (hplaced j _ (List.getElem?_eq_getElem hj)).2.1] at hname
    exact Nat.ne_of_lt hij (Option.some.inj (derivedName_inj.1 hname).2)
  case foreign =>
    intro m hm
    obtain ⟨i, hi⟩ := List.mem_iff_getElem?.1 hm
    rw [(hplaced i m hi).2.1]
    refine ⟨fun heq => ?_, fun id index hid heq => ?_⟩
    · cases (derivedName_inj.1 heq).2
    · exact hid (derivedName_inj.1 heq).1.symm
  case fetched =>
    intro i m hm
    obtain ⟨f, args, hf, hargs, hne, hspecs⟩ := hpods i m hm
    exact ⟨f, args, hf, hargs, hne, fun spec hspec => (hspecs spec hspec).1⟩
  case paths =>
    intro i m f hm hf spec hspec
    obtain ⟨f', args, hf', -, -, hspecs⟩ := hpods i m hm
    cases hf.symm.trans hf'
    exact (hspecs spec hspec).2
  case apart =>
    intro i j m m' hm hm' hij path hpath hpath'
    obtain ⟨f, hi⟩ := hpaths i m hm hpath
    obtain ⟨g, hj⟩ := hpaths j m' hm' hpath'
    exact itemPaths_disjoint hij hi hj

end FanOut

/-! ## A fan-out over two data sources -/

/-- The sources are fetched to one directory, which is written in two ways. -/
def Request.twoSources : Request :=
  { Request.etl true with
    taskInstanceId := -7
    fetches := [
      { FetchSpec.standard with fetchName := "a", hostPath := "/mnt/fetch", args := "[a]" },
      { FetchSpec.standard with fetchName := "b", hostPath := "/mnt/fetch//" }]
    workload := .queueAdmitted (some ⟨1, 2⟩) }

def Compiler.standard : Compiler :=
  .ofSettings TemplateName.builtin .standard

theorem fanOutItems_of_twoSources :
    ∃ ms, Compiler.standard.compileAll .twoSources = .ok ms ∧ FanOutItemsSpec .twoSources ms := by
  have hok : Except.isOk (Compiler.standard.compileAll .twoSources) = true := by decide +kernel
  cases h : Compiler.standard.compileAll .twoSources with
  | error e =>
    rw [h] at hok
    cases hok
  | ok ms => exact ⟨ms, rfl, fanOutItems_spec rfl (.inr rfl) h⟩

end ClusterJobs
