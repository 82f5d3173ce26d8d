import ClusterJobs.Proofs.Manifest.FanOutItems
import ClusterJobs.Proofs.Task.Executions

/-!
# Requests that stay apart

Runs and cancels touch the objects of their own requests only, so what keeps two task instances apart
is the names of their objects. Where the stem of one name ends in what the other has apart, a request
deletes the object of the other as if it were its own.
-/

namespace ClusterJobs

open Program

/-! ## Shared names -/

namespace Request

/-- What the name of an object of a request is made of. -/
def nameParts (r : Request) (index : Option Nat) : NameParts :=
  ⟨nameStem r.taskName, r.taskInstanceId, index⟩

/-- The parts of the names of some two objects mimic each other. -/
def Confusable (r r' : Request) : Prop :=
  ∃ index ∈ r.places, ∃ index' ∈ r'.places,
    (r.nameParts index).Mimics (r'.nameParts index') ∨
      (r'.nameParts index').Mimics (r.nameParts index)

instance (r r' : Request) : Decidable (r.Confusable r') :=
  inferInstanceAs (Decidable (∃ index ∈ r.places, ∃ index' ∈ r'.places, _ ∨ _))

variable {r r' : Request}

theorem not_confusable_of_stem (h : nameStem r.taskName = nameStem r'.taskName) :
    ¬ r.Confusable r' := by
  rintro ⟨index, -, index', -, hmimics | hmimics⟩
  · exact absurd (congrArg String.length h.symm) (Nat.ne_of_lt hmimics.length_lt)
  · exact absurd (congrArg String.length h) (Nat.ne_of_lt hmimics.length_lt)

theorem isSome_of_mem_places {index : Option Nat} (h : index ∈ r.places) :
    index.isSome = r.multiple := by
  unfold places at h
  cases hmultiple : r.multiple with
  | true =>
    rw [hmultiple, if_pos rfl] at h
    obtain ⟨i, -, rfl⟩ := List.mem_map.1 h
    rfl
  | false =>
    rw [hmultiple, if_neg Bool.false_ne_true] at h
    obtain rfl := List.mem_singleton.1 h
    rfl

theorem not_mimics_of_multiple {index index' : Option Nat} (h : index.isSome = index'.isSome)
    (hid : 0 ≤ r'.taskInstanceId) : ¬ (r.nameParts index).Mimics (r'.nameParts index') := by
  rintro (⟨-, hneg, -⟩ | ⟨-, hnone, -, hsome⟩)
  · exact Int.not_lt.2 hid hneg
  · change index = none at hnone
    change index' = some _ at hsome
    rw [hnone, hsome] at h
    cases h

theorem not_confusable_of_multiple (h : r.multiple = r'.multiple) (hid : 0 ≤ r.taskInstanceId)
    (hid' : 0 ≤ r'.taskInstanceId) : ¬ r.Confusable r' := by
  rintro ⟨index, hindex, index', hindex', hmimics⟩
  have hplaces : index.isSome = index'.isSome := by
    rw [isSome_of_mem_places hindex, isSome_of_mem_places hindex', h]
  rcases hmimics with hmimics | hmimics
  · exact not_mimics_of_multiple hplaces hid' hmimics
  · exact not_mimics_of_multiple hplaces.symm hid hmimics

end Request

section Names

variable {c c' : Compiler} {r r' : Request} {index index' : Option Nat} {m m' : Manifest}
  {ms ms' : List Manifest}

theorem Compiler.name_of_compile (h : c.compile r index = .ok m) :
    m.name = derivedName r.taskName r.taskInstanceId index := by
  obtain ⟨-, object, -, rfl⟩ := Compiler.compile_eq_ok_iff.1 h
  rfl

theorem Compiler.ref_of_compile (h : c.compile r index = .ok m) :
    m.ref = ⟨r.target, r.kind.objectKind, r.nameSpace, m.name⟩ := by
  obtain ⟨-, object, -, rfl⟩ := Compiler.compile_eq_ok_iff.1 h
  rfl

theorem name_eq_iff (hid : r.taskInstanceId ≠ r'.taskInstanceId) (h : c.compile r index = .ok m)
    (h' : c'.compile r' index' = .ok m') :
    m.name = m'.name ↔ (r.nameParts index).Mimics (r'.nameParts index') ∨
      (r'.nameParts index').Mimics (r.nameParts index) := by
  rw [Compiler.name_of_compile h, Compiler.name_of_compile h', derivedName_eq_iff]
  exact or_iff_right fun heq => hid (congrArg NameParts.id heq)

theorem exists_name_eq_iff (hid : r.taskInstanceId ≠ r'.taskInstanceId)
    (h : c.compileAll r = .ok ms) (h' : c'.compileAll r' = .ok ms') :
    (∃ m ∈ ms, ∃ m' ∈ ms', m.name = m'.name) ↔ r.Confusable r' := by
  constructor
  · rintro ⟨m, hm, m', hm', hname⟩
    obtain ⟨index, hindex, hcompile⟩ := Compiler.exists_place_of_mem h hm
    obtain ⟨index', hindex', hcompile'⟩ := Compiler.exists_place_of_mem h' hm'
    exact ⟨index, hindex, index', hindex', (name_eq_iff hid hcompile hcompile').1 hname⟩
  · rintro ⟨index, hindex, index', hindex', hmimics⟩
    obtain ⟨m, hm, hcompile⟩ := Compiler.exists_mem_of_place h hindex
    obtain ⟨m', hm', hcompile'⟩ := Compiler.exists_mem_of_place h' hindex'
    exact ⟨m, hm, m', hm', (name_eq_iff hid hcompile hcompile').2 hmimics⟩

end Names

/-! ## Objects that are taken -/

section Taken

variable {σ : Type} {h : Handler Call Answer σ} {o : ObjectRef} {live : σ → Prop} {s : σ}
  {m : Manifest}

/-- The cluster of an object can be reached and holds it until an object of its name is deleted. -/
structure Holding (h : Handler Call Answer σ) (o : ObjectRef) (live : σ → Prop) : Prop where
  connects : ∀ target kind s, live s → (h (.connect target kind) s).1 = .ok ()
  finds : ∀ s, live s → (h (.exists o) s).1 = .ok true
  keeps : ∀ c s, (∀ x, c = .delete x → x.name ≠ o.name) → live s → live (h c s).2

/-- The program deletes the object. -/
def Deletes {α : Type} (h : Handler Call Answer σ) (p : TaskProgram α) (s : σ) (o : ObjectRef) :
    Prop :=
  ∃ e ∈ p.events h s, e.call = .delete o

theorem deletes_delete {α : Type} (next : Answer (.delete o) → TaskProgram α) :
    Deletes h (.ask (.delete o) next) s o :=
  ⟨_, .head _, rfl⟩

theorem Deletes.ask {α : Type} {c : Call} {next : Answer c → TaskProgram α}
    (hnext : Deletes h (next (h c s).1) (h c s).2 o) : Deletes h (.ask c next) s o := by
  obtain ⟨e, he, hcall⟩ := hnext
  exact ⟨e, .tail _ he, hcall⟩

theorem Deletes.bind {α β : Type} {p : TaskProgram α} {f : α → TaskProgram β}
    (hp : Deletes h p s o) : Deletes h (p.bind f) s o := by
  obtain ⟨e, he, hcall⟩ := hp
  refine ⟨e, ?_, hcall⟩
  rcases hrun : p.run h s with ⟨_ | a, t⟩
  · rwa [events_bind_of_none hrun]
  · rw [events_bind_of_some hrun]
    exact List.mem_append_left _ he

theorem Deletes.after {α β : Type} {p : TaskProgram α} {f : α → TaskProgram β} {a : α} {t : σ}
    (hrun : p.run h s = (some a, t)) (hf : Deletes h (f a) t o) : Deletes h (p.bind f) s o := by
  obtain ⟨e, he, hcall⟩ := hf
  refine ⟨e, ?_, hcall⟩
  rw [events_bind_of_some hrun]
  exact List.mem_append_right _ he

namespace Manifest

theorem deletes_stop (hfinds : (h (.exists m.ref) s).1 = .ok true) :
    Deletes h m.stop s m.ref := by
  refine Deletes.ask ?_
  rw [hfinds]
  exact deletes_delete _

theorem deletes_submit (hfinds : (h (.exists m.ref) s).1 = .ok true) :
    Deletes h m.submit s m.ref :=
  (deletes_stop hfinds).bind

theorem deletes_cancel (hholding : Holding h m.ref live) (hs : live s) :
    Deletes h m.cancel s m.ref := by
  change Deletes h (m.connect.bind _) s m.ref
  rw [connect_steps]
  refine Deletes.ask ?_
  dsimp only
  rw [hholding.connects _ _ s hs]
  exact deletes_stop (hholding.finds _ (hholding.keeps _ s nofun hs))

end Manifest

/-- Whatever else is cancelled before it, the object is still there when its turn comes. -/
theorem deletes_cancelAll {l : List Manifest} (hholding : Holding h o live) (hs : live s)
    (hname : ∀ m ∈ l, m.name = o.name → m.ref = o) (hmem : ∃ m ∈ l, m.name = o.name) :
    Deletes h (Engine.cancelAll l) s o := by
  induction l generalizing s with
  | nil =>
    obtain ⟨m, hm, -⟩ := hmem
    cases hm
  | cons m l ih =>
    obtain ⟨hfirst, hname⟩ := List.forall_mem_cons.1 hname
    by_cases hm : m.name = o.name
    · obtain rfl := hfirst hm
      exact (Manifest.deletes_cancel hholding hs).bind
    · obtain ⟨first, t, hrun⟩ := m.cancel_confined.exists_run h s
      have ht : live t := by
        have hkeep (c : Call) (s : σ) (hc : m.Makes c) (hs : live s) : live (h c s).2 := by
          refine hholding.keeps c s (fun x hx => ?_) hs
          subst hx
          cases hc with
          | attends hattends => cases hattends
          | delete => exact hm
        have hlast : live (m.cancel.run h s).2 := m.cancel_confined.run hkeep hs
        rwa [hrun] at hlast
      obtain ⟨m', hm', hname'⟩ := hmem
      have hm' : m' ∈ l := by
        rcases List.mem_cons.1 hm' with rfl | hm'
        · exact absurd hname' hm
        · exact hm'
      exact .after hrun (ih ht hname ⟨m', hm', hname'⟩).bind

theorem Engine.deletes_cancel {e : Engine} {r : Request} {ms : List Manifest}
    (hcompile : e.compiler.compileAll r = .ok ms) (hm : m ∈ ms)
    (hholding : Holding h m.ref live) (hs : live s) : Deletes h (e.cancel r) s m.ref := by
  rw [Engine.cancel, hcompile]
  refine deletes_cancelAll hholding hs (fun m' hm' hname => ?_) ⟨m, hm, rfl⟩
  obtain ⟨index, -, hindex⟩ := Compiler.exists_place_of_mem hcompile hm
  obtain ⟨index', -, hindex'⟩ := Compiler.exists_place_of_mem hcompile hm'
  have hname : m'.name = m.name := hname
  rw [Compiler.ref_of_compile hindex, Compiler.ref_of_compile hindex', hname]

end Taken

/-! ## Main result -/

/-- How two requests get in the way of each other. -/
structure SeparationSpec (e : Engine) (r r' : Request) (ms ms' : List Manifest) : Prop where
  /-- Which names are the same, whatever the objects are compiled with. -/
  names : ∀ (c c' : Compiler) (index index' : Option Nat) (m m' : Manifest),
    c.compile r index = .ok m → c'.compile r' index' = .ok m' →
    (m.name = m'.name ↔ (r.nameParts index).Mimics (r'.nameParts index') ∨
      (r'.nameParts index').Mimics (r.nameParts index))
  shared_iff : (∃ m ∈ ms, ∃ m' ∈ ms', m.name = m'.name) ↔ r.Confusable r'
  /-- Instances of one task share no name. -/
  same_task : nameStem r.taskName = nameStem r'.taskName → ¬ r.Confusable r'
  /-- Neither do two single jobs or two fan-outs, but for signs. -/
  same_mode : r.multiple = r'.multiple → 0 ≤ r.taskInstanceId → 0 ≤ r'.taskInstanceId →
    ¬ r.Confusable r'
  /-- Unless they share a name, no run of one makes a call about an object of the other. -/
  run_apart : ¬ r.Confusable r' → ∀ (σ : Type) (h : Handler Call Answer (Timed σ)) (ctx : Context)
    (s : Timed σ), ∀ c ∈ e.calls h r ctx s, ∀ m' ∈ ms', c.object? ≠ some m'.ref
  /-- Nor does a cancel. -/
  cancel_apart : ¬ r.Confusable r' → ∀ (σ : Type) (h : Handler Call Answer σ) (s : σ),
    ∀ event ∈ (e.cancel r).events h s, ∀ m' ∈ ms', event.call.object? ≠ some m'.ref
  /-- If they share a name in one place, one deletes a live object of the other. -/
  taken : r.Confusable r' → r.target = r'.target → r.kind.objectKind = r'.kind.objectKind →
    r.nameSpace = r'.nameSpace → ∃ m ∈ ms, ∃ m' ∈ ms', m.ref = m'.ref ∧
      ∀ (σ : Type) (h : Handler Call Answer σ) (live : σ → Prop) (s : σ),
        Holding h m'.ref live → live s →
        Deletes h m.submit s m'.ref ∧ Deletes h (e.cancel r) s m'.ref

section Spec

variable {e : Engine} {r r' : Request} {ms ms' : List Manifest}

/-- A call about an object that a request does not name is none of its calls. -/
theorem Call.Among.ne_ref {c : Call} {m' : Manifest} (hc : c.Among ms) (hm' : m' ∈ ms')
    (h : ¬ ∃ m ∈ ms, ∃ m' ∈ ms', m.name = m'.name) : c.object? ≠ some m'.ref := by
  intro hobject
  obtain ⟨m, hm, href, -⟩ := hc m'.ref hobject
  exact h ⟨m, hm, m', hm', congrArg ObjectRef.name href.symm⟩

theorem separation_spec (hid : r.taskInstanceId ≠ r'.taskInstanceId)
    (hcompile : e.compiler.compileAll r = .ok ms) (hcompile' : e.compiler.compileAll r' = .ok ms') :
    SeparationSpec e r r' ms ms' := by
  have hshared := exists_name_eq_iff hid hcompile hcompile'
  constructor
  case names => exact fun c c' index index' m m' h h' => name_eq_iff hid h h'
  case shared_iff => exact hshared
  case same_task => exact Request.not_confusable_of_stem
  case same_mode => exact Request.not_confusable_of_multiple
  case run_apart =>
    intro hapart σ h ctx s c hc m' hm'
    obtain ⟨ms₁, hms₁, hamong⟩ := Engine.calls_among hc
    cases hms₁.symm.trans hcompile
    exact hamong.ne_ref hm' (mt hshared.1 hapart)
  case cancel_apart =>
    intro hapart σ h s event hevent m' hm'
    exact ((Engine.cancel_among hcompile).events event hevent).ne_ref hm' (mt hshared.1 hapart)
  case taken =>
    intro hconfusable htarget hkind hspace
    obtain ⟨m, hm, m', hm', hname⟩ := hshared.2 hconfusable
    obtain ⟨index, -, hindex⟩ := Compiler.exists_place_of_mem hcompile hm
    obtain ⟨index', -, hindex'⟩ := Compiler.exists_place_of_mem hcompile' hm'
    have href : m.ref = m'.ref := by
      rw [Compiler.ref_of_compile hindex, Compiler.ref_of_compile hindex', htarget, hkind, hspace,
        hname]
    refine ⟨m, hm, m', hm', href, fun σ h live s hholding hs => ?_⟩
    rw [← href] at hholding ⊢
    exact ⟨Manifest.deletes_submit (hholding.finds s hs),
      Engine.deletes_cancel hcompile hm hholding hs⟩

end Spec

/-! ## A job that has the name of an item -/

namespace Simulation.World

/-- A rehearsed object that stands on a cluster which can be reached. -/
structure Stands (name : String) (w : World) : Prop where
  reachable : w.script.unreachable = []
  live : (w.job name).live = true
  unscripted : (w.job name).script.looks = []

section Stands

variable {w : World} {name other : String} {j : Job}

theorem job_withJob (w : World) (name other : String) (j : Job) :
    (w.withJob name j).job other = if name = other then j else w.job other := by
  simp only [job, withJob, Fields.get?_put]
  split <;> rfl

theorem Stands.withJob (hw : w.Stands name)
    (hj : other = name → j.live = true ∧ j.script.looks = []) : (w.withJob other j).Stands name := by
  refine ⟨hw.reachable, ?_, ?_⟩ <;> rw [job_withJob] <;> split
  · exact (hj ‹_›).1
  · exact hw.live
  · exact (hj ‹_›).2
  · exact hw.unscripted

theorem Stands.onJob {α : Type} (hw : w.Stands name) (now : Nat) (object : ObjectRef)
    (call : String) (act : Job → Target → α × Job)
    (hact : object.name = name → ∀ j : Job, j.live = true → j.script.looks = [] →
      (act j object.target).2.live = true ∧ (act j object.target).2.script.looks = []) :
    (w.onJob now object call act).2.Stands name := by
  refine hw.withJob fun heq => ?_
  rw [heq]
  exact hact heq _ hw.live hw.unscripted

theorem look_of_unscripted {target : Target} (h : j.script.looks = []) :
    j.look target = (.ok j.live, j) := by
  rw [Job.look, h]
  rfl

end Stands

/-- In a rehearsal an object stands until an object of its name is deleted. -/
theorem holding_handler (o : ObjectRef) :
    Holding handler o fun s => s.state.Stands o.name where
  connects target kind s hs := by
    simp only [handler, answer, hs.reachable]
    rfl
  finds s hs := by
    change (Job.look _ _).1 = _
    rw [look_of_unscripted hs.unscripted, hs.live]
  keeps c s hc hs := by
    cases c with
    | now | pause _ | invalidate _ | watch _ | follow _ _ => exact ⟨hs.1, hs.2, hs.3⟩
    | connect target kind =>
      simp only [handler, answer]
      split <;> exact ⟨hs.1, hs.2, hs.3⟩
    | publish results =>
      simp only [handler, answer]
      split <;> exact ⟨hs.1, hs.2, hs.3⟩
    | «exists» object =>
      refine Stands.onJob hs s.now object "exists" Job.look fun _ j hlive hlooks => ?_
      rw [look_of_unscripted hlooks]
      exact ⟨hlive, hlooks⟩
    | create object body =>
      refine Stands.onJob hs s.now object "create" Job.create fun _ j hlive hlooks => ?_
      simp only [Job.create]
      split
      · exact ⟨hlive, hlooks⟩
      · exact ⟨rfl, hlooks⟩
    | delete object =>
      refine Stands.onJob hs s.now object "delete" Job.delete fun hname => ?_
      exact absurd hname (hc object rfl)
    | tail object container lines =>
      exact Stands.onJob hs s.now object _ (fun j target =>
        (j.script.tail.mapError (ScriptFault.toFault · target), j)) fun _ j hlive hlooks =>
          ⟨hlive, hlooks⟩
    | deliver job line =>
      exact hs.withJob fun heq => heq ▸ ⟨hs.live, hs.unscripted⟩

end Simulation.World

/-- A fan-out over two data sources. -/
def Request.fanned : Request :=
  { Request.etl true with
    fetches := [{ FetchSpec.standard with fetchName := "a" },
      { FetchSpec.standard with fetchName := "b" }] }

/-- A job on its own, of a task that is named like the instance of a fan-out. -/
def Request.lone : Request :=
  { Request.etl false with taskName := "etl-7", taskInstanceId := 1 }

theorem separation_of_fanned :
    ∃ ms ms', Engine.etl.compiler.compileAll .lone = .ok ms ∧
      Engine.etl.compiler.compileAll .fanned = .ok ms' ∧
      SeparationSpec .etl .lone .fanned ms ms' ∧ Request.lone.Confusable .fanned ∧
      ∃ m' ∈ ms', ∀ s : Timed Simulation.World, s.state.Stands m'.name →
        Deletes Simulation.World.handler (Engine.etl.cancel .lone) s m'.ref := by
  have hconfusable : Request.lone.Confusable .fanned := by decide +kernel
  have hid : Request.lone.taskInstanceId ≠ Request.fanned.taskInstanceId := by decide
  refine ⟨_, _, rfl, rfl, separation_spec hid rfl rfl, hconfusable, ?_⟩
  obtain ⟨m, -, m', hm', -, htaken⟩ :=
    (separation_spec (e := .etl) hid rfl rfl).taken hconfusable rfl rfl rfl
  exact ⟨m', hm', fun s hs => (htaken _ _ _ s (Simulation.World.holding_handler m'.ref) hs).2⟩

/-- The cancel of the job deletes the item, which is live. -/
theorem cancel_lone_takes_item :
    Request.fanned.check = .ok () ∧ Request.lone.check = .ok () ∧
      Request.lone.taskInstanceId ≠ Request.fanned.taskInstanceId ∧
      (∃ ms ms', Engine.etl.compiler.compileAll .lone = .ok ms ∧
        Engine.etl.compiler.compileAll .fanned = .ok ms' ∧ ∃ m ∈ ms, ∃ m' ∈ ms', m.ref = m'.ref) ∧
      let s := (Engine.etl.run Simulation.World.handler .fanned ⟨none, fun _ => true⟩
        ⟨0, .ofScript .quiet⟩).2
      (s.state.job "etl-7-1").live = true ∧
        (((Engine.etl.cancel .lone).run Simulation.World.handler s).2.state.job "etl-7-1").live =
          false := by
  refine ⟨rfl, rfl, by decide, ⟨_, _, rfl, rfl, _, .head _, _, .tail _ (.head _), by decide +kernel⟩, ?_⟩
  obtain ⟨ms, ended, t, hcompile, hpool, hlive⟩ : ∃ ms ended t,
      Engine.etl.compiler.compileAll .fanned = .ok ms ∧
      Pool.runWithin Simulation.World.handler 4 (Engine.etl.pool (Request.fanned.fanOut ms)
        ⟨none, fun _ => true⟩ 0) ⟨0, .ofScript .quiet⟩ = some (ended, t) ∧
      let s := (Engine.etl.concluded Simulation.World.handler (Request.fanned.fanOut ms)
        ⟨none, fun _ => true⟩ ended t).2
      (s.state.job "etl-7-1").live = true ∧
        (((Engine.etl.cancel .lone).run Simulation.World.handler s).2.state.job "etl-7-1").live =
          false := ⟨_, _, _, rfl, rfl, by decide +kernel⟩
  have hended := Pool.run_of_runWithin hpool
  rwa [Engine.run_of_fanned hcompile rfl, Engine.runFanOut_of_run hended]

end ClusterJobs
