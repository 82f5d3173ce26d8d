import ClusterJobs.Proofs.Faults
import ClusterJobs.Proofs.Manifest.Operators
import ClusterJobs.Proofs.Task.Executions
import ClusterJobs.Proofs.Task.Separation

/-!
# Cancels

A cancel attempts to remove one object after another, whatever comes of the others, and reports the
first fault. The objects that an execution of a request creates are those that its cancel removes, in
whatever order the items take turns and however far they get. So nothing of a request is left after a
cancel that succeeds.
-/

namespace ClusterJobs

open Program

variable {σ : Type} {serves : Service Call Answer σ} {s t u : σ} {calls : List TaskEvent}
  {ms : List Manifest} {m : Manifest}

/-! ## Clusters that obey -/

/-- Looks that succeed are truthful, a deletion that succeeds removes its object at once, and no object
appears without a creation. -/
structure Obedient (serves : Service Call Answer σ) (live : ObjectRef → σ → Prop) : Prop where
  look : ∀ o s b t, serves (.exists o) s (.ok b) t → (b = true ↔ live o t)
  delete : ∀ o s t, serves (.delete o) s (.ok ()) t → ¬ live o t
  appears : ∀ o c s x t, serves c s x t → (∀ o' body, c ≠ .create o' body) → live o t → live o s

/-! ## Attempts -/

/-- An attempt to remove an object: its calls and its result. -/
structure CancelAttempt where
  calls : List TaskEvent
  result : Except JobFault Unit

namespace Manifest

/-- Access to the cluster is asked for once. If it is given, the object is removed. -/
inductive Attempts (m : Manifest) : CancelAttempt → Prop where
  | refused (cause : Fault) :
      Attempts m ⟨⟨.connect m.target m.kind.objectKind, .error cause⟩ ::
        m.dropped cause.isClusterFailure, .error (m.clusterFault cause)⟩
  | admitted {calls : List TaskEvent} {result : Except JobFault Unit} : m.Removal calls result →
      Attempts m ⟨⟨.connect m.target m.kind.objectKind, .ok ()⟩ :: calls, result⟩

theorem Attempts.not_create {a : CancelAttempt} (ha : m.Attempts a) :
    ∀ event ∈ a.calls, ∀ o body, event.call ≠ .create o body := by
  cases ha with
  | refused cause =>
    exact List.forall_mem_cons.2 ⟨nofun, fun event he => (m.dropped_quiet _ event he).creates⟩
  | admitted hr => exact List.forall_mem_cons.2 ⟨nofun, fun event he => (hr.quiet event he).creates⟩

section Runs

variable {result : Except JobFault Unit} {live : ObjectRef → σ → Prop}

theorem runs_dropIf {useless : Bool} (hr : Runs serves (m.dropIf useless) s calls () t) :
    calls = m.dropped useless := by
  cases useless with
  | false => exact (runs_done_iff.1 hr).1
  | true =>
    obtain ⟨x, u, later, -, hlast, rfl⟩ := runs_ask_iff.1 hr
    obtain ⟨rfl, -, -⟩ := runs_done_iff.1 hlast
    rfl

/-- What is refused access ends there, and what is given it is a removal. -/
theorem runs_cancel (hr : Runs serves m.cancel s calls result t) :
    (∃ cause, calls = ⟨.connect m.target m.kind.objectKind, .error cause⟩ ::
        m.dropped cause.isClusterFailure ∧ result = .error (m.clusterFault cause)) ∨
      ∃ u later, calls = ⟨.connect m.target m.kind.objectKind, .ok ()⟩ :: later ∧
        Runs serves m.stop u later result t := by
  change Runs serves (m.connect.bind _) s calls result t at hr
  rw [connect_steps] at hr
  obtain ⟨x, u, later, -, hrest, rfl⟩ := runs_ask_iff.1 hr
  match x with
  | .ok () => exact .inr ⟨u, later, rfl, hrest⟩
  | .error cause =>
    change Runs serves (((m.dropIf cause.isClusterFailure).bind fun _ => .done _).bind _) u later
      result t at hrest
    rw [bind_assoc] at hrest
    obtain ⟨drop, _, v, last, hdrop, hlast, rfl⟩ := runs_bind_iff.1 hrest
    obtain ⟨rfl, rfl, -⟩ := runs_done_iff.1 hlast
    rw [List.append_nil, runs_dropIf hdrop]
    exact .inl ⟨cause, rfl, rfl⟩

theorem attempts_of_runs (hr : Runs serves m.cancel s calls result t) :
    m.Attempts ⟨calls, result⟩ := by
  rcases runs_cancel hr with ⟨cause, rfl, rfl⟩ | ⟨u, later, rfl, hstop⟩
  · exact .refused cause
  · exact .admitted (Removal.of_runs hstop)

theorem not_live_of_cancel (hl : Obedient serves live)
    (hr : Runs serves m.cancel s calls (.ok ()) t) : ¬ live m.ref t := by
  rcases runs_cancel hr with ⟨cause, -, hfault⟩ | ⟨u, later, -, hstop⟩
  · cases hfault
  · exact not_stands_of_runs (hl.look m.ref) (hl.delete m.ref) hstop

end Runs

end Manifest

/-- Objects are attempted to be removed one after another, each once. -/
inductive CancelAttempts (serves : Service Call Answer σ) :
    List Manifest → σ → List CancelAttempt → σ → Prop where
  | nil (s : σ) : CancelAttempts serves [] s [] s
  | cons {m : Manifest} {ms : List Manifest} {a : CancelAttempt} {as : List CancelAttempt}
      {s u t : σ} : Runs serves m.cancel s a.calls a.result u → CancelAttempts serves ms u as t →
      CancelAttempts serves (m :: ms) s (a :: as) t

section Attempts

variable {as : List CancelAttempt} {result : Except JobFault Unit} {live : ObjectRef → σ → Prop}
  {o : ObjectRef}

/-- The first fault of the attempts is that of the cancel. -/
theorem Engine.attempts_of_cancelAll (hr : Runs serves (Engine.cancelAll ms) s calls result t) :
    ∃ as, CancelAttempts serves ms s as t ∧ calls = as.flatMap CancelAttempt.calls ∧
      faultOf result = as.findSome? fun a => faultOf a.result := by
  induction ms generalizing s calls result with
  | nil =>
    obtain ⟨rfl, rfl, rfl⟩ := runs_done_iff.1 hr
    exact ⟨[], .nil _, rfl, rfl⟩
  | cons m ms ih =>
    obtain ⟨calls₁, first, u, calls₂, hfirst, hrest, rfl⟩ := runs_bind_iff.1 hr
    obtain ⟨calls₃, others, v, calls₄, hothers, hlast, rfl⟩ := runs_bind_iff.1 hrest
    obtain ⟨rfl, rfl, rfl⟩ := runs_done_iff.1 hlast
    obtain ⟨as, has, rfl, hfault⟩ := ih hothers
    refine ⟨⟨calls₁, first⟩ :: as, .cons hfirst has, by simp, ?_⟩
    rw [findSome?_cons_or, ← hfault]
    cases first <;> rfl

theorem CancelAttempts.forall₂ (has : CancelAttempts serves ms s as t) :
    List.Forall₂ Manifest.Attempts ms as := by
  induction has with
  | nil s => exact .nil
  | cons hr _ ih => exact .cons (Manifest.attempts_of_runs hr) ih

theorem CancelAttempts.not_live (hl : Obedient serves live) (has : CancelAttempts serves ms s as t)
    (hs : ¬ live o s) : ¬ live o t := by
  have hkeep : Keeps serves (fun c => ∀ o' body, c ≠ .create o' body) fun s => ¬ live o s :=
    fun c s x t hserves hc hs hlive => hs (hl.appears o c s x t hserves hc hlive)
  induction has with
  | nil s => exact hs
  | cons hr _ ih =>
    have hlast := Reaches.keeps hkeep (reaches_done_iff.2 hr)
    exact ih (hlast (Manifest.attempts_of_runs hr).not_create hs)

/-- What an attempt has removed does not come back with a later one. -/
theorem CancelAttempts.removes (hl : Obedient serves live) (has : CancelAttempts serves ms s as t) :
    List.Forall₂ (fun m a => a.result = .ok () → ¬ live m.ref t) ms as := by
  induction has with
  | nil s => exact .nil
  | cons hr hrest ih =>
    refine .cons (fun hok => hrest.not_live hl ?_) ih
    rw [hok] at hr
    exact Manifest.not_live_of_cancel hl hr

end Attempts

/-! ## Objects and their names -/

/-- The call is about no object of this name. -/
def Call.Avoids (name : String) (c : Call) : Prop :=
  ∀ o, c.object? = some o → o.name ≠ name

theorem Call.Among.avoids {c : Call} {name : String} (hc : c.Among ms)
    (hname : name ∉ ms.map Manifest.name) : c.Avoids name := by
  rintro o ho rfl
  obtain ⟨m, hm, rfl, -⟩ := hc o ho
  exact hname (List.mem_map_of_mem hm)

section Names

variable {c : Compiler} {r : Request} {index : Option Nat}

theorem Compiler.placed_of_compile (h : c.compile r index = .ok m) :
    m.index = index ∧ m.name = derivedName r.taskName r.taskInstanceId index ∧
      m.object.at? ["metadata", "name"] = some (.str m.name) := by
  obtain ⟨-, object, hrender, rfl⟩ := Compiler.compile_eq_ok_iff.1 h
  refine ⟨rfl, rfl, ?_⟩
  rw [Compiler.at?_stamp _ _ _ (by simp) (by simp)]
  exact Compiler.at?_name_render hrender

theorem Request.places_nodup (r : Request) : r.places.Nodup := by
  unfold places
  split
  · exact List.nodup_range.map (Option.some_injective Nat)
  · exact List.nodup_singleton none

/-- No two objects of a request have the same name. -/
theorem Compiler.names_nodup (h : c.compileAll r = .ok ms) : (ms.map Manifest.name).Nodup := by
  have hnames : ms.map Manifest.name = r.places.map (derivedName r.taskName r.taskInstanceId) := by
    have hall := (Compiler.forall₂_of_compileAll h).imp fun _ _ hm => (placed_of_compile hm).2.1
    rw [← List.forall₂_eq_eq_eq, List.forall₂_map_left_iff, List.forall₂_map_right_iff]
    exact hall.flip
  rw [hnames]
  exact r.places_nodup.map fun _ _ heq => (derivedName_inj.1 heq).2

end Names

/-! ## Main result -/

/-- What comes of a cancel with these attempts. -/
structure CancelSpec (serves : Service Call Answer σ) (ms : List Manifest) (calls : List TaskEvent)
    (result : Except JobFault Unit) (t : σ) (attempts : List CancelAttempt) : Prop where
  /-- Each object is attempted to be removed once, in order, whatever came of the others. -/
  inOrder : List.Forall₂ Manifest.Attempts ms attempts
  calls_eq : calls = attempts.flatMap CancelAttempt.calls
  succeeds_iff : result = .ok () ↔ ∀ a ∈ attempts, a.result = .ok ()
  /-- The fault is that of the first attempt that failed. -/
  fails_iff : ∀ fault, result = .error fault ↔ ∃ before a after,
    attempts = before ++ a :: after ∧ (∀ b ∈ before, b.result = .ok ()) ∧ a.result = .error fault
  /-- An object whose attempt succeeded is not there in the end. -/
  removes : ∀ live, Obedient serves live →
    List.Forall₂ (fun m a => a.result = .ok () → ¬ live m.ref t) ms attempts

/-- What comes of executing a request and then cancelling it. -/
structure CancellationSpec (e : Engine) (r : Request) (ms : List Manifest) : Prop where
  /-- There is one object for each item, and it is named for its place. -/
  placed : List.Forall₂ (fun index m => m.index = index ∧
    m.name = derivedName r.taskName r.taskInstanceId index ∧
    m.object.at? ["metadata", "name"] = some (.str m.name)) r.places ms
  distinct : (ms.map Manifest.name).Nodup
  /-- A cancel returns, whatever it is answered. -/
  returns : ∀ {σ : Type} (h : Handler Call Answer σ) (s : σ),
    ∃ result t, (e.cancel r).run h s = (some result, t)
  attempts : ∀ {σ : Type} (serves : Service Call Answer σ) s calls result t,
    Runs serves (e.cancel r) s calls result t → ∃ attempts,
      CancelSpec serves ms calls result t attempts
  /-- After a cancel that succeeds, nothing is there that an execution before it may have created,
  in whatever order it did and however it ended. -/
  cleared : ∀ {σ : Type} (serves : Service Call Answer σ) idles live ctx s calls u later t,
    Obedient serves live → e.Executes r ms ctx serves idles s calls u →
    Runs serves (e.cancel r) u later (.ok ()) t →
    ∀ event ∈ calls, ∀ o body, event.call = .create o body → ¬ live o t
  /-- Objects of other names are untouched by both: no call is about them, and whatever calls about
  other objects keep stays as it was. -/
  untouched : ∀ {σ : Type} (serves : Service Call Answer σ) idles ctx s calls u later result t,
    e.Executes r ms ctx serves idles s calls u → Runs serves (e.cancel r) u later result t →
    ∀ name ∉ ms.map Manifest.name, (∀ event ∈ calls ++ later, event.call.Avoids name) ∧
      ∀ holds, Keeps serves (Call.Avoids name) holds → (∀ s t, idles s t → holds s → holds t) →
        (holds s → holds u) ∧ (holds u → holds t)
  /-- The engine's own run is such an execution. -/
  runs : ∀ {σ : Type} (h : Handler Call Answer (Timed σ)) ctx s,
    ∃ calls, e.Executes r ms ctx (slotted h) Later s calls (e.run h r ctx s).2
  /-- So nothing is left that it has called for. -/
  run_cleared : ∀ {σ : Type} (h : Handler Call Answer (Timed σ)) live ctx s t,
    Obedient (servedBy h) live →
    (e.cancel r).run h (e.run h r ctx s).2 = (some (.ok ()), t) →
    ∀ o body, .create o body ∈ e.calls h r ctx s → ¬ live o t
  run_untouched : ∀ {σ : Type} (h : Handler Call Answer (Timed σ)) ctx s,
    ∀ name ∉ ms.map Manifest.name, (∀ c ∈ e.calls h r ctx s, c.Avoids name) ∧
      ∀ holds, Lasting holds → (∀ c s, c.Avoids name → holds s → holds (h c s).2) → holds s →
        holds (e.run h r ctx s).2 ∧ holds ((e.cancel r).run h (e.run h r ctx s).2).2

section Spec

variable {e : Engine} {r : Request} {result : Except JobFault Unit}

theorem Engine.cancel_eq (hcompile : e.compiler.compileAll r = .ok ms) :
    e.cancel r = Engine.cancelAll ms := by
  rw [Engine.cancel, hcompile]

theorem Engine.exists_cancelSpec (hr : Runs serves (Engine.cancelAll ms) s calls result t) :
    ∃ attempts, CancelSpec serves ms calls result t attempts := by
  obtain ⟨attempts, hattempts, hcalls, hfault⟩ := Engine.attempts_of_cancelAll hr
  have hok (x : Except JobFault Unit) : faultOf x = none ↔ x = .ok () := by
    rw [faultOf_eq_none_iff]
    exact ⟨fun ⟨(), hx⟩ => hx, fun hx => ⟨(), hx⟩⟩
  refine ⟨attempts, hattempts.forall₂, hcalls, ?_, fun fault => ?_,
    fun live hl => hattempts.removes hl⟩
  · rw [← hok, hfault, List.findSome?_eq_none_iff]
    simp only [hok]
  · rw [← faultOf_eq_some_iff, hfault, List.findSome?_eq_some_iff]
    simp only [hok, faultOf_eq_some_iff, and_comm]

/-- After a cancel that succeeds no object of the request is there. -/
theorem Engine.not_live_of_cancelAll {live : ObjectRef → σ → Prop} (hl : Obedient serves live)
    (hr : Runs serves (Engine.cancelAll ms) s calls (.ok ()) t) (hm : m ∈ ms) :
    ¬ live m.ref t := by
  obtain ⟨attempts, hspec⟩ := Engine.exists_cancelSpec hr
  have hremoved := hspec.removes live hl
  obtain ⟨i, hi, rfl⟩ := List.mem_iff_getElem.1 hm
  have hattempt : i < attempts.length := hremoved.length_eq ▸ hi
  exact hremoved.get hi hattempt (hspec.succeeds_iff.1 rfl _ (List.getElem_mem hattempt))

theorem cancellation_spec (hcompile : e.compiler.compileAll r = .ok ms) :
    CancellationSpec e r ms := by
  have hcancel := Engine.cancel_eq hcompile
  have hconfined := Engine.cancel_among hcompile
  constructor
  case placed =>
    exact (Compiler.forall₂_of_compileAll hcompile).imp fun _ _ => Compiler.placed_of_compile
  case distinct => exact Compiler.names_nodup hcompile
  case returns =>
    intro σ h s
    rw [hcancel]
    exact (cancelAll_among fun _ hm => hm).exists_run h s
  case attempts =>
    intro σ serves s calls result t hr
    rw [hcancel] at hr
    exact Engine.exists_cancelSpec hr
  case cleared =>
    intro σ serves idles live ctx s calls u later t hl hx hr event hevent o body hcreate
    obtain ⟨m, hm, rfl, -⟩ := hx.among event hevent o (by rw [hcreate]; rfl)
    rw [hcancel] at hr
    exact Engine.not_live_of_cancelAll hl hr hm
  case untouched =>
    intro σ serves idles ctx s calls u later result t hx hr name hname
    have hr := reaches_done_iff.2 hr
    have hlater := (hconfined.reaches hr).1
    refine ⟨List.forall_mem_append.2 ⟨fun event he => (hx.among event he).avoids hname,
      fun event he => (hlater event he).avoids hname⟩, fun holds hkeep hidle => ?_⟩
    have hkeep : Keeps serves (Call.Among ms) holds :=
      fun c s x t hserves hc => hkeep c s x t hserves (hc.avoids hname)
    exact ⟨hx.keeps hkeep hidle, hr.keeps hkeep hlater⟩
  case runs => exact fun h ctx s => Engine.exists_executes hcompile ctx h s
  case run_cleared =>
    intro σ h live ctx s t hl hrun o body hcreate
    obtain ⟨ms', hms', hamong⟩ := Engine.calls_among hcreate
    cases hms'.symm.trans hcompile
    obtain ⟨m, hm, rfl, -⟩ := hamong o rfl
    rw [hcancel] at hrun
    exact Engine.not_live_of_cancelAll hl (runs_servedBy_iff.2 ⟨hrun, rfl⟩) hm
  case run_untouched =>
    intro σ h ctx s name hname
    refine ⟨fun c hc => ?_, fun holds hlast hkeep hs => ?_⟩
    · obtain ⟨ms', hms', hamong⟩ := Engine.calls_among hc
      cases hms'.symm.trans hcompile
      exact hamong.avoids hname
    · have hrun : holds (e.run h r ctx s).2 := by
        refine Engine.keeps_run hlast (fun ms' hms' c s hc => ?_) hs
        cases hms'.symm.trans hcompile
        exact hkeep c s (hc.avoids hname)
      exact ⟨hrun, hconfined.run (fun c s hc => hkeep c s (hc.avoids hname)) hrun⟩

end Spec

/-! ## A fan-out of which one object is not deleted at first -/

/-- The objects of a cluster, and how many deletions it is going to refuse. -/
structure Simulation.Shelf where
  objects : List ObjectRef
  refusals : Nat

/-- A cluster that does what it is asked to, but for the deletions that it refuses. -/
def Simulation.Shelf.handler : Handler Call Answer (Timed Simulation.Shelf)
  | .now, s => (s.now, s)
  | .pause ms, s => ((), ⟨s.now + ms, s.state⟩)
  | .connect _ _, s => (.ok (), s)
  | .invalidate _, s => ((), s)
  | .exists o, s => (.ok (decide (o ∈ s.state.objects)), s)
  | .create o _, s => (.ok (), ⟨s.now, o :: s.state.objects, s.state.refusals⟩)
  | .delete o, s =>
    match s.state.refusals with
    | 0 => (.ok (), ⟨s.now, s.state.objects.filter (· ≠ o), 0⟩)
    | k + 1 => (.error (.kube none "timed out"), ⟨s.now, s.state.objects, k⟩)
  | .watch _, s => (.ok ⟨[], some 0⟩, s)
  | .follow _ _, s =>
    (⟨[], .ok ⟨[], some 0⟩, fun _ => some 0, fun _ => 1.0, fun _ => true, fun _ => true⟩, s)
  | .tail _ _ _, s => (.ok "", s)
  | .deliver _ _, s => ((), s)
  | .publish _, s => (.ok (), s)

theorem Simulation.Shelf.obedient :
    Obedient (servedBy Simulation.Shelf.handler) fun o s => o ∈ s.state.objects where
  look o s b t hs := by
    cases hs
    exact decide_eq_true_iff
  delete o s t hs := by
    obtain ⟨now, objects, refusals⟩ := s
    cases refusals <;> cases hs
    simp
  appears o c s x t hs hc hlive := by
    cases c with
    | create o' body => exact absurd rfl (hc o' body)
    | delete o' =>
      obtain ⟨now, objects, refusals⟩ := s
      cases refusals <;> cases hs
      · exact List.mem_of_mem_filter hlive
      · exact hlive
    | _ =>
      cases hs
      exact hlive

/-- The first object is still there after a cancel, the second one is not, and a second cancel removes
the first one too. -/
theorem cancellation_of_fanned :
    (∃ ms, Engine.etl.compiler.compileAll .fanned = .ok ms ∧ CancellationSpec .etl .fanned ms) ∧
      Obedient (servedBy Simulation.Shelf.handler) (fun o s => o ∈ s.state.objects) ∧
      let live (s : Timed Simulation.Shelf) : List String := s.state.objects.map ObjectRef.name
      let s := (Engine.etl.run Simulation.Shelf.handler .fanned ⟨none, fun _ => true⟩ ⟨0, [], 0⟩).2
      let refused := (Engine.etl.cancel .fanned).run Simulation.Shelf.handler
        ⟨s.now, s.state.objects, 1⟩
      let done := (Engine.etl.cancel .fanned).run Simulation.Shelf.handler refused.2
      live s = ["etl-7-1", "etl-7-0"] ∧
        refused.1 = some (.error (.clusterCommunication "prod" (.kube none "timed out"))) ∧
        live refused.2 = ["etl-7-0"] ∧ done.1 = some (.ok ()) ∧ live done.2 = [] := by
  refine ⟨⟨_, rfl, cancellation_spec rfl⟩, Simulation.Shelf.obedient, ?_⟩
  obtain ⟨ms, ended, t, hcompile, hpool, hlive⟩ : ∃ ms ended t,
      Engine.etl.compiler.compileAll .fanned = .ok ms ∧
      Pool.runWithin Simulation.Shelf.handler 4 (Engine.etl.pool (Request.fanned.fanOut ms)
        ⟨none, fun _ => true⟩ 0) ⟨0, [], 0⟩ = some (ended, t) ∧
      let s := (Engine.etl.concluded Simulation.Shelf.handler (Request.fanned.fanOut ms)
        ⟨none, fun _ => true⟩ ended t).2
      let refused := (Engine.etl.cancel .fanned).run Simulation.Shelf.handler
        ⟨s.now, s.state.objects, 1⟩
      let done := (Engine.etl.cancel .fanned).run Simulation.Shelf.handler refused.2
      s.state.objects.map ObjectRef.name = ["etl-7-1", "etl-7-0"] ∧
        refused.1 = some (.error (.clusterCommunication "prod" (.kube none "timed out"))) ∧
        refused.2.state.objects.map ObjectRef.name = ["etl-7-0"] ∧ done.1 = some (.ok ()) ∧
        done.2.state.objects.map ObjectRef.name = [] := by
    refine ⟨_, _, _, rfl, rfl, ?_, rfl, ?_, rfl, ?_⟩ <;> decide +kernel
  have hended := Pool.run_of_runWithin hpool
  rwa [Engine.run_of_fanned hcompile rfl, Engine.runFanOut_of_run hended]

end ClusterJobs
