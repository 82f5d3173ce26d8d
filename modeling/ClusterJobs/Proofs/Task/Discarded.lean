import ClusterJobs.Proofs.Task.Slots
import ClusterJobs.Simulation.World

/-!
# Discarded task instances

A run whose task instance is gone from the start asks nothing of a cluster. Alone it is killed. The
items of a fan-out are killed too, and reported so, but the fan-out itself ends as its policy says,
which is never killed.
-/

namespace ClusterJobs

variable {σ : Type}

/-- A handler that also writes down the calls, the last one first. -/
def logged (h : Program.Handler Call Answer (Timed σ)) :
    Program.Handler Call Answer (Timed (σ × List Call)) := fun c s =>
  let (x, t) := h c ⟨s.now, s.state.1⟩
  (x, ⟨t.now, t.state, c :: s.state.2⟩)

/-- The calls that a run makes, the last one first. -/
def Engine.calls (h : Program.Handler Call Answer (Timed σ)) (e : Engine) (r : Request)
    (ctx : Context) (s : Timed σ) : List Call :=
  (e.run (logged h) r ctx ⟨s.now, s.state, []⟩).2.state.2

/-- The clock shows the present or a later time, and looking at it does not set it back. -/
def Ticks (h : Program.Handler Call Answer (Timed σ)) : Prop :=
  ∀ s, s.now ≤ (h .now s).1 ∧ s.now ≤ (h .now s).2.now

/-- The token never fires, and the task instance is not live any more. -/
structure Context.Discarded (ctx : Context) (start : Nat) : Prop where
  quiet : ctx.firesAt = none
  gone : ∀ t, start ≤ t → ctx.live t = false

namespace Context.Discarded

variable {ctx : Context} {start : Nat}

theorem fired_eq (hd : ctx.Discarded start) (t : Nat) : ctx.fired t = false := by
  simp [fired, hd.quiet]

theorem cancelled_eq (hd : ctx.Discarded start) {t : Nat} (ht : start ≤ t) :
    ctx.cancelled t = true := by
  simp [cancelled, hd.gone t ht]

end Context.Discarded

/-! ## Reports -/

namespace FanOut

/-- The reports on items that are all killed. -/
def killedReports (f : FanOut) : List ItemResult :=
  f.manifests.zipIdx.map fun p => f.report p.2 p.1 (.ok .killed)

theorem reportsFrom_killed (f : FanOut) (i : Nat) (ms : List Manifest) :
    f.reportsFrom i ms (List.replicate ms.length (.ok .killed)) =
      (ms.zipIdx i).map fun p => f.report p.2 p.1 (.ok .killed) := by
  induction ms generalizing i with
  | nil => rfl
  | cons m ms ih => simp [List.replicate_succ, reportsFrom, ih]

theorem reports_killed (f : FanOut) :
    f.reports (List.replicate f.manifests.length (.ok .killed)) = f.killedReports :=
  f.reportsFrom_killed 0 f.manifests

theorem unsuccessful_killed (f : FanOut) :
    unsuccessful f.killedReports = f.killedReports.map ItemResult.name := by
  unfold unsuccessful
  rw [List.filter_eq_self.2]
  intro r hr
  obtain ⟨p, -, rfl⟩ := List.mem_map.1 hr
  rfl

theorem firstFault?_killed (n : Nat) : firstFault? (List.replicate n (.ok .killed)) = none := by
  induction n with
  | zero => rfl
  | succ n ih => exact ih

/-- The outcome of a fan-out whose items are all killed. -/
theorem resolve_killed (policy : FanOutPolicy) (f : FanOut) :
    resolve policy f.killedReports =
      if policy = .failOnAnyFailure ∧ f.manifests ≠ [] then
        .failure ("fan-out items did not succeed: " ++
          Text.joinWith ", " (f.killedReports.map ItemResult.name))
      else .success := by
  have hempty : f.killedReports.map ItemResult.name = [] ↔ f.manifests = [] := by
    simp [killedReports]
  simp only [resolve, unsuccessful_killed, Bool.and_eq_true, decide_eq_true_eq, Bool.not_eq_true',
    List.isEmpty_eq_false_iff, ne_eq, hempty]

theorem status_resolve (policy : FanOutPolicy) (reports : List ItemResult) :
    (resolve policy reports).status ≠ .killed := by
  simp only [resolve]
  split <;> exact nofun

end FanOut

/-! ## Runs -/

section Run

variable {h : Program.Handler Call Answer (Timed σ)} {holds : Timed σ → Prop} {ctx : Context}
  {start : Nat} {e : Engine} {f : FanOut} {s : Timed σ}

/-- The states that hold are kept by looks at the clock, which shows no time before the start. -/
structure Steady (h : Program.Handler Call Answer (Timed σ)) (start : Nat)
    (holds : Timed σ → Prop) : Prop where
  answer : ∀ s, holds s → start ≤ (h .now s).1
  keep : ∀ s, holds s → holds (h .now s).2
  lasting : Lasting holds

theorem advance_now {α : Type} (next : Nat → TaskProgram α) :
    advance h (.ask .now next) s = advance h (next (h .now s).1) (h .now s).2 := rfl

theorem run_now {α : Type} (next : Nat → TaskProgram α) :
    (Program.ask .now next).run h s = (next (h .now s).1).run h (h .now s).2 := rfl

theorem run_publish {α : Type} (reports : List ItemResult)
    (next : Except JobFault Unit → TaskProgram α) :
    (Program.ask (.publish reports) next).run h s =
      (next (h (.publish reports) s).1).run h (h (.publish reports) s).2 := rfl

/-- A run looks first whether it is cancelled. -/
theorem Manifest.run_eq (m : Manifest) (settings : ItemSettings) (limit : Option Nat)
    (ctx : Context) :
    ∃ rest, m.run settings limit ctx =
      .ask .now fun (t : Nat) => if ctx.cancelled t then .done (.ok .killed) else rest :=
  ⟨_, rfl⟩

theorem FanOut.item_eq (m : Manifest) (settings : ItemSettings) (limit : Option Nat)
    (ctx : Context) :
    FanOut.item settings limit ctx m = .ask .now fun (t : Nat) =>
      if ctx.fired t then .done (.ok .killed) else m.run settings limit ctx :=
  rfl

/-- An item of a discarded instance is killed at once. -/
theorem endsAtOnce_item (hd : ctx.Discarded start) (hst : Steady h start holds)
    (settings : ItemSettings) (limit : Option Nat) (m : Manifest) :
    EndsAtOnce h holds (.ok .killed) (FanOut.item settings limit ctx m) := by
  intro s hs
  have hs₁ := hst.keep s hs
  have hfired := ne_true_of_eq_false (hd.fired_eq (h .now s).1)
  have hcancelled := hd.cancelled_eq (hst.answer _ hs₁)
  obtain ⟨rest, hrun⟩ := m.run_eq settings limit ctx
  refine ⟨(h .now (h .now s).2).2, ?_, hst.keep _ hs₁⟩
  rw [FanOut.item_eq, advance_now, if_neg hfired, hrun, advance_now, if_pos hcancelled]
  rfl

/-- A run of its own looks at the clock once. -/
theorem run_manifest (hd : ctx.Discarded start) (hnow : start ≤ (h .now s).1)
    (settings : ItemSettings) (limit : Option Nat) (m : Manifest) :
    (m.run settings limit ctx).run h s = (some (.ok .killed), (h .now s).2) := by
  obtain ⟨rest, hrun⟩ := m.run_eq settings limit ctx
  rw [hrun, run_now, if_pos (hd.cancelled_eq hnow)]
  rfl

theorem run_conclude (hd : ctx.Discarded start) (policy : FanOutPolicy) :
    (f.conclude policy ctx (List.replicate f.manifests.length (.ok .killed))).run h s =
      (some (.ok (FanOut.resolve policy f.killedReports)),
        (h .now (h (.publish f.killedReports) s).2).2) := by
  have hfired := ne_true_of_eq_false (hd.fired_eq (h .now (h (.publish f.killedReports) s).2).1)
  have hconclude : f.conclude policy ctx (List.replicate f.manifests.length (.ok .killed)) =
      .ask (.publish f.killedReports) fun _ => .ask .now fun (t : Nat) =>
        if ctx.fired t then .done (.ok .killed)
        else .done (.ok (FanOut.resolve policy f.killedReports)) := by
    unfold FanOut.conclude
    rw [FanOut.reports_killed, FanOut.firstFault?_killed]
    rfl
  rw [hconclude]
  refine (run_publish f.killedReports _).trans ((run_now _).trans ?_)
  rw [if_neg hfired]
  rfl

theorem run_runFanOut (hd : ctx.Discarded start) (hst : Steady h start holds) (hslots : 0 < e.slots)
    (hs : holds s) :
    ∃ s', holds s' ∧ e.runFanOut h f ctx s =
      (some (.ok (FanOut.resolve e.policy f.killedReports)),
        (h .now (h (.publish f.killedReports) s').2).2) := by
  have hitems : ∀ p ∈ f.manifests.map (FanOut.item e.items f.limit ctx),
      EndsAtOnce h holds (.ok .killed) p := by
    intro p hp
    obtain ⟨m, -, rfl⟩ := List.mem_map.1 hp
    exact endsAtOnce_item hd hst e.items f.limit m
  obtain ⟨s', hrun, hs'⟩ := runInSlots_of_endsAtOnce hst.lasting hslots hitems hs
  rw [List.length_map] at hrun
  refine ⟨s', hs', ?_⟩
  unfold Engine.runFanOut
  simp only [hrun]
  exact run_conclude hd e.policy

/-- Looks at a clock that ticks keep the time. -/
theorem steady_of_ticks (hticks : Ticks h) (start : Nat) :
    Steady h start fun s => start ≤ s.now where
  answer := fun s hs => Nat.le_trans hs (hticks s).1
  keep := fun s hs => Nat.le_trans hs (hticks s).2
  lasting := fun _ _ hs ht => Nat.le_trans hs ht

/-- So do looks that are written down, and nothing else is. -/
theorem steady_logged (hticks : Ticks h) (start : Nat) :
    Steady (logged h) start fun s => start ≤ s.now ∧ ∃ k, s.state.2 = List.replicate k .now where
  answer := fun s hs => Nat.le_trans hs.1 (hticks ⟨s.now, s.state.1⟩).1
  keep := by
    rintro s ⟨hs, k, hlog⟩
    refine ⟨Nat.le_trans hs (hticks ⟨s.now, s.state.1⟩).2, k + 1, ?_⟩
    rw [List.replicate_succ, ← hlog]
    rfl
  lasting := fun _ _ hs ht => ⟨Nat.le_trans hs.1 ht, hs.2⟩

end Run

/-! ## Requests -/

/-- The fan-out of a request with these manifests. -/
def Request.fanOut (r : Request) (ms : List Manifest) : FanOut :=
  ⟨ms, r.fetches, r.processInstanceId, Engine.limit? r⟩

section Request

variable {h : Program.Handler Call Answer (Timed σ)} {holds : Timed σ → Prop} {ctx : Context}
  {start : Nat} {e : Engine} {s : Timed σ} {r : Request} {ms : List Manifest}

theorem run_of_single (hcompile : e.compiler.compileAll r = .ok ms) (hsingle : r.multiple = false)
    (hd : ctx.Discarded start) (hnow : start ≤ (h .now s).1) :
    e.run h r ctx s = (some (.ok .killed), (h .now s).2) := by
  unfold Engine.run
  rw [if_neg (ne_true_of_eq_false hsingle)]
  rw [Compiler.compileAll, if_neg (ne_true_of_eq_false hsingle)] at hcompile
  cases hm : e.compiler.compile r none with
  | error fault =>
    rw [hm] at hcompile
    cases hcompile
  | ok m => exact run_manifest hd hnow e.items (Engine.limit? r) m

theorem run_of_multiple (hcompile : e.compiler.compileAll r = .ok ms) (hmany : r.multiple = true)
    (hslots : 0 < e.slots) (hd : ctx.Discarded start) (hst : Steady h start holds) (hs : holds s) :
    ∃ s', holds s' ∧ e.run h r ctx s =
      (some (.ok (FanOut.resolve e.policy (r.fanOut ms).killedReports)),
        (h .now (h (.publish (r.fanOut ms).killedReports) s').2).2) := by
  unfold Engine.run
  simp only [if_pos hmany, hcompile]
  exact run_runFanOut (f := r.fanOut ms) hd hst hslots hs

theorem calls_of_single (hticks : Ticks h) (hcompile : e.compiler.compileAll r = .ok ms)
    (hsingle : r.multiple = false) (hd : ctx.Discarded s.now) : e.calls h r ctx s = [.now] := by
  have hst := steady_logged hticks s.now
  unfold Engine.calls
  rw [run_of_single hcompile hsingle hd (hst.answer _ ⟨Nat.le_refl _, 0, rfl⟩)]
  rfl

theorem calls_of_multiple (hticks : Ticks h) (hcompile : e.compiler.compileAll r = .ok ms)
    (hmany : r.multiple = true) (hslots : 0 < e.slots) (hd : ctx.Discarded s.now) :
    ∃ k, e.calls h r ctx s =
      .now :: .publish (r.fanOut ms).killedReports :: List.replicate k .now := by
  obtain ⟨s', ⟨-, k, hlog⟩, hrun⟩ := run_of_multiple (s := ⟨s.now, s.state, []⟩) hcompile hmany
    hslots hd (steady_logged hticks s.now) ⟨Nat.le_refl _, 0, rfl⟩
  refine ⟨k, ?_⟩
  unfold Engine.calls
  rw [hrun, ← hlog]
  rfl

end Request

/-- What comes of a request whose task instance is discarded. -/
structure DiscardedSpec (h : Program.Handler Call Answer (Timed σ)) (e : Engine) (r : Request)
    (ms : List Manifest) (ctx : Context) (s : Timed σ) : Prop where
  /-- Nothing is asked of a cluster. -/
  untouched : ∀ c ∈ e.calls h r ctx s, c.reachesCluster = false
  /-- Alone it is killed, after one look at the clock. -/
  single : r.multiple = false →
    (e.run h r ctx s).1 = some (.ok .killed) ∧ e.calls h r ctx s = [.now]
  /-- A fan-out reports once that its items are killed, and ends as its policy says. -/
  many : r.multiple = true →
    (e.run h r ctx s).1 = some (.ok
      (if e.policy = .failOnAnyFailure ∧ ms ≠ [] then
        .failure ("fan-out items did not succeed: " ++
          Text.joinWith ", " ((r.fanOut ms).killedReports.map ItemResult.name))
      else .success)) ∧
    ∃ k, e.calls h r ctx s =
      .now :: .publish (r.fanOut ms).killedReports :: List.replicate k .now
  /-- So the request is killed exactly if it is not a fan-out. -/
  killed_iff : (∃ o, (e.run h r ctx s).1 = some (.ok o) ∧ o.status = .killed) ↔ r.multiple = false

/-- A request is run whose task instance is discarded from the start. -/
theorem discarded_spec {h : Program.Handler Call Answer (Timed σ)} (hticks : Ticks h)
    (ts : Templates) (settings : Settings) (drainGrace : Nat) (openBackoff : ClockBackoff) {r : Request}
    {ms : List Manifest} (hcompile : (Compiler.ofSettings ts settings).compileAll r = .ok ms)
    {ctx : Context} {s : Timed σ} (hd : ctx.Discarded s.now) :
    DiscardedSpec h (.ofSettings ts settings drainGrace openBackoff) r ms ctx s := by
  generalize he : Engine.ofSettings ts settings drainGrace openBackoff = e
  have hcompile : e.compiler.compileAll r = .ok ms := he ▸ hcompile
  have hslots : 0 < e.slots := he ▸ Nat.le_max_right settings.fanOutConcurrency 1
  cases hmultiple : r.multiple with
  | false =>
    have hrun := run_of_single hcompile hmultiple hd (hticks s).1
    have hcalls := calls_of_single hticks hcompile hmultiple hd
    refine ⟨?_, fun _ => ⟨by rw [hrun], hcalls⟩, fun hmany => ?_, ?_⟩
    · rw [hcalls]
      simp [Call.reachesCluster]
    · rw [hmultiple] at hmany
      cases hmany
    · rw [hrun]
      exact ⟨fun _ => hmultiple, fun _ => ⟨.killed, rfl, rfl⟩⟩
  | true =>
    obtain ⟨s', -, hrun⟩ := run_of_multiple hcompile hmultiple hslots hd
      (steady_of_ticks hticks s.now) (Nat.le_refl s.now)
    obtain ⟨k, hcalls⟩ := calls_of_multiple hticks hcompile hmultiple hslots hd
    refine ⟨?_, fun hsingle => ?_, fun _ => ⟨?_, k, hcalls⟩, ?_⟩
    · rw [hcalls]
      simp [Call.reachesCluster]
    · rw [hmultiple] at hsingle
      cases hsingle
    · rw [hrun, FanOut.resolve_killed]
      rfl
    · rw [hrun, hmultiple]
      constructor
      · rintro ⟨o, ho, hkilled⟩
        cases ho
        exact absurd hkilled (FanOut.status_resolve _ _)
      · intro hfalse
        cases hfalse

/-! ## A fan-out over one data source -/

/-- A plain job for one data source, alone or as a fan-out. -/
def Request.etl (multiple : Bool) : Request where
  taskName := "etl"
  taskInstanceId := 7
  taskCode := 70
  taskAppId := "app-7"
  processInstanceId := 3
  image := "busybox:1.36"
  imagePullPolicy := none
  command := ""
  args := ""
  nameSpace := "jobs"
  cluster := "prod"
  resources := .standard
  queue := none
  labels := []
  env := []
  nodeSelectors := []
  volumes := .standard
  fetches := [{ FetchSpec.standard with fetchName := "a" }]
  multiple := multiple
  workload := .plain
  timeout := .standard
  logPath := none

/-- The token does not fire, and no task instance is live. -/
def Context.gone : Context := ⟨none, fun _ => false⟩

theorem Context.discarded_gone (start : Nat) : gone.Discarded start :=
  ⟨rfl, fun _ _ => rfl⟩

/-- A plain job needs no templates. -/
def Engine.etl : Engine :=
  .ofSettings (fun _ => .null) .standard 0 .standard

theorem ticks_rehearsal : Ticks Simulation.World.handler :=
  fun _ => ⟨Nat.le_refl _, Nat.le_refl _⟩

theorem discarded_etl :
    (∃ ms, DiscardedSpec Simulation.World.handler .etl (.etl false) ms .gone
      ⟨0, .ofScript .quiet⟩) ∧
    ∃ ms, DiscardedSpec Simulation.World.handler .etl (.etl true) ms .gone
      ⟨0, .ofScript .quiet⟩ := by
  constructor
  · exact ⟨_, discarded_spec ticks_rehearsal _ _ _ _ rfl (Context.discarded_gone 0)⟩
  · exact ⟨_, discarded_spec ticks_rehearsal _ _ _ _ rfl (Context.discarded_gone 0)⟩

/-- A sound fan-out whose task instance is gone all along succeeds, and is not killed. -/
theorem run_etl_not_killed :
    (Request.etl true).check = .ok () ∧
      (∃ ms, Engine.etl.compiler.compileAll (.etl true) = .ok ms) ∧ Context.gone.Discarded 0 ∧
      (Engine.etl.run Simulation.World.handler (.etl true) .gone ⟨0, .ofScript .quiet⟩).1 =
        some (.ok .success) ∧ Outcome.success.status ≠ .killed := by
  obtain ⟨s', -, hrun⟩ := run_of_multiple (e := .etl) (r := .etl true)
    (s := ⟨0, Simulation.World.ofScript .quiet⟩) rfl rfl (by decide) (Context.discarded_gone 0)
    (steady_of_ticks ticks_rehearsal 0) (Nat.le_refl 0)
  exact ⟨rfl, ⟨_, rfl⟩, Context.discarded_gone 0, congrArg Prod.fst hrun, nofun⟩

end ClusterJobs
