import ClusterJobs.Proofs.Task.Alongside
import ClusterJobs.Task.Item

/-!
# Runs of one object

A run fails only if its object was not submitted. It has then cleaned up after itself, and its
fault is that of the submission. Once the object is created, the outcome is that of the watch, while
and after which lines of the log may be handed on.
-/

namespace ClusterJobs

open Program

/-- The call watches an object or reads its log. -/
def Call.observes : Call → Bool
  | .watch _ | .follow _ _ | .tail _ _ _ => true
  | _ => false

/-- The call neither observes nor creates. -/
structure Call.Quiet (c : Call) : Prop where
  observes : c.observes = false
  creates : ∀ o body, c ≠ .create o body

/-- Looks that succeed are truthful, and a deletion that succeeds leaves nothing behind. -/
structure Truthful {σ : Type} (h : Handler Call Answer σ) (o : ObjectRef) (stands : σ → Prop) :
    Prop where
  look : ∀ s b, (h (.exists o) s).1 = .ok b → (b = true ↔ stands (h (.exists o) s).2)
  delete : ∀ s, (h (.delete o) s).1 = .ok () → ¬ stands (h (.delete o) s).2

/-! ## The calls of a manifest -/

namespace Manifest

/-- The calls by which a submitted object is followed. -/
inductive Attends (m : Manifest) : Call → Prop where
  | now : Attends m .now
  | pause (ms : Nat) : Attends m (.pause ms)
  | deliver (line : String) : Attends m (.deliver m.name line)
  | watch : Attends m (.watch m.ref)
  | follow : Attends m (.follow m.ref m.container)
  | tail (lines : Int) : Attends m (.tail m.ref m.container lines)

/-- The calls that the programs of a manifest make. -/
inductive Makes (m : Manifest) : Call → Prop where
  | attends {c : Call} : m.Attends c → Makes m c
  | connect : Makes m (.connect m.target m.kind.objectKind)
  | invalidate : Makes m (.invalidate m.target)
  | look : Makes m (.exists m.ref)
  | create : Makes m (.create m.ref m.object)
  | delete : Makes m (.delete m.ref)

variable {may : Prop} (m : Manifest)

theorem stop_confined : m.stop.Confined m.Makes may := by
  refine .ask .look fun x => ?_
  match x with
  | .error e => exact .done _
  | .ok false => exact .done _
  | .ok true =>
    refine .ask .delete fun x => ?_
    match x with
    | .error e => exact .done _
    | .ok () => exact .done _

theorem awaitGone_confined (k : Nat) : (m.awaitGone k).Confined m.Makes may := by
  induction k with
  | zero => exact .done _
  | succ k ih =>
    refine .ask .look fun x => ?_
    match x with
    | .error e => exact .done _
    | .ok false => exact .done _
    | .ok true => exact .ask (.attends (.pause _)) fun _ => ih

theorem submit_confined : m.submit.Confined m.Makes may := by
  refine m.stop_confined.bind fun r => ?_
  match r with
  | .error e => exact .done _
  | .ok () =>
    refine (m.awaitGone_confined pollAttempts).bind fun r => ?_
    match r with
    | .error e => exact .done _
    | .ok () =>
      refine .ask .create fun x => ?_
      match x with
      | .error e => exact .done _
      | .ok () => exact .done _

theorem join_attends (settings : ItemSettings) (source : LogSource) (start : Nat) (r : Relaying) :
    (m.join settings source start r).Confined m.Attends may :=
  .ask .now fun _ => (handOn_confined .pause .deliver).bind fun _ => .ask (.pause _) fun _ => .done ()

/-! ## The parts of a run -/

def dropIf (useless : Bool) : TaskProgram Unit :=
  if useless then .ask (.invalidate m.target) .done else .done ()

theorem dropIf_bind {α : Type} (useless : Bool) (f : Unit → TaskProgram α) :
    (m.dropIf useless).bind f = if useless then .ask (.invalidate m.target) f else f () := by
  cases useless <;> rfl

def giveUp (e : JobFault) : TaskProgram (Except JobFault Outcome) :=
  (m.dropIf e.isClusterFailure).bind fun _ => m.stop.bind fun _ => .done (.error e)

variable (settings : ItemSettings) (limit : Option Nat) (ctx : Context)

/-- What is left of a run when its submission is over. -/
def proceed : Except JobFault Unit → TaskProgram (Except JobFault Outcome)
  | .error e => m.giveUp e
  | .ok () => (m.follow settings limit ctx).bind fun o => .done (.ok o)

/-- What is left of a run when it has asked for access to the cluster. -/
def begin : Except Fault Unit → TaskProgram (Except JobFault Outcome)
  | .error cause => (m.dropIf cause.isClusterFailure).bind fun _ =>
    .done (.error (m.clusterFault cause))
  | .ok () => m.submit.bind (m.proceed settings limit ctx)

theorem connect_steps :
    m.connect = .ask (.connect m.target m.kind.objectKind) fun x =>
      match (x : Except Fault Unit) with
      | .error cause => (m.dropIf cause.isClusterFailure).bind fun _ =>
        .done (.error (m.clusterFault cause))
      | .ok () => .done (.ok ()) := by
  refine congrArg (Program.ask _) (funext fun x => ?_)
  cases x with
  | error cause =>
    exact (m.dropIf_bind cause.isClusterFailure fun _ =>
      .done (Except.error (m.clusterFault cause))).symm
  | ok u => rfl

theorem run_steps :
    m.run settings limit ctx = .ask .now fun (start : Nat) =>
      if ctx.cancelled start then .done (.ok .killed)
      else .ask (.connect m.target m.kind.objectKind) (m.begin settings limit ctx) := by
  refine congrArg _ (funext fun start => if_congr Iff.rfl rfl ?_)
  rw [connect_steps]
  refine congrArg (Program.ask _) (funext fun x => ?_)
  cases x with
  | error cause => exact bind_assoc ..
  | ok u =>
    refine congrArg m.submit.bind (funext fun r => ?_)
    cases r with
    | error e =>
      exact (m.dropIf_bind e.isClusterFailure fun _ =>
        m.stop.bind fun _ => .done (Except.error e)).symm
    | ok u => rfl

/-- What is left of a run when its log is followed, from the time `start` on. -/
def attend (source : LogSource) (start : Nat) (r : Relaying) : TaskProgram Outcome :=
  (alongside m.name (m.watch settings.tailLines limit ctx) r).bind fun p =>
    (m.join settings source start p.2).bind fun _ => .done p.1

theorem follow_steps :
    m.follow settings limit ctx = .ask .now fun (start : Nat) =>
      .ask (.follow m.ref m.container) fun source =>
        m.attend settings limit ctx source start (source.relaying settings.openBackoff start) :=
  rfl

/-! ## Runs -/

section Runs

variable {m ctx} {σ : Type} {h : Handler Call Answer σ} {s t : σ} {cause : Fault}
  {e : JobFault}

def access (m : Manifest) (h : Handler Call Answer σ) (s : σ) : Except Fault Unit × σ :=
  h (.connect m.target m.kind.objectKind) (h .now s).2

def opening (m : Manifest) (h : Handler Call Answer σ) (s : σ) : List TaskEvent :=
  [⟨.now, (h .now s).1⟩, ⟨.connect m.target m.kind.objectKind, (m.access h s).1⟩]

def dropped (m : Manifest) (useless : Bool) : List TaskEvent :=
  if useless then [⟨.invalidate m.target, ()⟩] else []

theorem run_dropIf (m : Manifest) (useless : Bool) (h : Handler Call Answer σ) (s : σ) :
    ∃ t, (m.dropIf useless).run h s = (some (), t) ∧
      (m.dropIf useless).events h s = m.dropped useless := by
  cases useless with
  | false => exact ⟨s, rfl, rfl⟩
  | true => exact ⟨_, rfl, rfl⟩

theorem run_of_cancelled (hc : ctx.cancelled (h .now s).1 = true) :
    (m.run settings limit ctx).run h s = (some (.ok .killed), (h .now s).2) ∧
      (m.run settings limit ctx).events h s = [⟨.now, (h .now s).1⟩] := by
  simp [run_steps, Program.run, events, hc]

theorem run_of_live (hc : ctx.cancelled (h .now s).1 = false) :
    (m.run settings limit ctx).run h s =
        (m.begin settings limit ctx (m.access h s).1).run h (m.access h s).2 ∧
      (m.run settings limit ctx).events h s = m.opening h s ++
        (m.begin settings limit ctx (m.access h s).1).events h (m.access h s).2 := by
  simp [run_steps, Program.run, events, hc, access, opening]

theorem run_of_unreached (hc : ctx.cancelled (h .now s).1 = false)
    (hx : (m.access h s).1 = .error cause) :
    ((m.run settings limit ctx).run h s).1 = some (.error (m.clusterFault cause)) ∧
      (m.run settings limit ctx).events h s =
        m.opening h s ++ m.dropped cause.isClusterFailure := by
  obtain ⟨hrun, hevents⟩ := run_of_live settings limit hc
  obtain ⟨t, hdrop, hdropped⟩ := m.run_dropIf cause.isClusterFailure h (m.access h s).2
  rw [hrun, hevents, hx]
  simp only [begin, run_bind_of_some hdrop, events_bind_of_some hdrop, hdropped, events]
  exact ⟨rfl, by simp⟩

theorem run_of_unsubmitted (hc : ctx.cancelled (h .now s).1 = false)
    (hx : (m.access h s).1 = .ok ())
    (hsubmit : m.submit.run h (m.access h s).2 = (some (.error e), t)) :
    ∃ u, (m.run settings limit ctx).run h s = (some (.error e), (m.stop.run h u).2) ∧
      (m.run settings limit ctx).events h s =
        m.opening h s ++ m.submit.events h (m.access h s).2 ++ m.dropped e.isClusterFailure ++
          m.stop.events h u := by
  obtain ⟨hrun, hevents⟩ := run_of_live settings limit hc
  obtain ⟨u, hdrop, hdropped⟩ := m.run_dropIf e.isClusterFailure h t
  obtain ⟨r, v, hstop⟩ := m.stop_confined.exists_run h u
  refine ⟨u, ?_⟩
  rw [hrun, hevents, hx]
  simp only [begin, proceed, giveUp, run_bind_of_some hsubmit, events_bind_of_some hsubmit,
    run_bind_of_some hdrop, events_bind_of_some hdrop, run_bind_of_some hstop,
    events_bind_of_some hstop, hdropped, hstop, Program.run, events]
  exact ⟨trivial, by simp⟩

/-- A watch whose log is relayed: its outcome, and what becomes of its calls. -/
structure Followed (m : Manifest) (settings : ItemSettings) (limit : Option Nat) (ctx : Context)
    (h : Handler Call Answer σ) (w : σ × Relaying) (calls : List TaskEvent) (r : Option Outcome) :
    Prop where
  result : r = ((m.watch settings.tailLines limit ctx).run (beside m.name h) w).1
  /-- The calls are those of the watch, with lines handed on in its pauses. Then the relay is joined. -/
  calls_eq : ∃ watched after r', calls = watched ++ after ∧ Alongside m.name w.2
    ((m.watch settings.tailLines limit ctx).events (beside m.name h) w) watched r'
  /-- The outcome is that of a watch without a relay, if nothing depends on what is handed on. -/
  unheard : Unheard h → r = ((m.watch settings.tailLines limit ctx).run h w.1).1

theorem followed_attend (m : Manifest) (ctx : Context) (h : Handler Call Answer σ)
    (source : LogSource) (start : Nat) (w : σ × Relaying) :
    m.Followed settings limit ctx h w
      ((m.attend settings limit ctx source start w.2).events h w.1)
      ((m.attend settings limit ctx source start w.2).run h w.1).1 := by
  have hunheard (hu : Unheard h) : ((m.watch settings.tailLines limit ctx).run (beside m.name h) w).1 =
      ((m.watch settings.tailLines limit ctx).run h w.1).1 := hu.run_beside _ _ _
  rw [attend]
  rcases hw : (m.watch settings.tailLines limit ctx).run (beside m.name h) w with ⟨_ | o, t, r⟩
  · obtain ⟨hrun, calls, hcalls, halong⟩ := run_alongside_never hw
    rw [hw] at hunheard
    rw [run_bind_of_none hrun, events_bind_of_none hrun]
    exact ⟨by rw [hw], ⟨calls, _, r, hcalls, halong⟩, hunheard⟩
  · -- The relay is joined after the watch. Since that ends, it does not change the outcome.
    obtain ⟨hrun, halong⟩ := run_alongside hw
    obtain ⟨u, v, hjoin⟩ := (m.join_attends settings source start r).exists_run h t
    rw [hw] at hunheard
    rw [run_bind_of_some hrun, events_bind_of_some hrun, run_bind_of_some hjoin]
    exact ⟨by rw [hw]; rfl, ⟨_, _, r, rfl, halong⟩, hunheard⟩

theorem followed_follow (m : Manifest) (ctx : Context) (h : Handler Call Answer σ) (t : σ) :
    ∃ (start : Nat) (source : LogSource) (calls : List TaskEvent),
      (m.follow settings limit ctx).events h t =
        ⟨.now, start⟩ :: ⟨.follow m.ref m.container, source⟩ :: calls ∧
      m.Followed settings limit ctx h
        (stateAfter h [⟨.now, start⟩, ⟨.follow m.ref m.container, source⟩] t,
          source.relaying settings.openBackoff start) calls
        ((m.follow settings limit ctx).run h t).1 :=
  ⟨_, _, _, rfl, followed_attend settings limit m ctx h _ _ (_, _)⟩

theorem run_of_submitted (hc : ctx.cancelled (h .now s).1 = false)
    (hx : (m.access h s).1 = .ok ())
    (hsubmit : m.submit.run h (m.access h s).2 = (some (.ok ()), t)) :
    ((m.run settings limit ctx).run h s).1 =
        ((m.follow settings limit ctx).run h t).1.map .ok ∧
      (m.run settings limit ctx).events h s = m.opening h s ++ m.submit.events h (m.access h s).2 ++
        (m.follow settings limit ctx).events h t := by
  obtain ⟨hrun, hevents⟩ := run_of_live settings limit hc
  rw [hrun, hevents, hx]
  simp only [begin, run_bind_of_some hsubmit, events_bind_of_some hsubmit, proceed, run_bind_done,
    events_bind_done]
  exact ⟨trivial, by simp⟩

/-! ## What comes of a run -/

/-- Access to the cluster was refused, and no call about the object was made. -/
def Unreached (m : Manifest) (h : Handler Call Answer σ) (s : σ) (calls : List TaskEvent)
    (e : JobFault) : Prop :=
  ∃ cause, (m.access h s).1 = .error cause ∧ e = m.clusterFault cause ∧
    calls = m.opening h s ++ m.dropped cause.isClusterFailure

/-- The submission failed with this fault, and one removal followed with these calls. -/
structure Unsubmitted (m : Manifest) (h : Handler Call Answer σ) (s : σ) (calls : List TaskEvent)
    (e : JobFault) (cleanup : List TaskEvent) : Prop where
  access_eq : (m.access h s).1 = .ok ()
  fails : (m.submit.run h (m.access h s).2).1 = some (.error e)
  calls_eq : calls = m.opening h s ++ m.submit.events h (m.access h s).2 ++
    m.dropped e.isClusterFailure ++ cleanup
  removes : ∃ r, m.Removal cleanup r

/-- What comes of a run of one object. -/
structure ItemSpec (m : Manifest) (settings : ItemSettings) (limit : Option Nat) (ctx : Context)
    (h : Handler Call Answer σ) (s : σ) : Prop where
  /-- A run that is cancelled at first asks nothing of a cluster. -/
  killed : ctx.cancelled (h .now s).1 = true →
    ((m.run settings limit ctx).run h s).1 = some (.ok ⟨.killed, none⟩) ∧
      (m.run settings limit ctx).events h s = [⟨.now, (h .now s).1⟩]
  /-- A run that fails has not submitted its object. -/
  fails : ∀ e, ((m.run settings limit ctx).run h s).1 = some (.error e) →
    m.Unreached h s ((m.run settings limit ctx).events h s) e ∨
      ∃ cleanup, m.Unsubmitted h s ((m.run settings limit ctx).events h s) e cleanup
  unobserved : ∀ e, ((m.run settings limit ctx).run h s).1 = some (.error e) →
    ∀ event ∈ (m.run settings limit ctx).events h s, event.call.observes = false
  /-- Once its object is created, the outcome is that of the watch, whatever comes of the log. -/
  followed : ⟨.create m.ref m.object, .ok ()⟩ ∈ (m.run settings limit ctx).events h s →
    ∃ (before calls : List TaskEvent) (start : Nat) (source : LogSource) (outcome : Option Outcome),
      (m.run settings limit ctx).events h s =
        before ++ [⟨.now, start⟩, ⟨.follow m.ref m.container, source⟩] ++ calls ∧
      m.Followed settings limit ctx h
        (stateAfter h (before ++ [⟨.now, start⟩, ⟨.follow m.ref m.container, source⟩]) s,
          source.relaying settings.openBackoff start) calls outcome ∧
      ((m.run settings limit ctx).run h s).1 = outcome.map .ok
  /-- Only a watch can wait forever. -/
  returns : ((m.run settings limit ctx).run h s).1 = none →
    ⟨.create m.ref m.object, .ok ()⟩ ∈ (m.run settings limit ctx).events h s
  /-- After a cleanup whose calls all succeed nothing stands. -/
  clean : ∀ stands : σ → Prop, Truthful h m.ref stands → ∀ e cleanup,
    ((m.run settings limit ctx).run h s).1 = some (.error e) →
    m.Unsubmitted h s ((m.run settings limit ctx).events h s) e cleanup →
    (∀ event ∈ cleanup, fault? event = none) →
    ¬ stands ((m.run settings limit ctx).run h s).2

/-- A run is cancelled at first, is refused access, fails to submit its object, or submits it. -/
theorem run_cases (m : Manifest) (ctx : Context) (h : Handler Call Answer σ) (s : σ) :
    ctx.cancelled (h .now s).1 = true ∨ ctx.cancelled (h .now s).1 = false ∧
      ((∃ cause, (m.access h s).1 = .error cause) ∨ (m.access h s).1 = .ok () ∧
        ∃ r t, m.submit.run h (m.access h s).2 = (some r, t)) := by
  cases hc : ctx.cancelled (h .now s).1 with
  | true => exact .inl rfl
  | false =>
    refine .inr ⟨rfl, ?_⟩
    match hx : (m.access h s).1 with
    | .error cause => exact .inl ⟨cause, rfl⟩
    | .ok () => exact .inr ⟨rfl, m.submit_confined.exists_run h _⟩

theorem submissionCalls {r : Except JobFault Unit} (hr : m.submit.run h s = (some r, t)) :
    m.SubmissionCalls (m.submit.events h s) r :=
  (Submission.of_runs (runs_servedBy_iff.2 ⟨hr, rfl⟩)).spec

theorem exists_removal (m : Manifest) (h : Handler Call Answer σ) (s : σ) :
    ∃ r, m.Removal (m.stop.events h s) r := by
  obtain ⟨r, t, hr⟩ := m.stop_confined.exists_run h s
  exact ⟨r, Removal.of_runs (runs_servedBy_iff.2 ⟨hr, rfl⟩)⟩

/-- Nothing stands after a removal that succeeds, if its look is truthful and its deletion leaves
nothing behind. -/
theorem not_stands_of_runs {serves : Service Call Answer σ} {calls : List TaskEvent}
    {stands : σ → Prop}
    (hlook : ∀ s b t, serves (.exists m.ref) s (.ok b) t → (b = true ↔ stands t))
    (hdelete : ∀ s t, serves (.delete m.ref) s (.ok ()) t → ¬ stands t)
    (hr : Runs serves m.stop s calls (.ok ()) t) : ¬ stands t := by
  obtain ⟨x, s₁, h₁, hseen, hrest, rfl⟩ := runs_ask_iff.1 hr
  match x with
  | .error e =>
    obtain ⟨-, hfault, -⟩ := runs_done_iff.1 hrest
    cases hfault
  | .ok false =>
    obtain ⟨-, -, rfl⟩ := runs_done_iff.1 hrest
    simpa using (hlook _ _ _ hseen).2
  | .ok true =>
    obtain ⟨x, s₂, h₂, hdeleted, hlast, rfl⟩ := runs_ask_iff.1 hrest
    match x with
    | .error e =>
      obtain ⟨-, hfault, -⟩ := runs_done_iff.1 hlast
      cases hfault
    | .ok () =>
      obtain ⟨-, -, rfl⟩ := runs_done_iff.1 hlast
      exact hdelete _ _ hdeleted

theorem not_stands_of_stop {stands : σ → Prop} (ht : Truthful h m.ref stands)
    (hok : ∀ event ∈ m.stop.events h s, fault? event = none) : ¬ stands (m.stop.run h s).2 := by
  obtain ⟨r, t, hstop⟩ := m.stop_confined.exists_run h s
  have hr := runs_servedBy_iff.2 ⟨hstop, rfl⟩
  obtain rfl := (Removal.of_runs hr).eq_ok hok
  rw [hstop]
  refine not_stands_of_runs (fun s b t hs => ?_) (fun s t hs => ?_) hr
  · have hlook := ht.look s b
    rw [show h (.exists m.ref) s = (.ok b, t) from hs] at hlook
    exact hlook rfl
  · have hdelete := ht.delete s
    rw [show h (.delete m.ref) s = (.ok (), t) from hs] at hdelete
    exact hdelete rfl

theorem opening_quiet (m : Manifest) (h : Handler Call Answer σ) (s : σ) :
    ∀ event ∈ m.opening h s, event.call.Quiet := by
  rw [opening, List.forall_mem_cons, List.forall_mem_singleton]
  exact ⟨⟨rfl, nofun⟩, rfl, nofun⟩

theorem dropped_quiet (m : Manifest) (useless : Bool) :
    ∀ event ∈ m.dropped useless, event.call.Quiet := by
  cases useless with
  | false => exact List.forall_mem_nil _
  | true => exact List.forall_mem_singleton.2 ⟨rfl, nofun⟩

theorem Removal.quiet {cleanup : List TaskEvent} {r : Except JobFault Unit}
    (hr : m.Removal cleanup r) : ∀ event ∈ cleanup, event.call.Quiet := by
  intro event he
  rcases hr.call_eq event he with hcall | hcall <;> rw [hcall] <;> exact ⟨rfl, nofun⟩

theorem spec_of_cancelled (hc : ctx.cancelled (h .now s).1 = true) :
    m.ItemSpec settings limit ctx h s := by
  obtain ⟨hrun, hevents⟩ := run_of_cancelled settings limit hc
  have hfails : ∀ e, ((m.run settings limit ctx).run h s).1 ≠ some (.error e) := by
    rw [hrun]
    nofun
  refine ⟨fun _ => ⟨by rw [hrun]; rfl, hevents⟩, fun e he => absurd he (hfails e),
    fun e he => absurd he (hfails e), ?_, ?_, fun _ _ e _ he => absurd he (hfails e)⟩
  · rw [hevents, List.mem_singleton]
    nofun
  · rw [hrun]
    nofun

theorem quiet_of_unreached (hc : ctx.cancelled (h .now s).1 = false)
    (hx : (m.access h s).1 = .error cause) :
    ∀ event ∈ (m.run settings limit ctx).events h s, event.call.Quiet := by
  rw [(run_of_unreached settings limit hc hx).2, List.forall_mem_append]
  exact ⟨m.opening_quiet h s, m.dropped_quiet _⟩

theorem spec_of_unreached (hc : ctx.cancelled (h .now s).1 = false)
    (hx : (m.access h s).1 = .error cause) : m.ItemSpec settings limit ctx h s := by
  obtain ⟨hrun, hevents⟩ := run_of_unreached settings limit hc hx
  have hquiet := quiet_of_unreached settings limit hc hx
  refine ⟨fun hc' => absurd (hc.symm.trans hc') nofun, ?_,
    fun e _ event he => (hquiet event he).observes,
    fun he => absurd rfl ((hquiet _ he).creates _ _), ?_, ?_⟩
  · intro e he
    rw [hrun] at he
    cases he
    exact .inl ⟨cause, hx, rfl, hevents⟩
  · rw [hrun]
    nofun
  · intro _ _ e cleanup _ hu
    exact absurd (hx.symm.trans hu.access_eq) nofun

/-- An object whose submission failed was not created. -/
theorem not_created_of_unsubmitted (hc : ctx.cancelled (h .now s).1 = false)
    (hx : (m.access h s).1 = .ok ())
    (hsubmit : m.submit.run h (m.access h s).2 = (some (.error e), t)) :
    ⟨.create m.ref m.object, .ok ()⟩ ∉ (m.run settings limit ctx).events h s := by
  obtain ⟨u, -, hevents⟩ := run_of_unsubmitted settings limit hc hx hsubmit
  obtain ⟨r, hr⟩ := m.exists_removal h u
  rw [hevents]
  simp only [List.mem_append, not_or]
  refine ⟨⟨⟨?_, ?_⟩, ?_⟩, ?_⟩
  · exact fun he => (m.opening_quiet h s _ he).creates _ _ rfl
  · exact fun he => nomatch (submissionCalls hsubmit).succeeds_iff.2 he
  · exact fun he => (m.dropped_quiet _ _ he).creates _ _ rfl
  · exact fun he => (hr.quiet _ he).creates _ _ rfl

theorem spec_of_unsubmitted (hc : ctx.cancelled (h .now s).1 = false)
    (hx : (m.access h s).1 = .ok ())
    (hsubmit : m.submit.run h (m.access h s).2 = (some (.error e), t)) :
    m.ItemSpec settings limit ctx h s := by
  obtain ⟨u, hrun, hevents⟩ := run_of_unsubmitted settings limit hc hx hsubmit
  have hcalls := submissionCalls hsubmit
  obtain ⟨r, hr⟩ := m.exists_removal h u
  have hsubmission : ∀ event ∈ m.submit.events h (m.access h s).2,
      event.call.observes = false := by
    intro event he
    rcases hcalls.calls event he with hcall | hcall | hcall | hcall <;> rw [hcall] <;> rfl
  have hcreated := not_created_of_unsubmitted settings limit hc hx hsubmit
  refine ⟨fun hc' => absurd (hc.symm.trans hc') nofun, ?_, ?_, fun he => absurd he hcreated, ?_, ?_⟩
  · intro e' he
    rw [hrun] at he
    cases he
    exact .inr ⟨_, hx, congrArg Prod.fst hsubmit, hevents, r, hr⟩
  · intro _ _
    simp only [hevents, List.forall_mem_append]
    exact ⟨⟨⟨fun event he => (m.opening_quiet h s event he).observes, hsubmission⟩,
      fun event he => (m.dropped_quiet _ event he).observes⟩,
      fun event he => (hr.quiet event he).observes⟩
  · rw [hrun]
    nofun
  · intro stands htruthful e' cleanup he hu hok
    rw [hrun] at he
    cases he
    -- The calls before the cleanup are the same, so that it is the removal at the end.
    have hcleanup : cleanup = m.stop.events h u :=
      List.append_cancel_left (hu.calls_eq.symm.trans hevents)
    rw [hrun]
    exact not_stands_of_stop htruthful (hcleanup ▸ hok)

theorem created_of_submitted (hc : ctx.cancelled (h .now s).1 = false)
    (hx : (m.access h s).1 = .ok ())
    (hsubmit : m.submit.run h (m.access h s).2 = (some (.ok ()), t)) :
    ⟨.create m.ref m.object, .ok ()⟩ ∈ (m.run settings limit ctx).events h s := by
  rw [(run_of_submitted settings limit hc hx hsubmit).2]
  exact List.mem_append_left _ (List.mem_append_right _ ((submissionCalls hsubmit).succeeds_iff.1 rfl))

theorem spec_of_submitted (hc : ctx.cancelled (h .now s).1 = false)
    (hx : (m.access h s).1 = .ok ())
    (hsubmit : m.submit.run h (m.access h s).2 = (some (.ok ()), t)) :
    m.ItemSpec settings limit ctx h s := by
  obtain ⟨hrun, hevents⟩ := run_of_submitted settings limit hc hx hsubmit
  have hfails : ∀ e, ((m.run settings limit ctx).run h s).1 ≠ some (.error e) := by
    intro e he
    rw [hrun] at he
    obtain ⟨o, -, ho⟩ := Option.map_eq_some_iff.1 he
    cases ho
  refine ⟨fun hc' => absurd (hc.symm.trans hc') nofun, fun e he => absurd he (hfails e),
    fun e he => absurd he (hfails e), fun _ => ?_,
    fun _ => created_of_submitted settings limit hc hx hsubmit,
    fun _ _ e _ he => absurd he (hfails e)⟩
  obtain ⟨start, source, calls, hfollow, hfollowed⟩ := followed_follow settings limit m ctx h t
  have hstate : stateAfter h (m.opening h s ++ m.submit.events h (m.access h s).2) s = t := by
    rw [stateAfter_append]
    change stateAfter h _ (m.access h s).2 = _
    rw [stateAfter_events, hsubmit]
  refine ⟨m.opening h s ++ m.submit.events h (m.access h s).2, calls, start, source, _, ?_, ?_, hrun⟩
  · simp [hevents, hfollow]
  · rwa [stateAfter_append, hstate]

end Runs

theorem item_spec (m : Manifest) (settings : ItemSettings) (limit : Option Nat) (ctx : Context)
    {σ : Type} (h : Handler Call Answer σ) (s : σ) : m.ItemSpec settings limit ctx h s := by
  rcases m.run_cases ctx h s with hc | ⟨hc, ⟨cause, hx⟩ | ⟨hx, r, t, hsubmit⟩⟩
  · exact spec_of_cancelled settings limit hc
  · exact spec_of_unreached settings limit hc hx
  · cases r with
    | error e => exact spec_of_unsubmitted settings limit hc hx hsubmit
    | ok u => exact spec_of_submitted settings limit hc hx hsubmit

end Manifest

/-! ## A creation that fails and has its effect -/

/-- A cluster that creates what it is asked to, but reports that it did not. -/
def misreporting : Handler Call Answer Bool
  | .now, s => ((0 : Nat), s)
  | .pause _, s => ((), s)
  | .connect _ _, s => (.ok (), s)
  | .invalidate _, s => ((), s)
  | .exists _, s => (.ok s, s)
  | .create _ _, _ => (.error (.kube none "timed out"), true)
  | .delete _, _ => (.ok (), false)
  | .watch _, s => (.ok ⟨[], some 0⟩, s)
  | .follow _ _, s =>
    (⟨[], .ok ⟨[], some 0⟩, fun _ => some 0, fun _ => 1.0, fun _ => true, fun _ => true⟩, s)
  | .tail _ _ _, s => (.ok "", s)
  | .deliver _ _, s => ((), s)
  | .publish _, s => (.ok (), s)

theorem Manifest.item_of_etl :
    Manifest.etl.ItemSpec ⟨100, 0, .standard⟩ none ⟨none, fun _ => true⟩ misreporting false ∧
      Truthful misreporting Manifest.etl.ref (· = true) ∧
      (Manifest.etl.run ⟨100, 0, .standard⟩ none ⟨none, fun _ => true⟩).run misreporting false =
        (some (.error (.clusterCommunication "prod" (.kube none "timed out"))), false) := by
  refine ⟨item_spec .etl _ _ _ _ _, ⟨fun s b hb => ?_, fun _ _ => nofun⟩, rfl⟩
  cases hb
  exact Iff.rfl

end ClusterJobs
