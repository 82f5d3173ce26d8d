import ClusterJobs.Proofs.Task.OwnObjects

/-!
# Dropped clients

A run drops the cached client of its cluster at most once: if access to the cluster fails because of
the cluster, or if a call of its submission fails, for whatever reason. So a client is dropped without
need exactly if a submission fails for a reason that is not the cluster's.
-/

namespace ClusterJobs

open Program

/-- The call drops a cached client. -/
def Call.drops : Call → Bool
  | .invalidate _ => true
  | _ => false

/-- What the first of these calls that failed was answered with. -/
def faultAmong? (calls : List TaskEvent) : Option Fault :=
  calls.findSome? fault?

namespace Manifest

/-! ## What a submission fails with -/

section Results

variable {m : Manifest} {k : Nat} {calls : List TaskEvent} {r : Except JobFault Unit}

/-- The result of calls of which this one failed first, if any did. -/
def resultOf (m : Manifest) : Option Fault → Except JobFault Unit
  | none => .ok ()
  | some cause => .error (m.clusterFault cause)

theorem resultOf_eq_error_iff {cause : Option Fault} {e : JobFault} :
    m.resultOf cause = .error e ↔ ∃ f, cause = some f ∧ e = m.clusterFault f := by
  cases cause with
  | none => simp [resultOf]
  | some f => simpa [resultOf] using eq_comm

theorem Removal.result_eq (hr : m.Removal calls r) : r = m.resultOf (faultAmong? calls) := by
  cases hr <;> rfl

theorem Removal.faultAmong?_eq_none (hr : m.Removal calls (.ok ())) : faultAmong? calls = none :=
  List.findSome?_eq_none_iff.2 hr.fault?_eq_none

theorem Wait.faultAmong?_eq_none (hw : m.Wait k calls (.ok ())) : faultAmong? calls = none :=
  List.findSome?_eq_none_iff.2 hw.fault?_eq_none

theorem Wait.result_eq (hw : m.Wait k calls r) : r = m.resultOf (faultAmong? calls) := by
  induction hw with
  | lingers _ ih => exact ih
  | _ => rfl

/-- A submission fails with the first of its calls that fails. -/
theorem Submission.result_eq (hs : m.Submission calls r) :
    r = m.resultOf (faultAmong? calls) := by
  cases hs with
  | standing hr => exact hr.result_eq
  | unsettled hr hw =>
    rw [faultAmong?, List.findSome?_append, ← faultAmong?, hr.faultAmong?_eq_none]
    exact hw.result_eq
  | answered x hr hw =>
    rw [faultAmong?, List.findSome?_append, List.findSome?_append, ← faultAmong?, ← faultAmong?,
      hr.faultAmong?_eq_none, hw.faultAmong?_eq_none]
    cases x <;> rfl

end Results

/-! ## Calls that drop no client -/

section Calls

/-- None of these calls drops a client. -/
def Retains (calls : List TaskEvent) : Prop :=
  ∀ event ∈ calls, event.call.drops = false

/-- These calls drop the client of the cluster once if they drop one at all. -/
def Dropping (m : Manifest) (calls : List TaskEvent) (useless : Bool) : Prop :=
  ∃ before after, calls = before ++ m.dropped useless ++ after ∧ Retains before ∧ Retains after

variable {m : Manifest} {settings : ItemSettings} {limit : Option Nat} {ctx : Context} {σ : Type}
  {h : Handler Call Answer σ} {s : σ} {calls : List TaskEvent} {r : Except JobFault Unit}
  {useless : Bool}

theorem Retains.append {others : List TaskEvent} (hr : Retains calls) (ho : Retains others) :
    Retains (calls ++ others) :=
  List.forall_mem_append.2 ⟨hr, ho⟩

theorem retains_opening : Retains (m.opening h s) := by
  rw [Retains, opening, List.forall_mem_cons, List.forall_mem_singleton]
  exact ⟨rfl, rfl⟩

theorem Removal.retains (hr : m.Removal calls r) : Retains calls := by
  intro event he
  rcases hr.call_eq event he with hcall | hcall <;> rw [hcall] <;> rfl

theorem SubmissionCalls.retains (hs : m.SubmissionCalls calls r) : Retains calls := by
  intro event he
  rcases hs.calls event he with hcall | hcall | hcall | hcall <;> rw [hcall] <;> rfl

theorem Attends.drops_eq_false {c : Call} (hc : m.Attends c) : c.drops = false := by
  cases hc <;> rfl

theorem retains_follow : Retains ((m.follow settings limit ctx).events h s) :=
  fun event he => ((m.follow_attends settings limit ctx).events event he).drops_eq_false

theorem Retains.dropping (hr : Retains calls) : m.Dropping calls false :=
  ⟨calls, [], by simp [dropped], hr, List.forall_mem_nil _⟩

namespace Dropping

theorem mem_dropped (hd : m.Dropping calls useless) {event : TaskEvent} (he : event ∈ calls)
    (hdrops : event.call.drops = true) : event ∈ m.dropped useless := by
  obtain ⟨before, after, rfl, hbefore, hafter⟩ := hd
  simp only [List.mem_append] at he
  rcases he with (he | he) | he
  · exact absurd (hbefore event he) (by simp [hdrops])
  · exact he
  · exact absurd (hafter event he) (by simp [hdrops])

theorem target (hd : m.Dropping calls useless) :
    ∀ event ∈ calls, event.call.drops = true → event.call = .invalidate m.target := by
  intro event he hdrops
  have hmem := hd.mem_dropped he hdrops
  cases useless with
  | false => cases hmem
  | true => rw [List.mem_singleton.1 hmem]

theorem once (hd : m.Dropping calls useless) : calls.countP (·.call.drops) ≤ 1 := by
  obtain ⟨before, after, rfl, hbefore, hafter⟩ := hd
  have hnone : ∀ {l}, Retains l → l.countP (·.call.drops) = 0 := fun hl =>
    List.countP_eq_zero.2 fun event he => by simp [hl event he]
  rw [List.countP_append, List.countP_append, hnone hbefore, hnone hafter]
  cases useless <;> simp [dropped, Call.drops]

theorem drops_iff (hd : m.Dropping calls useless) :
    (∃ event ∈ calls, event.call.drops = true) ↔ useless = true := by
  constructor
  · rintro ⟨event, he, hdrops⟩
    have hmem := hd.mem_dropped he hdrops
    cases useless with
    | false => cases hmem
    | true => rfl
  · rintro rfl
    obtain ⟨before, after, rfl, -, -⟩ := hd
    exact ⟨⟨.invalidate m.target, ()⟩, by simp [dropped], rfl⟩

end Dropping

end Calls

/-! ## What a run drops -/

section Runs

variable (m : Manifest) (settings : ItemSettings) (limit : Option Nat) (ctx : Context)
  {σ : Type} (h : Handler Call Answer σ) (s : σ)

/-- What the first call of the submission that failed was answered with. -/
def submissionFault? : Option Fault :=
  faultAmong? (m.submit.events h (m.access h s).2)

/-- What keeps a run from submitting its object: access to the cluster, or else a call of the
submission, failed with this. -/
def obstacle? : Option Fault :=
  match (m.access h s).1 with
  | .error cause => some cause
  | .ok () => m.submissionFault? h s

/-- A run takes the client of its cluster for useless. -/
def distrusts : Bool :=
  !ctx.cancelled (h .now s).1 &&
    match (m.access h s).1 with
    | .error cause => cause.isClusterFailure
    | .ok () => (m.submissionFault? h s).isSome

/-- A run drops a client. -/
def Drops : Prop :=
  ∃ event ∈ (m.run settings limit ctx).events h s, event.call.drops = true

/-- A run drops a client exactly if its obstacle is a failure of the cluster. -/
def DropsForFailures : Prop :=
  m.Drops settings limit ctx h s ↔ ctx.cancelled (h .now s).1 = false ∧
    ∃ cause, m.obstacle? h s = some cause ∧ cause.isClusterFailure = true

/-- What a run does to the cached client of its cluster. -/
structure DropSpec : Prop where
  target : ∀ event ∈ (m.run settings limit ctx).events h s, event.call.drops = true →
    event.call = .invalidate m.target
  once : ((m.run settings limit ctx).events h s).countP (·.call.drops) ≤ 1
  cancelled : ctx.cancelled (h .now s).1 = true → ¬ m.Drops settings limit ctx h s
  /-- A run fails with its obstacle, if there is one. -/
  fails : ctx.cancelled (h .now s).1 = false → ∀ e,
    ((m.run settings limit ctx).run h s).1 = some (.error e) ↔
      ∃ cause, m.obstacle? h s = some cause ∧ e = m.clusterFault cause
  unreached : ctx.cancelled (h .now s).1 = false → ∀ cause, (m.access h s).1 = .error cause →
    (m.Drops settings limit ctx h s ↔ cause.isClusterFailure = true)
  /-- A submission that fails costs the client, whatever it failed with. -/
  unsubmitted : ctx.cancelled (h .now s).1 = false → (m.access h s).1 = .ok () →
    (m.Drops settings limit ctx h s ↔ ∃ cause, m.submissionFault? h s = some cause)
  exact_iff : m.DropsForFailures settings limit ctx h s ↔
    ¬ (ctx.cancelled (h .now s).1 = false ∧ (m.access h s).1 = .ok () ∧
      ∃ cause, m.submissionFault? h s = some cause ∧ cause.isClusterFailure = false)

variable {m ctx h s} {cause : Fault} {r : Except JobFault Unit} {t : σ}

theorem result_of_submit (hsubmit : m.submit.run h (m.access h s).2 = (some r, t)) :
    r = m.resultOf (m.submissionFault? h s) :=
  (Submission.of_runs (runs_servedBy_iff.2 ⟨hsubmit, rfl⟩)).result_eq

theorem dropping_of_live (hc : ctx.cancelled (h .now s).1 = false) (hx : (m.access h s).1 = .ok ())
    (hsubmit : m.submit.run h (m.access h s).2 = (some r, t)) :
    m.Dropping ((m.run settings limit ctx).events h s) (m.submissionFault? h s).isSome := by
  have hsubmission := (submissionCalls hsubmit).retains
  have hr := result_of_submit hsubmit
  cases hfault : m.submissionFault? h s with
  | none =>
    obtain rfl : r = .ok () := by rw [hr, hfault]; rfl
    obtain ⟨-, hevents⟩ := run_of_live settings limit hc
    rw [hevents, hx]
    simp only [begin, events_bind_of_some hsubmit, proceed, events_bind_done]
    exact (retains_opening.append (hsubmission.append retains_follow)).dropping
  | some cause =>
    obtain rfl : r = .error (m.clusterFault cause) := by rw [hr, hfault]; rfl
    obtain ⟨u, -, hevents⟩ := run_of_unsubmitted settings limit hc hx hsubmit
    obtain ⟨_, hremoval⟩ := m.exists_removal h u
    exact ⟨_, _, hevents, retains_opening.append hsubmission, hremoval.retains⟩

theorem dropping_run (m : Manifest) (ctx : Context) (h : Handler Call Answer σ) (s : σ) :
    m.Dropping ((m.run settings limit ctx).events h s) (m.distrusts ctx h s) := by
  rcases m.run_cases ctx h s with hc | ⟨hc, ⟨cause, hx⟩ | ⟨hx, r, t, hsubmit⟩⟩
  · simp only [distrusts, hc, (run_of_cancelled settings limit hc).2]
    exact Retains.dropping (List.forall_mem_singleton.2 rfl)
  · simp only [distrusts, hc, hx, (run_of_unreached settings limit hc hx).2]
    exact ⟨_, [], (List.append_nil _).symm, retains_opening, List.forall_mem_nil _⟩
  · simp only [distrusts, hc, hx]
    exact dropping_of_live settings limit hc hx hsubmit

theorem drops_iff : m.Drops settings limit ctx h s ↔ m.distrusts ctx h s = true :=
  (dropping_run settings limit m ctx h s).drops_iff

theorem run_eq_error_iff (hc : ctx.cancelled (h .now s).1 = false) (e : JobFault) :
    ((m.run settings limit ctx).run h s).1 = some (.error e) ↔
      ∃ cause, m.obstacle? h s = some cause ∧ e = m.clusterFault cause := by
  rcases m.run_cases ctx h s with hc' | ⟨-, ⟨cause, hx⟩ | ⟨hx, r, t, hsubmit⟩⟩
  · exact absurd (hc.symm.trans hc') nofun
  · rw [(run_of_unreached settings limit hc hx).1]
    simp [obstacle?, hx, eq_comm]
  · have hr := result_of_submit hsubmit
    simp only [obstacle?, hx, ← resultOf_eq_error_iff, ← hr]
    cases r with
    | error e' =>
      obtain ⟨u, hrun, -⟩ := run_of_unsubmitted settings limit hc hx hsubmit
      simp [hrun]
    | ok u =>
      obtain ⟨hrun, -⟩ := run_of_submitted settings limit hc hx hsubmit
      simp [hrun]

theorem dropsForFailures_iff : m.DropsForFailures settings limit ctx h s ↔
    ¬ (ctx.cancelled (h .now s).1 = false ∧ (m.access h s).1 = .ok () ∧
      ∃ cause, m.submissionFault? h s = some cause ∧ cause.isClusterFailure = false) := by
  rw [DropsForFailures, drops_iff, distrusts, obstacle?]
  cases ctx.cancelled (h .now s).1 with
  | true => simp
  | false =>
    match (m.access h s).1 with
    | .error cause => simp
    | .ok () => cases m.submissionFault? h s <;> simp

end Runs

theorem drop_spec (m : Manifest) (settings : ItemSettings) (limit : Option Nat) (ctx : Context)
    {σ : Type} (h : Handler Call Answer σ) (s : σ) : m.DropSpec settings limit ctx h s := by
  have hd := dropping_run settings limit m ctx h s
  refine ⟨hd.target, hd.once, fun hc => ?_, run_eq_error_iff settings limit, fun hc cause hx => ?_,
    fun hc hx => ?_, dropsForFailures_iff settings limit⟩
  · simp [drops_iff, distrusts, hc]
  · simp [drops_iff, distrusts, hc, hx]
  · simp [drops_iff, distrusts, hc, hx, Option.isSome_iff_exists]

/-- A cluster that refuses to create anything, for this reason. -/
def refusing (cause : Fault) : Handler Call Answer Bool
  | .create _ _, s => (.error cause, s)
  | c, s => misreporting c s

/-- An object that is refused as invalid costs the client of its cluster. -/
theorem drops_invalid_etl :
    Manifest.etl.obstacle? (refusing (.validation "bad")) false = some (.validation "bad") ∧
      Manifest.etl.Drops ⟨100, 0, .standard⟩ none ⟨none, fun _ => true⟩
        (refusing (.validation "bad")) false ∧
      ¬ Manifest.etl.DropsForFailures ⟨100, 0, .standard⟩ none ⟨none, fun _ => true⟩
        (refusing (.validation "bad")) false := by
  have hfault : Manifest.etl.submissionFault? (refusing (.validation "bad")) false =
      some (.validation "bad") := rfl
  refine ⟨rfl, (drops_iff ..).2 rfl, fun hd => ?_⟩
  exact (dropsForFailures_iff ..).1 hd ⟨rfl, rfl, _, hfault, rfl⟩

end Manifest

end ClusterJobs
