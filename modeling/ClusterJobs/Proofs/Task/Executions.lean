import ClusterJobs.Proofs.Manifest.Compiled
import ClusterJobs.Proofs.Task.Discarded
import ClusterJobs.Proofs.Task.FanOuts
import ClusterJobs.Proofs.Task.OwnObjects

/-!
# Executions of a request

A request is executed by its one job, or by the items of its fan-out in any order and then its
conclusion. However far an execution has got and whatever it was answered, its calls are about the
objects that the request compiles to, so it keeps what such calls keep. The engine's own run is an
execution, unless the request does not compile. Then it asks nothing of anyone.
-/

namespace ClusterJobs

open Program

/-! ## Turns of programs with allowed calls -/

namespace Pool

variable {α σ : Type} {serves : Service Call Answer σ} {idles : σ → σ → Prop} {slots : Nat}
  {p p' : Pool α} {s t : σ} {h : List (Nat × TaskEvent)} {allows : Call → Prop} {may : Prop}
  {holds : σ → Prop}

theorem programs_start (slots now : Nat) (l : List (TaskProgram α)) :
    (start slots now l).programs = l := by
  have hplaced : ∀ i, (placed i l).map Prod.snd = l := by
    intro i
    induction l generalizing i with
    | nil => rfl
    | cons q l ih => simp [placed, ih]
  unfold programs start
  rw [List.map_map]
  change ((placed 0 l).take slots).map Prod.snd ++ ((placed 0 l).drop slots).map Prod.snd = l
  rw [← List.map_append, List.take_append_drop, hplaced]

/-- A turn makes a call that is allowed, and what is left may make allowed calls only. -/
theorem Turn.only (ht : Turn serves idles slots p s h p' t)
    (hp : ∀ q ∈ p.programs, q.Confined allows may) :
    (∀ e ∈ h, allows e.2.call) ∧ ∀ q ∈ p'.programs, q.Confined allows may := by
  unfold programs at hp ⊢
  rw [List.forall_mem_append] at hp
  obtain ⟨hrunning, hpending⟩ := hp
  cases ht with
  | wait _ => exact ⟨List.forall_mem_nil _, List.forall_mem_append.2 ⟨hrunning, hpending⟩⟩
  | reorder _ hl =>
    refine ⟨List.forall_mem_nil _, List.forall_mem_append.2 ⟨fun q hq => ?_, hpending⟩⟩
    exact hrunning q ((hl.map Waiting.program).symm.subset hq)
  | call wake' hw hs =>
    rw [hw, List.map_cons, List.forall_mem_cons] at hrunning
    obtain ⟨hfirst, hrest⟩ := hrunning
    cases hfirst with
    | ask hc hnext =>
      refine ⟨List.forall_mem_singleton.2 hc, List.forall_mem_append.2 ⟨?_, hpending⟩⟩
      exact List.forall_mem_cons.2 ⟨hnext _, hrest⟩
  | finish _ hw =>
    rw [hw, List.map_cons, List.forall_mem_cons] at hrunning
    exact ⟨List.forall_mem_nil _, List.forall_mem_append.2 ⟨hrunning.2, hpending⟩⟩
  | start _ wake hw _ =>
    rw [hw, List.map_cons, List.forall_mem_cons] at hpending
    refine ⟨List.forall_mem_nil _, List.forall_mem_append.2 ⟨?_, hpending.2⟩⟩
    exact List.forall_mem_cons.2 ⟨hpending.1, hrunning⟩

theorem Turns.only (ht : Turns serves idles slots p s h p' t)
    (hp : ∀ q ∈ p.programs, q.Confined allows may) : ∀ e ∈ h, allows e.2.call := by
  induction ht with
  | refl p s => exact List.forall_mem_nil _
  | cons hturn _ ih =>
    obtain ⟨hcalls, hleft⟩ := hturn.only hp
    exact List.forall_mem_append.2 ⟨hcalls, ih hleft⟩

theorem Turn.keeps (hkeep : Keeps serves allows holds) (hidle : ∀ s t, idles s t → holds s → holds t)
    (ht : Turn serves idles slots p s h p' t) (hcalls : ∀ e ∈ h, allows e.2.call) (hs : holds s) :
    holds t := by
  cases ht with
  | wait hwait => exact hidle s t hwait hs
  | call _ _ hserves => exact hkeep _ _ _ _ hserves (hcalls _ (.head _)) hs
  | reorder _ _ | finish _ _ | start _ _ _ _ => exact hs

theorem Turns.keeps (hkeep : Keeps serves allows holds)
    (hidle : ∀ s t, idles s t → holds s → holds t) (ht : Turns serves idles slots p s h p' t)
    (hcalls : ∀ e ∈ h, allows e.2.call) (hs : holds s) : holds t := by
  induction ht with
  | refl p s => exact hs
  | cons hturn _ ih =>
    obtain ⟨hfirst, hrest⟩ := List.forall_mem_append.1 hcalls
    exact ih hrest (hturn.keeps hkeep hidle hfirst hs)

end Pool

/-! ## Executions -/

namespace Engine

variable {σ : Type}

/-- The calls of a request so far: of its one job, or of its items in any order and then of the
conclusion of its fan-out. -/
inductive Executes (e : Engine) (r : Request) (ms : List Manifest) (ctx : Context)
    (serves : Service Call Answer σ) (idles : σ → σ → Prop) (s : σ) : List TaskEvent → σ → Prop where
  | alone {m : Manifest} {calls : List TaskEvent} {q : TaskProgram (Except JobFault Outcome)}
      {t : σ} : r.multiple = false → ms = [m] →
      Reaches serves (m.run e.items (limit? r) ctx) s calls q t →
      Executes e r ms ctx serves idles s calls t
  | items {now : Nat} {items : List (Nat × TaskEvent)} {p : Pool (Except JobFault Outcome)} {t : σ} :
      r.multiple = true →
      Pool.Turns serves idles e.slots (e.pool (r.fanOut ms) ctx now) s items p t →
      Executes e r ms ctx serves idles s (items.map Prod.snd) t
  | concluding {now : Nat} {items : List (Nat × TaskEvent)} {p : Pool (Except JobFault Outcome)}
      {u t : σ} {results : List (Except JobFault Outcome)} {last : List TaskEvent}
      {q : TaskProgram (Except JobFault Outcome)} : r.multiple = true →
      Pool.Turns serves idles e.slots (e.pool (r.fanOut ms) ctx now) s items p u →
      p.running = [] → p.pending = [] → Pool.inOrder ms.length p.finished = some results →
      Reaches serves ((r.fanOut ms).conclude e.policy ctx results) u last q t →
      Executes e r ms ctx serves idles s (items.map Prod.snd ++ last) t

section Executes

variable {e : Engine} {r : Request} {ms : List Manifest} {ctx : Context}
  {serves : Service Call Answer σ} {idles : σ → σ → Prop} {s t : σ} {calls : List TaskEvent}
  {holds : σ → Prop}

theorem pool_among (e : Engine) (f : FanOut) (ctx : Context) (now : Nat) :
    ∀ q ∈ (e.pool f ctx now).programs, q.Confined (Call.Among f.manifests)
      (f.limit = none ∧ ctx.firesAt = none) := by
  rw [pool, Pool.programs_start]
  intro q hq
  obtain ⟨m, hm, rfl⟩ := List.mem_map.1 hq
  exact (m.item_confined e.items f.limit ctx).mono fun c hc => hc.among hm

theorem Executes.among (hx : e.Executes r ms ctx serves idles s calls t) :
    ∀ event ∈ calls, event.call.Among ms := by
  cases hx with
  | alone _ hms hr =>
    subst hms
    intro event he
    exact (((Manifest.run_confined _ _ _ _).reaches hr).1 event he).among (List.mem_singleton_self _)
  | items _ hturns => exact List.forall_mem_map.2 (hturns.only (e.pool_among (r.fanOut ms) ctx _))
  | concluding _ hturns _ _ _ hr =>
    rw [List.forall_mem_append, List.forall_mem_map]
    have hlast := (conclude_among ms (r.fanOut ms) e.policy ctx _).reaches hr
    exact ⟨hturns.only (e.pool_among (r.fanOut ms) ctx _), hlast.1⟩

/-- What calls about the objects of a request keep, an execution of the request keeps. -/
theorem Executes.keeps (hkeep : Keeps serves (Call.Among ms) holds)
    (hidle : ∀ s t, idles s t → holds s → holds t)
    (hx : e.Executes r ms ctx serves idles s calls t) (hs : holds s) : holds t := by
  have hcalls := hx.among
  cases hx with
  | alone _ _ hr => exact hr.keeps hkeep hcalls hs
  | items _ hturns =>
    rw [List.forall_mem_map] at hcalls
    exact hturns.keeps hkeep hidle hcalls hs
  | concluding _ hturns _ _ _ hr =>
    rw [List.forall_mem_append, List.forall_mem_map] at hcalls
    exact hr.keeps hkeep hcalls.2 (hturns.keeps hkeep hidle hcalls.1 hs)

theorem run_of_fanned (hcompile : e.compiler.compileAll r = .ok ms) (hmany : r.multiple = true)
    (ctx : Context) (h : Handler Call Answer (Timed σ)) (s : Timed σ) :
    e.run h r ctx s = e.runFanOut h (r.fanOut ms) ctx s := by
  simp only [Engine.run, if_pos hmany, hcompile]
  rfl

/-- The engine's own run is an execution, whether it has a result or waits forever. -/
theorem exists_executes (hcompile : e.compiler.compileAll r = .ok ms) (ctx : Context)
    (h : Handler Call Answer (Timed σ)) (s : Timed σ) :
    ∃ calls, e.Executes r ms ctx (slotted h) Later s calls (e.run h r ctx s).2 := by
  have hserved (c : Call) (s : Timed σ) (x : Answer c) (t : Timed σ) (hs : servedBy h c s x t) :
      slotted h c s x t := .inr hs
  cases hmultiple : r.multiple with
  | false =>
    rw [Compiler.compileAll, if_neg (ne_true_of_eq_false hmultiple)] at hcompile
    obtain ⟨m, hm, rfl⟩ := map_eq_ok_iff.1 hcompile
    obtain ⟨q, hr⟩ := reaches_run h (m.run e.items (limit? r) ctx) s
    rw [Engine.run, if_neg (ne_true_of_eq_false hmultiple), hm]
    exact ⟨_, .alone hmultiple rfl (hr.mono hserved)⟩
  | true =>
    rw [run_of_fanned hcompile hmultiple]
    obtain ⟨items, p, t, hpool, -, hturns⟩ := exists_turns e (r.fanOut ms) ctx h s
    cases hresults : Pool.inOrder ms.length p.finished with
    | none =>
      rw [runFanOut_of_none hpool hresults]
      exact ⟨_, .items hmultiple hturns⟩
    | some results =>
      rw [runFanOut_of_some hpool hresults]
      obtain ⟨hrunning, hpending⟩ :=
        (tracks_of_turns hturns).all_ended (by rwa [List.length_map])
      obtain ⟨q, hr⟩ := reaches_run h ((r.fanOut ms).conclude e.policy ctx results) t
      exact ⟨_, .concluding hmultiple hturns hrunning hpending hresults (hr.mono hserved)⟩

end Executes

/-! ## Runs -/

section Run

variable {h : Handler Call Answer (Timed σ)} {e : Engine} {r : Request} {ctx : Context}
  {s : Timed σ} {fault : JobFault}

/-- Nothing is asked of anyone before every job is compiled. -/
theorem run_of_fault (hfault : e.compiler.compileAll r = .error fault) :
    e.run h r ctx s = (some (.error fault), s) := by
  unfold Engine.run
  cases hmultiple : r.multiple with
  | true =>
    simp only [if_true, hfault]
  | false =>
    rw [Compiler.compileAll, hmultiple, if_neg (by simp)] at hfault
    cases hm : e.compiler.compile r none with
    | error fault' =>
      rw [hm] at hfault
      cases hfault
      rfl
    | ok m =>
      rw [hm] at hfault
      cases hfault

theorem calls_of_fault (hfault : e.compiler.compileAll r = .error fault) :
    e.calls h r ctx s = [] := by
  rw [Engine.calls, run_of_fault hfault]

/-- What calls about the objects of a request keep, a run of the request keeps. -/
theorem keeps_run {holds : Timed σ → Prop} (hlast : Lasting holds)
    (hkeep : ∀ ms, e.compiler.compileAll r = .ok ms →
      ∀ c s, Call.Among ms c → holds s → holds (h c s).2)
    (hs : holds s) : holds (e.run h r ctx s).2 := by
  cases hcompile : e.compiler.compileAll r with
  | error fault => rwa [run_of_fault hcompile]
  | ok ms =>
    obtain ⟨calls, hx⟩ := exists_executes hcompile ctx h s
    refine hx.keeps ?_ ?_ hs
    · rintro c s x t (⟨-, rfl⟩ | hanswer) hc hs
      · exact hs
      · have ht := hkeep ms hcompile c s hc hs
        rwa [hanswer] at ht
    · rintro s ⟨now, state⟩ ⟨rfl, hle⟩ hs
      exact hlast s now hs hle

/-- Every call of a run is about the objects that the request compiles to. -/
theorem calls_among {c : Call} (hc : c ∈ e.calls h r ctx s) :
    ∃ ms, e.compiler.compileAll r = .ok ms ∧ c.Among ms := by
  let keeps (t : Timed (σ × List Call)) : Prop :=
    ∀ c ∈ t.state.2, ∃ ms, e.compiler.compileAll r = .ok ms ∧ c.Among ms
  have hlast : Lasting keeps := fun _ _ hs _ => hs
  have hkeep (ms : List Manifest) (hms : e.compiler.compileAll r = .ok ms) (c : Call)
      (t : Timed (σ × List Call)) (hc : c.Among ms) (ht : keeps t) : keeps (logged h c t).2 :=
    List.forall_mem_cons.2 ⟨⟨ms, hms, hc⟩, ht⟩
  have hrun : keeps (e.run (logged h) r ctx ⟨s.now, s.state, []⟩).2 :=
    keeps_run hlast hkeep (List.forall_mem_nil _)
  exact hrun c hc

end Run

end Engine

end ClusterJobs
