import ClusterJobs.Proofs.Task.Items
import ClusterJobs.Proofs.Task.Watching
import ClusterJobs.Task.Engine

/-!
# Objects that a request touches

A request is run and cancelled through the programs of its manifests. Every call of such a program about
an object is about the object of a manifest, and what is created is what was compiled, whatever is
answered.
-/

namespace ClusterJobs

open Program

/-! ## Programs of a manifest -/

namespace Manifest

variable {may : Prop} (m : Manifest) (settings : ItemSettings) (limit : Option Nat) (ctx : Context)

/-- A watch waits forever only if it has no limit and the token never fires. -/
theorem watch_confined {allows : Call → Prop} (hnow : allows .now)
    (hpause : ∀ ms, allows (.pause ms)) (hwatch : allows (.watch m.ref))
    (htail : ∀ lines, allows (.tail m.ref m.container lines)) (tailLines : Int) :
    (m.watch tailLines limit ctx).Confined allows (limit = none ∧ ctx.firesAt = none) := by
  rw [watch_eq]
  refine .ask hnow fun start => .ask hwatch fun x => ?_
  cases hend : waitEnd ctx (m.decidedBy start x) start limit with
  | none =>
    simp only [waitEnd, earlier_eq_none_iff, Option.map_eq_none_iff] at hend
    exact .never ⟨hend.2, hend.1.2⟩
  | some ended =>
    refine .ask (hpause _) fun _ => ?_
    unfold report
    split
    · exact .done _
    · cases ended.2 with
      | succeeded => exact .done _
      | failed reason => exact .ask (htail tailLines) fun _ => .done _

theorem follow_attends : (m.follow settings limit ctx).Confined m.Attends
    (limit = none ∧ ctx.firesAt = none) := by
  rw [follow_steps]
  refine .ask .now fun start => .ask .follow fun source => ?_
  refine (alongside_confined .pause .deliver
    (m.watch_confined limit ctx .now .pause .watch .tail settings.tailLines)).bind fun p => ?_
  exact (m.join_attends settings source start p.2).bind fun _ => .done p.1

theorem dropIf_confined (useless : Bool) : (m.dropIf useless).Confined m.Makes may := by
  cases useless with
  | false => exact .done ()
  | true => exact .ask .invalidate .done

theorem run_confined : (m.run settings limit ctx).Confined m.Makes
    (limit = none ∧ ctx.firesAt = none) := by
  rw [run_steps]
  refine .ask (.attends .now) fun start => ?_
  split
  · exact .done _
  · refine .ask .connect fun x => ?_
    match x with
    | .error cause => exact (m.dropIf_confined _).bind fun _ => .done _
    | .ok () =>
      refine m.submit_confined.bind fun r => ?_
      match r with
      | .error e =>
        exact (m.dropIf_confined _).bind fun _ => m.stop_confined.bind fun _ => .done _
      | .ok () =>
        exact ((m.follow_attends settings limit ctx).mono fun _ => .attends).bind fun _ => .done _

theorem item_confined : (FanOut.item settings limit ctx m).Confined m.Makes
    (limit = none ∧ ctx.firesAt = none) := by
  refine .ask (.attends .now) fun start => ?_
  change Confined _ _ (if ctx.fired start then _ else _)
  split
  · exact .done _
  · exact m.run_confined settings limit ctx

theorem cancel_confined : m.cancel.Confined m.Makes False := by
  change (m.connect.bind _).Confined m.Makes False
  rw [connect_steps]
  refine .ask .connect fun x => ?_
  match x with
  | .error cause =>
    rw [bind_assoc]
    exact (m.dropIf_confined _).bind fun _ => .done _
  | .ok () => exact m.stop_confined

end Manifest

/-! ## Objects of calls -/

/-- The object that a call is about. -/
def Call.object? : Call → Option ObjectRef
  | .exists o | .create o _ | .delete o | .watch o | .follow o _ | .tail o _ _ => some o
  | .now | .pause _ | .connect _ _ | .invalidate _ | .deliver _ _ | .publish _ => none

/-- A call about an object is about that of a manifest, and creates it as compiled. -/
def Call.Among (ms : List Manifest) (c : Call) : Prop :=
  ∀ o, c.object? = some o → ∃ m ∈ ms, o = m.ref ∧ ∀ body, c = .create o body → body = m.object

theorem Manifest.Makes.among {m : Manifest} {ms : List Manifest} {c : Call} (hc : m.Makes c)
    (hm : m ∈ ms) : c.Among ms := by
  intro o ho
  cases hc with
  | attends hc => cases hc <;> cases ho <;> exact ⟨m, hm, rfl, nofun⟩
  | connect | invalidate => cases ho
  | look | delete =>
    cases ho
    exact ⟨m, hm, rfl, nofun⟩
  | create =>
    cases ho
    refine ⟨m, hm, rfl, ?_⟩
    rintro body ⟨⟩
    rfl

theorem conclude_among (ms : List Manifest) (f : FanOut) (policy : FanOutPolicy) (ctx : Context)
    (results : List (Except JobFault Outcome)) :
    (f.conclude policy ctx results).Confined (Call.Among ms) False := by
  refine .ask nofun fun _ => ?_
  cases FanOut.firstFault? results with
  | some e => exact .done _
  | none =>
    refine .ask nofun fun ended => ?_
    change Confined _ _ (if ctx.fired ended then _ else _)
    split <;> exact .done _

theorem cancelAll_among {ms l : List Manifest} (hl : ∀ m ∈ l, m ∈ ms) :
    (Engine.cancelAll l).Confined (Call.Among ms) False := by
  induction l with
  | nil => exact .done _
  | cons m l ih =>
    obtain ⟨hm, hl⟩ := List.forall_mem_cons.1 hl
    have hfirst : m.cancel.Confined (Call.Among ms) False :=
      m.cancel_confined.mono fun c hc => hc.among hm
    exact hfirst.bind fun first => (ih hl).bind fun others => .done _

theorem Engine.cancel_among {e : Engine} {r : Request} {ms : List Manifest}
    (hcompile : e.compiler.compileAll r = .ok ms) : (e.cancel r).Confined (Call.Among ms) False := by
  rw [Engine.cancel, hcompile]
  exact cancelAll_among fun _ hm => hm

end ClusterJobs
