import Mathlib.Data.List.TakeWhile
import ClusterJobs.Proofs.Safety
import ClusterJobs.Proofs.Task.Submission
import ClusterJobs.Task.Relay

/-!
# Programs alongside a relay

A program that runs alongside a relay makes its own calls, save that lines are handed on in its pauses,
which last as long as they would without. Nothing that is handed on changes its result.
-/

namespace ClusterJobs

open Program

variable {α σ : Type}

/-! ## Calls of a relay -/

/-- The calls that hand lines over, each at its time, from the time `clock` on. -/
def handCalls (job : String) : Nat → List (Nat × String) → List TaskEvent
  | _, [] => []
  | clock, (t, line) :: rest =>
    ⟨.pause (t - clock), ()⟩ :: ⟨.deliver job line, ()⟩ :: handCalls job (max clock t) rest

/-- The time of the last of these lines, from the time `clock` on. -/
def lastTime : Nat → List (Nat × String) → Nat
  | clock, [] => clock
  | clock, (t, _) :: rest => lastTime (max clock t) rest

/-- The calls by which a relay waits until a time. -/
def Relaying.waitCalls (job : String) (r : Relaying) (wake : Nat) : List TaskEvent :=
  handCalls job r.clock (r.due wake) ++ [⟨.pause (wake - lastTime r.clock (r.due wake)), ()⟩]

/-- What becomes of the calls that a program makes beside a relay, and of the relay. -/
inductive Alongside (job : String) : Relaying → List TaskEvent → List TaskEvent → Relaying → Prop where
  | nil (r : Relaying) : Alongside job r [] [] r
  /-- Lines are handed on in the pauses. -/
  | pause {r r' : Relaying} {ms : Nat} {own calls : List TaskEvent} :
      Alongside job (r.after (r.clock + ms)) own calls r' →
      Alongside job r (⟨.pause ms, ()⟩ :: own) (r.waitCalls job (r.clock + ms) ++ calls) r'
  | now {r r' : Relaying} {t : Nat} {own calls : List TaskEvent} :
      Alongside job (r.tell t) own calls r' →
      Alongside job r (⟨.now, t⟩ :: own) (⟨.now, t⟩ :: calls) r'
  | call {r r' : Relaying} {e : TaskEvent} {own calls : List TaskEvent} :
      (∀ ms, e.call ≠ .pause ms) → e.call ≠ .now → Alongside job r own calls r' →
      Alongside job r (e :: own) (e :: calls) r'

section Relay

variable {job : String} {h : Handler Call Answer σ} {r r' : Relaying} {s t : σ} {clock wake : Nat}
  {lines : List (Nat × String)}

theorem run_handOn (job : String) (h : Handler Call Answer σ) (clock : Nat)
    (lines : List (Nat × String)) (s : σ) :
    (handOn job clock lines).run h s =
        (some (lastTime clock lines), stateAfter h (handCalls job clock lines) s) ∧
      (handOn job clock lines).events h s = handCalls job clock lines := by
  induction lines generalizing clock s with
  | nil => exact ⟨rfl, rfl⟩
  | cons line lines ih =>
    obtain ⟨hrun, hevents⟩ := ih (max clock line.1)
      (h (.deliver job line.2) (h (.pause (line.1 - clock)) s).2).2
    exact ⟨hrun, congrArg (_ :: _ :: ·) hevents⟩

theorem run_waitUntil (job : String) (h : Handler Call Answer σ) (r : Relaying) (wake : Nat) (s : σ) :
    (r.waitUntil job wake).run h s = (some (), stateAfter h (r.waitCalls job wake) s) ∧
      (r.waitUntil job wake).events h s = r.waitCalls job wake := by
  obtain ⟨hrun, hevents⟩ := run_handOn job h r.clock (r.due wake) s
  constructor
  · rw [Relaying.waitCalls, stateAfter_append]
    exact run_bind_of_some hrun _
  · exact (events_bind_of_some hrun _).trans (congrArg (· ++ _) hevents)

end Relay

/-! ## Answers beside a relay -/

/-- The answers that a program gets beside a relay. -/
def beside (job : String) (h : Handler Call Answer σ) : Handler Call Answer (σ × Relaying)
  | .pause ms, w => ((), stateAfter h (w.2.waitCalls job (w.2.clock + ms)) w.1,
      w.2.after (w.2.clock + ms))
  | .now, w => ((h .now w.1).1, (h .now w.1).2, w.2.tell (h .now w.1).1)
  | c, w => ((h c w.1).1, (h c w.1).2, w.2)

section Beside

variable {job : String} {h : Handler Call Answer σ} {r r' : Relaying} {s t : σ} {p : TaskProgram α}
  {a : α}

/-- A program alongside a relay comes to the result that it comes to beside it, and its calls are those
made beside it, with lines handed on in the pauses. -/
theorem run_alongside (hp : p.run (beside job h) (s, r) = (some a, t, r')) :
    (alongside job p r).run h s = (some (a, r'), t) ∧
      Alongside job r (p.events (beside job h) (s, r)) ((alongside job p r).events h s) r' := by
  induction p generalizing s r with
  | done b =>
    cases hp
    exact ⟨rfl, .nil r'⟩
  | never => cases hp
  | ask c next ih =>
    cases c with
    | pause ms =>
      obtain ⟨hrun, hcalls⟩ := ih () hp
      obtain ⟨hwait, hevents⟩ := run_waitUntil job h r (r.clock + ms) s
      refine ⟨(run_bind_of_some hwait _).trans hrun, ?_⟩
      rw [show (alongside job (.ask (.pause ms) next) r).events h s = _ from
        events_bind_of_some hwait _, hevents]
      exact .pause hcalls
    | now =>
      obtain ⟨hrun, hcalls⟩ := ih _ hp
      exact ⟨hrun, .now hcalls⟩
    | _ =>
      obtain ⟨hrun, hcalls⟩ := ih _ hp
      exact ⟨hrun, .call nofun nofun hcalls⟩

/-- If the program waits forever, the lines to come are handed on. -/
theorem run_alongside_never (hp : p.run (beside job h) (s, r) = (none, t, r')) :
    (alongside job p r).run h s =
        (none, stateAfter h (handCalls job r'.clock r'.coming) t) ∧
      ∃ calls, (alongside job p r).events h s = calls ++ handCalls job r'.clock r'.coming ∧
        Alongside job r (p.events (beside job h) (s, r)) calls r' := by
  induction p generalizing s r with
  | done b => cases hp
  | never =>
    cases hp
    obtain ⟨hrun, hevents⟩ := run_handOn job h r'.clock r'.coming t
    refine ⟨run_bind_of_some hrun _, [], ?_, .nil r'⟩
    exact (events_bind_of_some hrun _).trans ((List.append_nil _).trans hevents)
  | ask c next ih =>
    cases c with
    | pause ms =>
      obtain ⟨hrun, calls, hafter, hcalls⟩ := ih () hp
      obtain ⟨hwait, hevents⟩ := run_waitUntil job h r (r.clock + ms) s
      refine ⟨(run_bind_of_some hwait _).trans hrun, _, ?_, .pause hcalls⟩
      rw [show (alongside job (.ask (.pause ms) next) r).events h s = _ from
        events_bind_of_some hwait _, hevents, List.append_assoc]
      exact congrArg _ hafter
    | now =>
      obtain ⟨hrun, calls, hafter, hcalls⟩ := ih _ hp
      exact ⟨hrun, _, congrArg _ hafter, .now hcalls⟩
    | _ =>
      obtain ⟨hrun, calls, hafter, hcalls⟩ := ih _ hp
      exact ⟨hrun, _, congrArg _ hafter, .call nofun nofun hcalls⟩

end Beside

/-! ## Handlers that do not notice a relay -/

/-- Nothing depends on what is handed on, or on how a pause is cut up. -/
structure Unheard (h : Handler Call Answer σ) : Prop where
  deliver : ∀ job line s, (h (.deliver job line) s).2 = s
  pause : ∀ ms ms' s, (h (.pause ms') (h (.pause ms) s).2).2 = (h (.pause (ms + ms')) s).2

section Unheard

variable {job : String} {h : Handler Call Answer σ} {r : Relaying} {clock wake : Nat}
  {lines : List (Nat × String)}

theorem Unheard.stateAfter_wait (hu : Unheard h) (job : String) (hclock : clock ≤ wake)
    (hlines : ∀ line ∈ lines, line.1 < wake) (s : σ) :
    (h (.pause (wake - lastTime clock lines)) (stateAfter h (handCalls job clock lines) s)).2 =
      (h (.pause (wake - clock)) s).2 := by
  induction lines generalizing clock s with
  | nil => rfl
  | cons line lines ih =>
    obtain ⟨hline, hlines⟩ := List.forall_mem_cons.1 hlines
    have hsplit : line.1 - clock + (wake - max clock line.1) = wake - clock := by omega
    refine (ih (by omega) hlines _).trans ?_
    change (h (.pause (wake - max clock line.1))
      (h (.deliver job line.2) (h (.pause (line.1 - clock)) s).2).2).2 = _
    rw [hu.deliver, hu.pause, hsplit]

theorem Relaying.lt_of_mem_due {line : Nat × String} (hline : line ∈ r.due wake) :
    line.1 < wake := by
  simpa using List.mem_takeWhile_imp (show line ∈ r.coming.takeWhile _ from hline)

/-- A program gets the answers beside a relay that it gets alone. -/
theorem Unheard.run_beside (hu : Unheard h) (p : TaskProgram α) (s : σ) (r : Relaying) :
    (p.run (beside job h) (s, r)).1 = (p.run h s).1 := by
  induction p generalizing s r with
  | done a => rfl
  | never => rfl
  | ask c next ih =>
    cases c with
    | pause ms =>
      have hstate : stateAfter h (r.waitCalls job (r.clock + ms)) s = (h (.pause ms) s).2 := by
        have hwait := hu.stateAfter_wait job (Nat.le_add_right r.clock ms)
          (fun line hline => r.lt_of_mem_due hline) s
        rw [Relaying.waitCalls, stateAfter_append]
        exact hwait.trans (by rw [Nat.add_sub_cancel_left])
      have hrest := ih () (stateAfter h (r.waitCalls job (r.clock + ms)) s)
        (r.after (r.clock + ms))
      rw [hstate] at hrest
      refine Eq.trans ?_ hrest
      rw [← hstate]
      rfl
    | _ => exact ih _ _ _

end Unheard

/-! ## Allowed calls -/

section Calls

variable {job : String} {clock : Nat} {lines : List (Nat × String)} {r : Relaying}
  {p : TaskProgram α} {allows : Call → Prop} {may : Prop}

theorem handOn_confined (hpause : ∀ ms, allows (.pause ms))
    (hdeliver : ∀ line, allows (.deliver job line)) :
    (handOn job clock lines).Confined allows may := by
  induction lines generalizing clock with
  | nil => exact .done _
  | cons line lines ih => exact .ask (hpause _) fun _ => .ask (hdeliver _) fun _ => ih

theorem alongside_confined (hpause : ∀ ms, allows (.pause ms))
    (hdeliver : ∀ line, allows (.deliver job line)) (hp : p.Confined allows may) :
    (alongside job p r).Confined allows may := by
  induction hp generalizing r with
  | done a => exact .done _
  | never hmay => exact (handOn_confined hpause hdeliver).bind fun _ => .never hmay
  | @ask c next hc _ ih =>
    cases c with
    | pause ms =>
      have hwait : (r.waitUntil job (r.clock + ms)).Confined allows may :=
        (handOn_confined hpause hdeliver).bind fun _ => .ask (hpause _) .done
      exact hwait.bind fun _ => ih ()
    | _ => exact .ask hc fun x => ih x

end Calls

end ClusterJobs
