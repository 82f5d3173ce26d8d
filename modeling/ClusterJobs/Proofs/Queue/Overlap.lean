import ClusterJobs.Proofs.Queue.Holdings
import ClusterJobs.Proofs.Queue.Views

/-!
# Overlapping operations

Operations that take turns leave rows and clusters in step unless two of them clash. The weaker
agreement that holds on the way is kept by every turn of an interleaving without a clash.
-/

namespace ClusterJobs

open Program

/-- No operation is on its way, and rows and clusters are in step. -/
structure AtRest (s : QueueSettings) (l : QueueLedger) : Prop where
  sound : l.rows.Sound
  apart : l.rows.Apart s
  released : l.reserved = ∅
  inStep : InStep s l

section Agreeing

variable {ι : Type} [DecidableEq ι] {s : QueueSettings} {ops : ι → QueueOp}
  {h past : List (ι × QueueEvent)} {st st' : ι → QueueStage s} {l l' : QueueLedger}

theorem QueueMoment.agreeing_after {future : List (ι × QueueEvent)} {i : ι} {e : QueueEvent}
    {x : QueueStage s} (m : QueueMoment s ops past future st l i e x l') :
    Agreeing s ops (past ++ [(i, e)]) (Function.update st i x) l' where
  apart := m.apart_after
  settled := m.settled_after
  owned := m.owned_after
  founded := m.founded_after
  applying := m.applying_after
  applied := m.applied_after
  fresh := m.fresh_after
  clearing := m.clearing_after
  cleared := m.cleared_after
  inspecting := m.inspecting_after

theorem Agreeing.run (ht : QueueTurns s st l h st' l') (ho : Orderly st l)
    (hr : Traced ops past st) (ha : Agreeing s ops past st l) (hend : ∀ i, (st' i).next? = none)
    (hclean : ¬ Clash s ops (past ++ h)) : Agreeing s ops (past ++ h) st' l' := by
  -- By induction on the turns. A clash shows in the history as a whole, and every operation comes
  -- to its end, so the calls still to be made are known to be in it.
  induction ht generalizing past with
  | nil st l => simpa using ha
  | @cons st st' l l₁ l' i e x h hturn hrest ih =>
    have m : QueueMoment s ops past h st l i e x l₁ :=
      ⟨hturn, ho, hr, ha, fun j c hc => hrest.eventually hc (hend j), hclean⟩
    have hrun := ih (ho.step hturn) (hr.step hturn) m.agreeing_after hend
    rw [List.append_assoc] at hrun
    exact hrun hclean

omit [DecidableEq ι] in
theorem AtRest.agreeing (ha : AtRest s l) (ops : ι → QueueOp) :
    Agreeing s ops [] (fun i => (ops i).begin s) l := by
  have hview (i : ι) (id : Int) (row : QueueRow) : ((ops i).begin s).view ≠ some (id, row) := by
    simp
  have hvacant (i : ι) (name : String) : ((ops i).begin s).vacant ≠ some name := by simp
  refine ⟨ha.apart, ?_, ?_, ?_, ?_, ?_, ?_, ?_, ?_, ?_⟩
  · exact fun r hr remote _ => ha.inStep.applied r hr remote
  · intro k queue hk
    obtain ⟨hlocal, hrow⟩ := ha.inStep.owned k queue hk
    exact ⟨hlocal, .inl hrow⟩
  · intro i q hst
    exact absurd (by rw [hst]; rfl) (hvacant i q.trimmed)
  · intro i id u row checked affects remote hst
    exact absurd (by rw [hst]; rfl) (hview i id row)
  · intro i id row queue happlied
    exact absurd happlied.view (hview i id row)
  · intro i id row row' hv
    exact absurd hv (hview i id row)
  · intro i id row remote hst
    exact absurd (by rw [hst]; rfl) (hview i id row)
  · intro i id row hc
    exact absurd hc.view (hview i id row)
  · intro i id row now remote hst
    exact absurd (by rw [hst]; rfl) (hview i id row)

omit [DecidableEq ι] in
theorem Traced.begin (ops : ι → QueueOp) : Traced ops [] (fun i => (ops i).begin s) := by
  refine ⟨fun i => QueueOp.op_begin s (ops i), ?_, ?_, ?_⟩
  · intro i id row hv
    simp at hv
  · intro i id row queue happlied
    have hv := happlied.view
    simp at hv
  · intro i id row hc
    have hv := hc.view
    simp at hv

/-- Operations that do not clash leave rows and clusters in step, in whatever order they take their
turns and whichever of their calls to clusters fail. -/
theorem AtRest.of_interleaves (ops : ι → QueueOp) {qs : (i : ι) → QueueProgram (ops i).Result}
    {results : (i : ι) → (ops i).Result} (ha : AtRest s l)
    (hi : Interleaves QueueLedger.serves (fun i => (ops i).program s) l h qs l')
    (hf : Finished qs results) (hclean : ¬ Clash s ops h) : AtRest s l' := by
  have ht := QueueTurns.of_finished ops hi hf
  have ho := Orderly.begin (s := s) ops ha.sound ha.released
  have hrun := Agreeing.run ht ho (Traced.begin ops) (ha.agreeing ops) (fun i => rfl) hclean
  have ho' := ho.run ht
  refine ⟨ho'.sound, hrun.apart, ?_, ?_, ?_⟩
  · refine Finset.eq_empty_of_forall_notMem ?_
    intro name hname
    obtain ⟨i, hi⟩ := (ho'.reservations.mem_iff name).1 hname
    cases hi
  · exact fun r hr remote => hrun.settled r hr remote fun i => QueueStage.not_busy_ended
  · intro k queue hk
    obtain ⟨hlocal, hrow | ⟨i, hfounded⟩⟩ := hrun.owned k queue hk
    · exact ⟨hlocal, hrow⟩
    · exact hfounded.elim

end Agreeing

end ClusterJobs
