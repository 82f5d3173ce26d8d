import Mathlib.Data.List.Basic
import ClusterJobs.Task.Pool

/-!
# Programs that end at once

Programs that end without a pause hand their slots on until none is left, so that all of them end,
whatever the number of slots.
-/

namespace ClusterJobs

variable {α σ : Type}

/-- From the states that hold, a program ends at once with this result, in such a state. -/
def EndsAtOnce (h : Program.Handler Call Answer (Timed σ)) (holds : Timed σ → Prop) (a : α)
    (p : TaskProgram α) : Prop :=
  ∀ s, holds s → ∃ s', advance h p s = (.finished a, s') ∧ holds s'

/-- The states that hold do so at every later time. -/
def Lasting (holds : Timed σ → Prop) : Prop :=
  ∀ s t, holds s → s.now ≤ t → holds { s with now := t }

namespace Pool

/-! ## Places -/

theorem mem_enqueue {v w : Waiting α} {l : List (Waiting α)} :
    v ∈ enqueue w l ↔ v = w ∨ v ∈ l := by
  induction l with
  | nil => simp [enqueue]
  | cons u rest ih =>
    unfold enqueue
    split
    · simp only [List.mem_cons, ih]
      exact or_left_comm
    · simp

theorem mem_map_enqueue {w : Waiting α} {l : List (Waiting α)} {i : Nat} :
    i ∈ (enqueue w l).map Waiting.place ↔ i = w.place ∨ i ∈ l.map Waiting.place := by
  constructor
  · intro hi
    obtain ⟨v, hv, rfl⟩ := List.mem_map.1 hi
    rcases mem_enqueue.1 hv with rfl | hv
    · exact .inl rfl
    · exact .inr (List.mem_map_of_mem hv)
  · rintro (rfl | hi)
    · exact List.mem_map_of_mem (mem_enqueue.2 (.inl rfl))
    · obtain ⟨v, hv, rfl⟩ := List.mem_map.1 hi
      exact List.mem_map_of_mem (mem_enqueue.2 (.inr hv))

@[simp]
theorem length_enqueue (w : Waiting α) (l : List (Waiting α)) :
    (enqueue w l).length = l.length + 1 := by
  induction l with
  | nil => rfl
  | cons u rest ih =>
    unfold enqueue
    split <;> simp [ih]

theorem map_fst_placed (i : Nat) (programs : List (TaskProgram α)) :
    (placed i programs).map Prod.fst = List.range' i programs.length := by
  induction programs generalizing i with
  | nil => rfl
  | cons p rest ih => simp [placed, ih, List.range'_succ]

theorem mem_of_mem_placed {i : Nat} {programs : List (TaskProgram α)} {q : Nat × TaskProgram α}
    (hq : q ∈ placed i programs) : q.2 ∈ programs := by
  induction programs generalizing i with
  | nil => cases hq
  | cons p rest ih =>
    rcases List.mem_cons.1 hq with rfl | hq
    · exact .head rest
    · exact .tail p (ih hq)

/-- The places of all programs, whether they wait, run or have ended. -/
def places (p : Pool α) : List Nat :=
  p.running.map Waiting.place ++ p.pending.map Prod.fst ++ p.finished.map Prod.fst

theorem mem_places_refill {p : Pool α} {now i : Nat} :
    i ∈ (p.refill now).places ↔ i ∈ p.places := by
  unfold refill
  split
  · rfl
  · next place program rest hpending =>
    simp only [places, hpending, List.map_cons, List.mem_append, mem_map_enqueue, List.mem_cons]
    tauto

/-! ## Counted turns -/

/-- The run of a pool, if it takes so many turns at most. -/
def runWithin (h : Program.Handler Call Answer (Timed σ)) :
    Nat → Pool α → Timed σ → Option (List (Nat × α) × Timed σ)
  | 0, _, _ => none
  | turns + 1, p, s =>
    match p.running with
    | [] => some (p.finished, s)
    | w :: rest =>
      let turn := advance h w.program { s with now := max s.now w.wake }
      runWithin h turns ({ p with running := rest }.settle w.place turn.2.now turn.1) turn.2

theorem run_of_runWithin {h : Program.Handler Call Answer (Timed σ)} {turns : Nat} {p : Pool α}
    {s : Timed σ} {r : List (Nat × α) × Timed σ} (hr : runWithin h turns p s = some r) :
    run h p s = r := by
  induction turns generalizing p s with
  | zero => cases hr
  | succ turns ih =>
    unfold runWithin at hr
    unfold run
    split at hr
    · next hnone =>
      split
      · exact Option.some.inj hr
      · next hw => cases hnone.symm.trans hw
    · next hw =>
      split
      · next hnone => cases hw.symm.trans hnone
      · next hw' =>
        cases hw.symm.trans hw'
        exact ih hr

/-! ## Runs -/

/-- All programs end at once with the same result, and no slot is free while one waits for it. -/
structure Quick (h : Program.Handler Call Answer (Timed σ)) (holds : Timed σ → Prop) (a : α)
    (p : Pool α) : Prop where
  running : ∀ w ∈ p.running, EndsAtOnce h holds a w.program
  pending : ∀ q ∈ p.pending, EndsAtOnce h holds a q.2
  finished : ∀ q ∈ p.finished, q.2 = a
  busy : p.running = [] → p.pending = []

variable {h : Program.Handler Call Answer (Timed σ)} {holds : Timed σ → Prop} {a : α} {p : Pool α}

theorem Quick.settle (hq : Quick h holds a p) {w : Waiting α} {rest : List (Waiting α)}
    (hw : p.running = w :: rest) (now : Nat) :
    Quick h holds a ({ p with running := rest }.settle w.place now (.finished a)) := by
  obtain ⟨hrunning, hpending, hfinished, -⟩ := hq
  have hrest : ∀ v ∈ rest, EndsAtOnce h holds a v.program := by
    intro v hv
    exact hrunning v (hw ▸ .tail w hv)
  have hend : ∀ q ∈ (w.place, a) :: p.finished, q.2 = a := by
    intro q hq
    rcases List.mem_cons.1 hq with rfl | hq
    · rfl
    · exact hfinished q hq
  simp only [Pool.settle, refill]
  split
  · next hnone => exact ⟨hrest, hpending, hend, fun _ => hnone⟩
  · next place program others hsome =>
    have hothers := List.forall_mem_cons.1 (hsome ▸ hpending)
    refine ⟨?_, hothers.2, hend, ?_⟩
    · intro v hv
      rcases mem_enqueue.1 hv with rfl | hv
      · exact hothers.1
      · exact hrest v hv
    · intro hnil
      have hlen := congrArg List.length hnil
      simp at hlen

theorem mem_places_settle {w : Waiting α} {rest : List (Waiting α)} (hw : p.running = w :: rest)
    {now i : Nat} (hi : i ∈ p.places) :
    i ∈ ({ p with running := rest }.settle w.place now (.finished a)).places := by
  simp only [Pool.settle, mem_places_refill]
  simp only [places, hw, List.map_cons, List.cons_append, List.mem_cons, List.mem_append] at hi ⊢
  tauto

/-- Programs that end at once all end. -/
theorem Quick.run (hlast : Lasting holds) (hq : Quick h holds a p) {s : Timed σ} (hs : holds s) :
    ∃ ended s', Pool.run h p s = (ended, s') ∧ holds s' ∧ (∀ q ∈ ended, q.2 = a) ∧
      ∀ i ∈ p.places, ∃ q ∈ ended, q.1 = i := by
  fun_induction Pool.run h p s with
  | case1 p s hnone =>
    refine ⟨p.finished, s, rfl, hs, hq.finished, fun i hi => ?_⟩
    simpa [places, hnone, hq.busy hnone] using hi
  | case2 p s w rest hw turn ih =>
    have hnow := hlast s (max s.now w.wake) hs (Nat.le_max_left _ _)
    obtain ⟨s₁, hadvance, hs₁⟩ := hq.running w (hw ▸ .head rest) _ hnow
    have hturn : turn = (.finished a, s₁) := hadvance
    rw [hturn] at ih ⊢
    obtain ⟨ended, s', hrun, hs', hall, hplaces⟩ := ih (hq.settle hw s₁.now) hs₁
    exact ⟨ended, s', hrun, hs', hall, fun i hi => hplaces i (mem_places_settle hw hi)⟩

/-! ## Starts and ends -/

variable {slots : Nat} {programs : List (TaskProgram α)}

theorem map_start (slots now : Nat) (programs : List (TaskProgram α)) :
    (start slots now programs).running.map Waiting.place ++
      (start slots now programs).pending.map Prod.fst = List.range' 0 programs.length := by
  rw [← map_fst_placed, ← List.take_append_drop slots (placed 0 programs), List.map_append]
  simp [start, Function.comp_def]

theorem mem_places_start {now i : Nat} (hi : i < programs.length) :
    i ∈ (start slots now programs).places := by
  refine List.mem_append_left _ ?_
  rw [map_start, List.mem_range'_1]
  omega

theorem quick_start (hslots : 0 < slots) (hp : ∀ p ∈ programs, EndsAtOnce h holds a p)
    (now : Nat) : Quick h holds a (start slots now programs) := by
  refine ⟨?_, ?_, ?_, ?_⟩
  · intro w hw
    obtain ⟨q, hq, rfl⟩ := List.mem_map.1 hw
    exact hp q.2 (mem_of_mem_placed (List.mem_of_mem_take hq))
  · exact fun q hq => hp q.2 (mem_of_mem_placed (List.mem_of_mem_drop hq))
  · intro q hq
    cases hq
  · intro hnone
    have hplaced : placed 0 programs = [] := by
      rcases List.take_eq_nil_iff.1 (List.map_eq_nil_iff.1 hnone) with hzero | hnil
      · omega
      · exact hnil
    simp [start, hplaced]

theorem lookup_of_all {ended : List (Nat × α)} (hall : ∀ q ∈ ended, q.2 = a) {i : Nat}
    (hi : ∃ q ∈ ended, q.1 = i) : ended.lookup i = some a := by
  induction ended with
  | nil => simp at hi
  | cons q rest ih =>
    obtain ⟨place, b⟩ := q
    obtain rfl : b = a := hall (place, b) (.head rest)
    rw [List.lookup_cons]
    by_cases hplace : i = place
    · simp [hplace]
    · have hrest : ∃ q ∈ rest, q.1 = i := by
        obtain ⟨q, hq, rfl⟩ := hi
        rcases List.mem_cons.1 hq with rfl | hq
        · exact absurd rfl hplace
        · exact ⟨q, hq, rfl⟩
      have hne : (i == place) = false := by simpa using hplace
      rw [hne]
      exact ih (fun q hq => hall q (.tail _ hq)) hrest

theorem inOrder_of_all {count : Nat} {ended : List (Nat × α)} (hall : ∀ q ∈ ended, q.2 = a)
    (hplaces : ∀ i < count, ∃ q ∈ ended, q.1 = i) :
    inOrder count ended = some (List.replicate count a) := by
  have hlookup (is : List Nat) (his : ∀ i ∈ is, i < count) :
      is.mapM (fun i => ended.lookup i) = some (is.map fun _ => a) := by
    induction is with
    | nil => rfl
    | cons i is ih =>
      obtain ⟨hi, his⟩ := List.forall_mem_cons.1 his
      simp [List.mapM_cons, lookup_of_all hall (hplaces i hi), ih his]
  unfold inOrder
  rw [hlookup _ fun i hi => List.mem_range.1 hi, List.map_const', List.length_range]

end Pool

/-- Programs that end at once with the same result give that result once each. -/
theorem runInSlots_of_endsAtOnce {h : Program.Handler Call Answer (Timed σ)}
    {holds : Timed σ → Prop} {a : α} (hlast : Lasting holds) {slots : Nat} (hslots : 0 < slots)
    {programs : List (TaskProgram α)} (hp : ∀ p ∈ programs, EndsAtOnce h holds a p) {s : Timed σ}
    (hs : holds s) :
    ∃ s', runInSlots h slots programs s = (some (List.replicate programs.length a), s') ∧
      holds s' := by
  obtain ⟨ended, s', hrun, hs', hall, hplaces⟩ :=
    (Pool.quick_start hslots hp s.now).run hlast hs
  refine ⟨s', ?_, hs'⟩
  unfold runInSlots
  simp only [hrun]
  rw [Pool.inOrder_of_all hall fun i hi => hplaces i (Pool.mem_places_start hi)]

end ClusterJobs
