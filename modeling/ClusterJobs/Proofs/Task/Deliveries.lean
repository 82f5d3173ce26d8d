import Mathlib.Data.List.Infix
import Mathlib.Order.Basic
import ClusterJobs.Proofs.Task.Alongside

/-!
# Deliveries

Each line that a relay hands on is handed on once, in order and at its own time, as far as the time can
be told from the pauses. What is handed on while a program runs comes before the time at which it ends.
-/

namespace ClusterJobs

open Program

variable {α σ : Type}

/-! ## Lines among calls -/

/-- The line that a call hands on. -/
def Call.line? : Call → Option String
  | .deliver _ line => some line
  | _ => none

/-- The lines that calls hand on. -/
def handedLines (calls : List TaskEvent) : List String :=
  calls.filterMap fun e => e.call.line?

/-- The lines that calls hand on from the time `clock` on, each with the time that the pauses before it
have taken. -/
def deliveries : Nat → List TaskEvent → List (Nat × String)
  | _, [] => []
  | clock, e :: calls =>
    e.call.line?.toList.map (Prod.mk clock) ++ deliveries (clock + pauseOf e) calls

/-- None of the calls hands a line on. -/
def Silent (calls : List TaskEvent) : Prop :=
  ∀ e ∈ calls, e.call.line? = none

/-- Each look at the clock shows the time that the pauses before it have taken. -/
def Punctual (clock : Nat) (calls : List TaskEvent) : Prop :=
  ∀ before t after, calls = before ++ ⟨.now, t⟩ :: after → t = clock + slept before

/-- There is a clock that looks show and that moves in pauses alone. -/
structure KeepsTime (h : Handler Call Answer σ) (clock : σ → Nat) : Prop where
  shows : ∀ s, (h .now s).1 = clock s
  passes : ∀ c s, clock (h c s).2 = clock s + pauseOf ⟨c, (h c s).1⟩

section Lists

variable {clock : Nat} {calls calls' : List TaskEvent}

theorem slept_cons (e : TaskEvent) (calls : List TaskEvent) :
    slept (e :: calls) = pauseOf e + slept calls :=
  List.sum_cons

theorem handedLines_append (calls calls' : List TaskEvent) :
    handedLines (calls ++ calls') = handedLines calls ++ handedLines calls' :=
  List.filterMap_append

theorem deliveries_append (clock : Nat) (calls calls' : List TaskEvent) :
    deliveries clock (calls ++ calls') =
      deliveries clock calls ++ deliveries (clock + slept calls) calls' := by
  induction calls generalizing clock with
  | nil => rfl
  | cons e calls ih =>
    rw [List.cons_append, deliveries, ih, deliveries, List.append_assoc, slept_cons, Nat.add_assoc]

theorem Silent.append (h : Silent calls) (h' : Silent calls') : Silent (calls ++ calls') :=
  List.forall_mem_append.2 ⟨h, h'⟩

theorem Silent.handedLines (h : Silent calls) : handedLines calls = [] :=
  List.filterMap_eq_nil_iff.2 h

theorem Punctual.left (hp : Punctual clock (calls ++ calls')) : Punctual clock calls := by
  rintro before t after rfl
  exact hp before t (after ++ calls') (by simp)

theorem Punctual.right (hp : Punctual clock (calls ++ calls')) :
    Punctual (clock + slept calls) calls' := by
  rintro before t after rfl
  have ht := hp (calls ++ before) t after (by simp)
  rwa [slept_append, ← Nat.add_assoc] at ht

end Lists

theorem KeepsTime.punctual {h : Handler Call Answer σ} {clock : σ → Nat} (hk : KeepsTime h clock)
    (p : TaskProgram α) (s : σ) : Punctual (clock s) (p.events h s) := by
  induction p generalizing s with
  | done a => exact fun before t after heq => absurd heq (by simp [events])
  | never => exact fun before t after heq => absurd heq (by simp [events])
  | ask c next ih =>
    intro before t after heq
    cases before with
    | nil =>
      cases (List.cons.inj heq).1
      exact hk.shows s
    | cons e before =>
      obtain ⟨rfl, hrest⟩ := List.cons.inj heq
      have ht := ih (h c s).1 (h c s).2 before t after hrest
      rwa [hk.passes, Nat.add_assoc, ← slept_cons] at ht

/-! ## Handing on -/

/-- Lines in the order of their times, none of them before the time `clock`. -/
structure Ordered (clock : Nat) (lines : List (Nat × String)) : Prop where
  sorted : lines.Pairwise fun line line' => line.1 ≤ line'.1
  le : ∀ line ∈ lines, clock ≤ line.1

section Ordered

variable {clock wake : Nat} {job : String} {line : Nat × String} {lines lines' : List (Nat × String)}

theorem Ordered.sublist (ho : Ordered clock lines) (h : lines'.Sublist lines) :
    Ordered clock lines' :=
  ⟨ho.sorted.sublist h, fun line hline => ho.le line (h.subset hline)⟩

theorem Ordered.tail (ho : Ordered clock (line :: lines)) : Ordered line.1 lines :=
  ⟨(List.pairwise_cons.1 ho.sorted).2, (List.pairwise_cons.1 ho.sorted).1⟩

/-- The lines that do not come before a time come from then on. -/
theorem Ordered.drop_due (ho : Ordered clock lines) :
    Ordered wake (lines.drop (lines.takeWhile fun line => decide (line.1 < wake)).length) := by
  refine ⟨ho.sorted.sublist (List.drop_sublist _ _), ?_⟩
  induction lines generalizing clock with
  | nil => exact List.forall_mem_nil _
  | cons line lines ih =>
    by_cases hline : line.1 < wake
    · rw [List.takeWhile_cons_of_pos (by simpa using hline)]
      exact ih ho.tail
    · rw [List.takeWhile_cons_of_neg (by simpa using hline)]
      rw [Nat.not_lt] at hline
      exact List.forall_mem_cons.2 ⟨hline, fun other h => hline.trans (ho.tail.le other h)⟩

theorem le_lastTime : clock ≤ lastTime clock lines := by
  induction lines generalizing clock with
  | nil => exact le_rfl
  | cons line lines ih => exact (Nat.le_max_left _ _).trans ih

theorem lastTime_le (hclock : clock ≤ wake) (hlines : ∀ line ∈ lines, line.1 ≤ wake) :
    lastTime clock lines ≤ wake := by
  induction lines generalizing clock with
  | nil => exact hclock
  | cons line lines ih =>
    obtain ⟨hline, hlines⟩ := List.forall_mem_cons.1 hlines
    exact ih (Nat.max_le.2 ⟨hclock, hline⟩) hlines

theorem handedLines_handCalls (job : String) (clock : Nat) (lines : List (Nat × String)) :
    handedLines (handCalls job clock lines) = lines.map Prod.snd := by
  induction lines generalizing clock with
  | nil => rfl
  | cons line lines ih => exact congrArg (line.2 :: ·) (ih _)

theorem slept_handCalls (job : String) (clock : Nat) (lines : List (Nat × String)) :
    clock + slept (handCalls job clock lines) = lastTime clock lines := by
  induction lines generalizing clock with
  | nil => rfl
  | cons line lines ih =>
    have hslept : slept (handCalls job clock (line :: lines)) =
        line.1 - clock + (0 + slept (handCalls job (max clock line.1) lines)) := rfl
    have hrest := ih (max clock line.1)
    rw [lastTime, ← hrest, hslept]
    omega

theorem deliveries_handCalls (ho : Ordered clock lines) :
    deliveries clock (handCalls job clock lines) = lines := by
  induction lines generalizing clock with
  | nil => rfl
  | cons line lines ih =>
    have htime : max clock line.1 = line.1 := Nat.max_eq_right (ho.le line (.head _))
    have hpause : clock + (line.1 - clock) = line.1 := Nat.add_sub_of_le (ho.le line (.head _))
    change (clock + (line.1 - clock), line.2) :: deliveries (clock + (line.1 - clock) + 0)
      (handCalls job (max clock line.1) lines) = _
    rw [htime, hpause, Nat.add_zero, ih ho.tail]

end Ordered

/-! ## What a relay hands on -/

/-- By these calls a relay has handed on these lines, and goes on as another one. -/
structure HandsOn (r : Relaying) (calls : List TaskEvent) (lines : List (Nat × String))
    (r' : Relaying) : Prop where
  coming : r.coming = lines ++ r'.coming
  handed : r'.handed = r.handed + lines.length
  lines_eq : handedLines calls = lines.map Prod.snd
  /-- They came before the time at which the relay goes on. -/
  past : ∀ line ∈ lines, line.1 < r'.clock
  le : r.clock ≤ r'.clock
  /-- Each is handed on at its time. -/
  timed : Ordered r.clock r.coming → Punctual r.clock calls →
    deliveries r.clock calls = lines ∧ r.clock + slept calls = r'.clock ∧
      Ordered r'.clock r'.coming

section HandsOn

variable {job : String} {r r' r'' : Relaying} {wake : Nat} {own calls calls' : List TaskEvent}
  {lines lines' : List (Nat × String)} {e : TaskEvent}

theorem HandsOn.refl (r : Relaying) : HandsOn r [] [] r :=
  ⟨rfl, rfl, rfl, List.forall_mem_nil _, le_rfl, fun ho _ => ⟨rfl, rfl, ho⟩⟩

theorem HandsOn.trans (h : HandsOn r calls lines r') (h' : HandsOn r' calls' lines' r'') :
    HandsOn r (calls ++ calls') (lines ++ lines') r'' where
  coming := by rw [h.coming, h'.coming, List.append_assoc]
  handed := by rw [h'.handed, h.handed, List.length_append, Nat.add_assoc]
  lines_eq := by rw [handedLines_append, h.lines_eq, h'.lines_eq, List.map_append]
  past := List.forall_mem_append.2
    ⟨fun line hline => (h.past line hline).trans_le h'.le, h'.past⟩
  le := h.le.trans h'.le
  timed := by
    intro ho hp
    obtain ⟨hlines, hclock, ho'⟩ := h.timed ho hp.left
    have hright := hp.right
    rw [hclock] at hright
    obtain ⟨hlines', hclock', ho''⟩ := h'.timed ho' hright
    refine ⟨?_, ?_, ho''⟩
    · rw [deliveries_append, hlines, hclock, hlines']
    · rw [slept_append, ← Nat.add_assoc, hclock, hclock']

/-- A relay that waits hands on the lines that come before it goes on. -/
theorem handsOn_wait (hwake : r.clock ≤ wake) :
    HandsOn r (r.waitCalls job wake) (r.due wake) (r.after wake) where
  coming := (List.prefix_iff_eq_append.1 (List.takeWhile_prefix _)).symm
  handed := rfl
  lines_eq := by
    rw [Relaying.waitCalls, handedLines_append, handedLines_handCalls]
    exact List.append_nil _
  past _ := r.lt_of_mem_due
  le := hwake
  timed := by
    intro ho _
    have hlast : lastTime r.clock (r.due wake) ≤ wake :=
      lastTime_le hwake fun _ hline => (r.lt_of_mem_due hline).le
    have hdue : Ordered r.clock (r.due wake) := ho.sublist (List.takeWhile_sublist _)
    refine ⟨?_, ?_, ho.drop_due⟩
    · rw [Relaying.waitCalls, deliveries_append, deliveries_handCalls hdue]
      exact List.append_nil _
    · have hpause : slept [⟨.pause (wake - lastTime r.clock (r.due wake)), ()⟩] =
          wake - lastTime r.clock (r.due wake) := Nat.add_zero _
      rw [Relaying.waitCalls, slept_append, ← Nat.add_assoc, slept_handCalls, hpause]
      exact Nat.add_sub_of_le hlast

theorem handsOn_now (r : Relaying) (t : Nat) : HandsOn r [⟨.now, t⟩] [] (r.tell t) where
  coming := rfl
  handed := rfl
  lines_eq := rfl
  past := List.forall_mem_nil _
  le := Nat.le_max_left _ _
  timed := by
    intro ho hp
    have ht : t = r.clock := hp [] t [] rfl
    have hclock : (r.tell t).clock = r.clock := by simp [Relaying.tell, ht]
    exact ⟨rfl, hclock.symm, hclock ▸ ho⟩

theorem handsOn_call (hpause : ∀ ms, e.call ≠ .pause ms) (hline : e.call.line? = none)
    (r : Relaying) : HandsOn r [e] [] r := by
  obtain ⟨c, x⟩ := e
  have hslept : slept [⟨c, x⟩] = 0 := by
    cases c with
    | pause ms => exact absurd rfl (hpause ms)
    | _ => rfl
  have hsilent : Silent [⟨c, x⟩] := List.forall_mem_singleton.2 hline
  refine ⟨rfl, rfl, hsilent.handedLines, List.forall_mem_nil _, le_rfl,
    fun ho _ => ⟨?_, by rw [hslept, Nat.add_zero], ho⟩⟩
  change (Call.line? c).toList.map _ ++ [] = []
  rw [hline]
  rfl

/-- A program that hands nothing on itself runs alongside a relay, which hands on the lines that come
meanwhile. -/
theorem Alongside.handsOn (ha : Alongside job r own calls r') (hown : Silent own) :
    ∃ lines, HandsOn r calls lines r' := by
  induction ha with
  | nil r => exact ⟨[], .refl r⟩
  | pause _ ih =>
    obtain ⟨lines, hrest⟩ := ih (List.forall_mem_cons.1 hown).2
    exact ⟨_, (handsOn_wait (Nat.le_add_right _ _)).trans hrest⟩
  | now _ ih =>
    obtain ⟨lines, hrest⟩ := ih (List.forall_mem_cons.1 hown).2
    exact ⟨_, (handsOn_now _ _).trans hrest⟩
  | call hpause _ _ ih =>
    obtain ⟨hfirst, hown⟩ := List.forall_mem_cons.1 hown
    obtain ⟨lines, hrest⟩ := ih hown
    exact ⟨_, (handsOn_call hpause hfirst _).trans hrest⟩

end HandsOn

end ClusterJobs
