import ClusterJobs.Cluster.Call

/-!
# Slots

Programs that run at the same time share a number of slots. Each runs without interruption until it
pauses; then the one that wakes first goes on. A program that ends gives its slot to the next one that
has not started.
-/

namespace ClusterJobs

/-- A state with the time. -/
structure Timed (σ : Type) where
  now : Nat
  state : σ

/-- How far a program got without a pause. -/
inductive Progress (α : Type) where
  | finished (a : α)
  /-- The program goes on at a later time. -/
  | paused (wake : Nat) (rest : TaskProgram α)
  | stuck

variable {α σ : Type}

/-- Runs a program to its next pause. -/
def advance (h : Program.Handler Call Answer (Timed σ)) :
    TaskProgram α → Timed σ → Progress α × Timed σ
  | .done a, s => (.finished a, s)
  | .never, s => (.stuck, s)
  | .ask (.pause ms) next, s =>
    if ms = 0 then advance h (next ()) s else (.paused (s.now + ms) (next ()), s)
  | .ask c next, s =>
    let (x, s) := h c s
    advance h (next x) s

/-- A program with its place among all of them and the time at which it goes on. -/
structure Waiting (α : Type) where
  wake : Nat
  place : Nat
  program : TaskProgram α

/-- Programs in a number of slots. -/
structure Pool (α : Type) where
  /-- Those that have a slot, by the times at which they go on. -/
  running : List (Waiting α)
  /-- Those that have not started. -/
  pending : List (Nat × TaskProgram α)
  /-- The results so far, each with its place, the last one first. -/
  finished : List (Nat × α)

namespace Pool

/-- Puts a program behind those that go on no later than it. -/
def enqueue (w : Waiting α) : List (Waiting α) → List (Waiting α)
  | [] => [w]
  | v :: rest => if v.wake ≤ w.wake then v :: enqueue w rest else w :: v :: rest

/-- The programs with their places, from place `i` on. -/
def placed : Nat → List (TaskProgram α) → List (Nat × TaskProgram α)
  | _, [] => []
  | i, p :: rest => (i, p) :: placed (i + 1) rest

/-- Programs before any has run. The first ones have the slots. -/
def start (slots now : Nat) (programs : List (TaskProgram α)) : Pool α :=
  let all := placed 0 programs
  ⟨(all.take slots).map fun p => ⟨now, p.1, p.2⟩, all.drop slots, []⟩

/-- Gives a free slot to the next program. -/
def refill (p : Pool α) (now : Nat) : Pool α :=
  match p.pending with
  | [] => p
  | (place, program) :: rest =>
    { p with running := enqueue ⟨now, place, program⟩ p.running, pending := rest }

/-- What becomes of the pool when the program at a place got so far. -/
def settle (p : Pool α) (place now : Nat) : Progress α → Pool α
  | .finished a => { p with finished := (place, a) :: p.finished }.refill now
  | .paused wake rest => { p with running := enqueue ⟨wake, place, rest⟩ p.running }
  | .stuck => p

/-- The programs that have not ended. -/
def programs (p : Pool α) : List (TaskProgram α) :=
  p.running.map Waiting.program ++ p.pending.map Prod.snd

/-! ### The end of a pool -/

/-- Of a list of programs one is dropped or gets on, and their order does not matter. -/
inductive Fewer : List (TaskProgram α) → List (TaskProgram α) → Prop where
  | drop {p : TaskProgram α} {l l' rest : List (TaskProgram α)} :
      l.Perm (p :: rest) → l'.Perm rest → Fewer l' l
  | goOn {p q : TaskProgram α} {l l' rest : List (TaskProgram α)} :
      l.Perm (p :: rest) → Program.Left q p → l'.Perm (q :: rest) → Fewer l' l

section Fewer

variable {p q : TaskProgram α} {l l' rest : List (TaskProgram α)}

theorem Fewer.acc_of_perm (ha : Acc Fewer l) (hl : l.Perm l') : Acc Fewer l' := by
  refine ⟨_, fun m hm => ha.inv ?_⟩
  cases hm with
  | drop hl' hm => exact .drop (hl.trans hl') hm
  | goOn hl' hq hm => exact .goOn (hl.trans hl') hq hm

/-- What stands first after a reordering did so before, or stands further behind. -/
theorem perm_cons_cases (h : (p :: l).Perm (q :: rest)) :
    (p = q ∧ l.Perm rest) ∨ ∃ others, l.Perm (q :: others) ∧ rest.Perm (p :: others) := by
  rcases List.mem_cons.1 (h.symm.subset (.head rest)) with rfl | hq
  · exact .inl ⟨rfl, h.cons_inv⟩
  · obtain ⟨front, back, rfl⟩ := List.append_of_mem hq
    refine .inr ⟨front ++ back, List.perm_middle, ?_⟩
    have hmiddle : (p :: (front ++ q :: back)).Perm (q :: p :: (front ++ back)) :=
      (List.perm_middle.cons p).trans (.swap q p _)
    exact (h.symm.trans hmiddle).cons_inv

theorem Fewer.acc_cons (hp : Acc Program.Left p) (hl : Acc Fewer l) : Acc Fewer (p :: l) := by
  -- Either the first program gets on, or the others get fewer beside it.
  induction hp generalizing l with
  | intro p _ ihp =>
    induction hl with
    | intro l hl ihl =>
      refine ⟨_, fun m hm => ?_⟩
      cases hm with
      | drop hperm hm =>
        rcases perm_cons_cases hperm with ⟨-, hrest⟩ | ⟨others, hothers, hrest⟩
        · exact Fewer.acc_of_perm ⟨l, hl⟩ (hrest.trans hm.symm)
        · exact Fewer.acc_of_perm (ihl others (.drop hothers (.refl _))) (hm.trans hrest).symm
      | @goOn _ q _ _ rest hperm hq hm =>
        rcases perm_cons_cases hperm with ⟨rfl, hrest⟩ | ⟨others, hothers, hrest⟩
        · exact Fewer.acc_of_perm (ihp q hq ⟨l, hl⟩) ((hrest.cons q).trans hm.symm)
        · have horder : (p :: q :: others).Perm m :=
            ((List.Perm.swap q p others).trans (hrest.symm.cons q)).trans hm.symm
          exact Fewer.acc_of_perm (ihl (q :: others) (.goOn hothers hq (.refl _))) horder

theorem Fewer.acc (l : List (TaskProgram α)) : Acc Fewer l := by
  induction l with
  | nil =>
    refine ⟨_, fun m hm => ?_⟩
    cases hm with
    | drop hl _ => cases hl.length_eq
    | goOn hl _ _ => cases hl.length_eq
  | cons p l ih => exact Fewer.acc_cons p.acc_left ih

end Fewer

/-- A pool gets smaller as its programs get on. -/
instance : WellFoundedRelation (Pool α) where
  rel p q := Fewer p.programs q.programs
  wf := InvImage.wf programs ⟨Fewer.acc⟩

section Settle

variable {p : Pool α} {w : Waiting α} {rest : List (Waiting α)}

theorem enqueue_perm (w : Waiting α) (l : List (Waiting α)) : (enqueue w l).Perm (w :: l) := by
  induction l with
  | nil => exact .refl _
  | cons v l ih =>
    unfold enqueue
    split
    · exact (ih.cons v).trans (.swap w v l)
    · exact .refl _

theorem programs_refill (p : Pool α) (now : Nat) : (p.refill now).programs.Perm p.programs := by
  unfold refill
  split
  · exact .refl _
  · next place q others hpending =>
    have horder := ((enqueue_perm ⟨now, place, q⟩ p.running).map Waiting.program).append_right
      (others.map Prod.snd)
    refine horder.trans ?_
    simp only [programs, hpending, List.map_cons, List.cons_append]
    exact List.perm_middle.symm

theorem left_of_advance (h : Program.Handler Call Answer (Timed σ)) {program q : TaskProgram α}
    {s : Timed σ} {wake : Nat} (hp : (advance h program s).1 = .paused wake q) :
    Program.Left q program := by
  induction program generalizing s with
  | done a => cases hp
  | never => cases hp
  | ask c next ih =>
    cases c with
    | pause ms =>
      simp only [advance] at hp
      split at hp
      · exact .more _ (ih _ hp)
      · cases hp
        exact .one next ()
    | _ => exact .more _ (ih _ hp)

/-- A turn makes a pool smaller. -/
theorem settle_fewer (h : Program.Handler Call Answer (Timed σ)) (hw : p.running = w :: rest)
    (s : Timed σ) (now : Nat) :
    Fewer ({ p with running := rest }.settle w.place now (advance h w.program s).1).programs
      p.programs := by
  have hprograms : p.programs.Perm
      (w.program :: (rest.map Waiting.program ++ p.pending.map Prod.snd)) := by
    rw [programs, hw]
    exact .refl _
  cases hp : (advance h w.program s).1 with
  | finished a => exact .drop hprograms (programs_refill _ now)
  | paused wake q =>
    refine .goOn hprograms (left_of_advance h hp) ?_
    exact ((enqueue_perm ⟨wake, w.place, q⟩ rest).map Waiting.program).append_right _
  | stuck => exact .drop hprograms (.refl _)

end Settle

/-! ### Runs of a pool -/

/-- Runs all programs to their ends and gives the results of those that do not wait forever. -/
def run (h : Program.Handler Call Answer (Timed σ)) (p : Pool α) (s : Timed σ) :
    List (Nat × α) × Timed σ :=
  match _ : p.running with
  | [] => (p.finished, s)
  | w :: rest =>
    -- The others may have used up more time than this program wanted to pause.
    let turn := advance h w.program { s with now := max s.now w.wake }
    run h ({ p with running := rest }.settle w.place turn.2.now turn.1) turn.2
termination_by p
decreasing_by exact settle_fewer h ‹p.running = _› _ _

/-- The results in the order of the programs. -/
def inOrder (count : Nat) (finished : List (Nat × α)) : Option (List α) :=
  (List.range count).mapM fun i => finished.lookup i

end Pool

/-- Runs programs in a number of slots and gives their results in order, if all of them end. -/
def runInSlots (h : Program.Handler Call Answer (Timed σ)) (slots : Nat)
    (programs : List (TaskProgram α)) (s : Timed σ) : Option (List α) × Timed σ :=
  let (finished, s) := Pool.run h (Pool.start slots s.now programs) s
  (Pool.inOrder programs.length finished, s)

end ClusterJobs
