/-!
# Programs

A program does its work by calls to its surroundings: a cluster, a store of rows, a clock. It is a tree
whose nodes are calls and whose branches are answers, so that everything it may do can be read off it,
whatever the surroundings answer. A handler gives the answers and keeps a state.
-/

namespace ClusterJobs

/-- A computation that makes calls from `Call` and goes on with their answers. -/
inductive Program (Call : Type) (Answer : Call → Type) (α : Type) where
  | done (a : α)
  | ask (c : Call) (next : Answer c → Program Call Answer α)
  /-- Waits for something that does not happen. -/
  | never

namespace Program

variable {Call : Type} {Answer : Call → Type} {α β γ σ : Type}

/-- Goes on with the result of a program. -/
def bind (p : Program Call Answer α) (f : α → Program Call Answer β) : Program Call Answer β :=
  match p with
  | done a => f a
  | ask c next => ask c fun x => (next x).bind f
  | never => never

instance : Monad (Program Call Answer) where
  pure := done
  bind := bind

@[simp]
theorem pure_eq (a : α) : (pure a : Program Call Answer α) = done a := rfl

@[simp]
theorem bind_eq (p : Program Call Answer α) (f : α → Program Call Answer β) :
    p >>= f = p.bind f := rfl

@[simp]
theorem done_bind (a : α) (f : α → Program Call Answer β) : (done a).bind f = f a := rfl

@[simp]
theorem ask_bind (c : Call) (next : Answer c → Program Call Answer α)
    (f : α → Program Call Answer β) : (ask c next).bind f = ask c fun x => (next x).bind f := rfl

@[simp]
theorem never_bind (f : α → Program Call Answer β) :
    (never : Program Call Answer α).bind f = never := rfl

@[simp]
theorem bind_done (p : Program Call Answer α) : p.bind done = p := by
  induction p with
  | done a => rfl
  | ask c next ih => simp [ih]
  | never => rfl

theorem bind_assoc (p : Program Call Answer α) (f : α → Program Call Answer β)
    (g : β → Program Call Answer γ) : (p.bind f).bind g = p.bind fun a => (f a).bind g := by
  induction p with
  | done a => rfl
  | ask c next ih => simp [ih]
  | never => rfl

/-- One call. -/
def call (c : Call) : Program Call Answer (Answer c) :=
  ask c done

/-- Gives the answer to a call, which may change the state. -/
abbrev Handler (Call : Type) (Answer : Call → Type) (σ : Type) :=
  (c : Call) → σ → Answer c × σ

/-- Runs a program alone. There is no result if it waits forever. -/
def run (h : Handler Call Answer σ) : Program Call Answer α → σ → Option α × σ
  | done a, s => (some a, s)
  | ask c next, s =>
    let (x, s) := h c s
    (next x).run h s
  | never, s => (none, s)

/-- Runs a program up to the first call that satisfies `stops`, which is not made yet. -/
def runUntil (h : Handler Call Answer σ) (stops : Call → Bool) :
    Program Call Answer α → σ → Program Call Answer α × σ
  | done a, s => (done a, s)
  | ask c next, s =>
    if stops c then (ask c next, s)
    else
      let (x, s) := h c s
      (next x).runUntil h stops s
  | never, s => (never, s)

/-- Runs the first program to a call that `stops`, then the second, and then both to their ends, the
second one first. -/
def runBoth (h : Handler Call Answer σ) (stops : Call → Bool) (p : Program Call Answer α)
    (q : Program Call Answer β) (s : σ) : (Option α × Option β) × σ :=
  let (p, s) := p.runUntil h stops s
  let (q, s) := q.runUntil h stops s
  let (b, s) := q.run h s
  let (a, s) := p.run h s
  ((a, b), s)

theorem run_bind (h : Handler Call Answer σ) (p : Program Call Answer α)
    (f : α → Program Call Answer β) (s : σ) :
    (p.bind f).run h s =
      match p.run h s with
      | (some a, s) => (f a).run h s
      | (none, s) => (none, s) := by
  induction p generalizing s with
  | done a => rfl
  | ask c next ih => simp [run, ih]
  | never => rfl

/-- The first program is what is left of the second one after some of its calls, at least one. -/
inductive Left : Program Call Answer α → Program Call Answer α → Prop where
  | one {c : Call} (next : Answer c → Program Call Answer α) (x : Answer c) :
      Left (next x) (ask c next)
  | more {c : Call} {next : Answer c → Program Call Answer α} {q : Program Call Answer α}
      (x : Answer c) : Left q (next x) → Left q (ask c next)

/-- A program cannot go on forever, whatever it is answered. -/
theorem acc_left (p : Program Call Answer α) : Acc Left p := by
  induction p with
  | done a => exact ⟨_, nofun⟩
  | never => exact ⟨_, nofun⟩
  | ask c next ih =>
    refine ⟨_, fun q hq => ?_⟩
    cases hq with
    | one _ x => exact ih x
    | more x hq => exact (ih x).inv hq

end Program

end ClusterJobs
