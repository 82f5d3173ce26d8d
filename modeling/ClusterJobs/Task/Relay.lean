import ClusterJobs.Cluster.Call

/-!
# Relaying logs

While a task is watched, the log of its container is handed on line by line. Opening the log is retried
until the container runs. Once the outcome is known the log may drain for a while; then it is closed.
The lines are handed on at their own times, between the calls of the program that watches.
-/

namespace ClusterJobs

open TaskProgram

/-- The lines that come from the time `t` on before the stream breaks, each with its time. -/
def linesFrom : List (Nat × LogItem) → Nat → List (Nat × String)
  | [], _ => []
  | (_, .broken) :: _, _ => []
  | (after, .line text) :: rest, t => (t + after, text) :: linesFrom rest (t + after)

/-- The lines of a log that is followed from the time `start` on and never closed. -/
def LogSource.lines (b : ClockBackoff) (s : LogSource) (start : Nat) : List (Nat × String) :=
  match b.retry ⟨none, s.jitter, s.closeWinsOpen⟩ s.attempt (s.opens.length + 1) start with
  | some ⟨some (.succeeded stream), _, opened⟩ => linesFrom stream.items opened
  | _ => []

/-- What a relay has done by the time it was joined. -/
structure Relayed where
  /-- The lines handed on, each with its time. -/
  lines : List (Nat × String)
  /-- The number of lines that the relay has counted. -/
  count : Nat
  /-- The number of attempts to open the log. -/
  opens : Nat
  /-- When the relay ended on its own or was closed. -/
  endedAt : Nat
deriving DecidableEq, Repr

namespace Relayed

/-- One line before the others. -/
def cons (t : Nat) (line : String) (r : Relayed) : Relayed :=
  { r with lines := (t, line) :: r.lines }

/-- When a join is over that was asked for at the time `called`. -/
def joinedAt (r : Relayed) (called : Nat) : Nat :=
  max called r.endedAt

end Relayed

/-- A line that is ready at the time `ready` comes after the relay was closed at the time `close`. -/
def LogSource.tooLate (s : LogSource) (close race ready : Nat) : Bool :=
  close < ready || (close == ready && s.closeWinsLine race)

/-- Hands on the lines of a stream from the time `t` on, until the stream ends, breaks or is closed.
So far `relayed` lines were counted. -/
def relayLines (s : LogSource) (close opens : Nat) (ends : Option Nat) :
    List (Nat × LogItem) → Nat → Nat → Relayed
  | [], relayed, t =>
    ⟨[], relayed, opens, ends.elim (max t close) fun after => min (t + after) (max t close)⟩
  | (after, item) :: rest, relayed, t =>
    if s.tooLate close relayed (t + after) then ⟨[], relayed, opens, max t close⟩
    else
      match item with
      | .broken => ⟨[], relayed, opens, t + after⟩
      | .line text =>
        (relayLines s close opens ends rest (relayed + 1) (t + after)).cons (t + after) text

/-- Relays a log from the time `start` on. It is closed at the time `close`. -/
def relay (b : ClockBackoff) (s : LogSource) (start close : Nat) : Relayed :=
  let world : RetryWorld Float := ⟨some close, s.jitter, s.closeWinsOpen⟩
  let fuel := s.opens.length + b.maxAttempts.toNat + (close - start) + 2
  match b.retry world s.attempt fuel start with
  -- The log was not opened by then, and cannot be any more.
  | none => ⟨[], 0, fuel, max start close⟩
  | some run =>
    match run.result with
    | some (.succeeded stream) =>
      relayLines s close run.attempts stream.ends stream.items 0 run.endedAt
    | _ => ⟨[], 0, run.attempts, run.endedAt⟩

/-- Hands lines over, each at its time, from the time `clock` on. Answers the time of the last one. -/
def handOn (job : String) : Nat → List (Nat × String) → TaskProgram Nat
  | clock, [] => return clock
  | clock, (t, line) :: rest => do
    pause (t - clock)
    perform (.deliver job line)
    handOn job (max clock t) rest

/-- A relay at work. -/
structure Relaying where
  /-- The time up to which lines were handed on. -/
  clock : Nat
  /-- The number of lines handed on. -/
  handed : Nat
  /-- The lines to come if the log is not closed. -/
  coming : List (Nat × String)

/-- The relay of a log that is followed from the time `start` on. -/
def LogSource.relaying (b : ClockBackoff) (s : LogSource) (start : Nat) : Relaying :=
  ⟨start, 0, s.lines b start⟩

namespace Relaying

/-- The lines that come before a time. -/
def due (r : Relaying) (wake : Nat) : List (Nat × String) :=
  r.coming.takeWhile fun line => line.1 < wake

/-- The relay at a later time. -/
def after (r : Relaying) (wake : Nat) : Relaying :=
  ⟨wake, r.handed + (r.due wake).length, r.coming.drop (r.due wake).length⟩

/-- The relay when the time is known. -/
def tell (r : Relaying) (t : Nat) : Relaying :=
  { r with clock := max r.clock t }

/-- Waits until a time while lines are handed on. -/
def waitUntil (job : String) (r : Relaying) (wake : Nat) : TaskProgram Unit := do
  let clock ← handOn job r.clock (r.due wake)
  pause (wake - clock)

end Relaying

/-- Runs a program while lines are handed on, as long as it pauses. -/
def alongside {α : Type} (job : String) : TaskProgram α → Relaying → TaskProgram (α × Relaying)
  | .done a, r => return (a, r)
  | .never, r => do
    let _ ← handOn job r.clock r.coming
    .never
  | .ask (.pause ms) next, r => do
    r.waitUntil job (r.clock + ms)
    alongside job (next ()) (r.after (r.clock + ms))
  | .ask .now next, r => do
    let t ← now
    alongside job (next t) (r.tell t)
  | .ask c next, r => do
    let x ← perform c
    alongside job (next x) r

end ClusterJobs
