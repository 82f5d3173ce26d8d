import ClusterJobs.Duration

/-!
# Retrying with backoff

An operation is attempted until it succeeds, the attempts run out or a token fires. Between attempts
there is a pause that grows by a factor up to a longest one, and is stretched or shortened by a jitter.
Attempts are counted in 32 bits, and pauses are multiplied as floats. The loop is the same for numbers
without such limits.
-/

namespace ClusterJobs

/-- What attempts are counted with, and how a delay is multiplied. A product that is no delay is
`none`. -/
class Pacing (δ : Type) (φ : outParam Type) where
  /-- So many attempts can be counted. -/
  counts : Nat → Bool
  /-- A delay times the jitter. -/
  stretch? : δ → φ → Option δ
  /-- A delay times the factor, or the longest delay if that is less. -/
  grow? : δ → φ → δ → Option δ
  /-- The whole milliseconds after which a pause is over. -/
  ticks : δ → Nat

instance : Pacing Duration Float where
  counts n := n < 4294967296
  stretch? := Duration.stretch?
  grow? := Duration.grow?
  ticks := Duration.ticks

/-- How often and after which pauses an operation is attempted. -/
structure Backoff (δ φ : Type) where
  /-- The number of attempts; zero is no bound. -/
  maxAttempts : UInt32
  /-- The pause after the first failure. -/
  initialDelay : δ
  maxDelay : δ
  /-- The growth of the pause after each failure. -/
  multiplier : φ
deriving DecidableEq

/-- A backoff on the clock of a machine. -/
abbrev ClockBackoff := Backoff Duration Float

/-- Half a second at first, ten seconds at most, without a bound on the attempts. -/
def Backoff.standard : ClockBackoff := ⟨0, .ofMillis 500, .ofMillis 10000, 2.0⟩

/-- How a retried operation ended. -/
inductive Retried (α ε : Type) where
  | succeeded (a : α)
  /-- The last permitted attempt failed. -/
  | exhausted (e : ε)
  | cancelled
deriving DecidableEq, Repr

/-- What a retried operation depends on besides its own results. -/
structure RetryWorld (φ : Type) where
  /-- When the token fires, if it does. -/
  firesAt : Option Nat
  /-- The factor for the pause after each attempt. -/
  jitter : Nat → φ
  /-- Where the token fires just when something else is ready, whether the token wins. Each attempt has
  two such races: one with the operation and one with the pause after it. -/
  tokenWins : Nat → Bool

/-- What an attempt comes to: how long it takes, and its result. An attempt may never end. -/
abbrev Attempt (α ε : Type) := Option (Nat × Except ε α)

namespace RetryWorld

variable {φ : Type}

/-- The token has fired by the time `t` and wins a race with what is ready at once. -/
def beatenAtOnce (w : RetryWorld φ) (race t : Nat) : Bool :=
  match w.firesAt with
  | none => false
  | some f => f ≤ t && w.tokenWins race

/-- The token comes before what is waited for from the time `t` on and ready at the time `ready`. -/
def beaten (w : RetryWorld φ) (race t ready : Nat) : Bool :=
  match w.firesAt with
  | none => false
  | some f => max t f < ready || (max t f == ready && w.tokenWins race)

/-- The time at which a run that the token ends at or after `t` is over. -/
def cancelTime (w : RetryWorld φ) (t : Nat) : Nat :=
  max t (w.firesAt.getD t)

end RetryWorld

/-- A retried operation: how it ended, the number of attempts made, and when it was over. It fails itself
and has no result when a pause is no delay or when its attempts cannot be counted. -/
structure RetryRun (α ε : Type) where
  result : Option (Retried α ε)
  attempts : Nat
  endedAt : Nat
deriving DecidableEq

namespace Backoff

variable {α ε δ φ : Type} [Pacing δ φ]

/-- The time at which a pause that starts at `t` is over. Clocks tick in whole milliseconds. -/
def wake (t : Nat) (pause : δ) : Nat :=
  t + Pacing.ticks pause

/-- No more attempts are permitted after attempt `k`. -/
def isLast (b : Backoff δ φ) (k : Nat) : Bool :=
  b.maxAttempts > 0 && k + 1 ≥ b.maxAttempts.toNat

/-- What follows the failure of attempt `k` at the time `ended`: the end of the run, or the next delay
and the time of the next attempt. -/
def afterFailure (b : Backoff δ φ) (w : RetryWorld φ) (k : Nat) (delay : δ) (ended : Nat) (e : ε) :
    Except (RetryRun α ε) (δ × Nat) :=
  if b.isLast k then .error ⟨some (.exhausted e), k + 1, ended⟩
  else
    match Pacing.stretch? delay (w.jitter k) with
    | none => .error ⟨none, k + 1, ended⟩
    | some pause =>
      let ready := wake ended pause
      if w.beaten (2 * k + 1) ended ready then .error ⟨some .cancelled, k + 1, w.cancelTime ended⟩
      else
        match Pacing.grow? delay b.multiplier b.maxDelay with
        | none => .error ⟨none, k + 1, ready⟩
        | some next => .ok (next, ready)

/-- Retries an operation from attempt `k` on at the time `t`, with the delay that is due after it. There
is nothing to tell if it goes on forever, or if `fuel` runs out first. -/
def retryFrom (b : Backoff δ φ) (w : RetryWorld φ) (attempt : Nat → Attempt α ε) :
    Nat → Nat → δ → Nat → Option (RetryRun α ε)
  | 0, _, _, _ => none
  | fuel + 1, k, delay, t =>
    if !Pacing.counts δ (k + 1) then some ⟨none, k, t⟩
    else if w.beatenAtOnce (2 * k) t then some ⟨some .cancelled, k, t⟩
    else
      match attempt k with
      | none => w.firesAt.map fun f => ⟨some .cancelled, k + 1, max t f⟩
      | some (takes, result) =>
        let ended := t + takes
        if w.beaten (2 * k) t ended then some ⟨some .cancelled, k + 1, w.cancelTime t⟩
        else
          match result with
          | .ok a => some ⟨some (.succeeded a), k + 1, ended⟩
          | .error e =>
            match b.afterFailure w k delay ended e with
            | .error run => some run
            | .ok (next, ready) => b.retryFrom w attempt fuel (k + 1) next ready

/-- Retries an operation from the time `t` on. -/
def retry (b : Backoff δ φ) (w : RetryWorld φ) (attempt : Nat → Attempt α ε) (fuel t : Nat) :
    Option (RetryRun α ε) :=
  b.retryFrom w attempt fuel 0 b.initialDelay t

end Backoff

end ClusterJobs
