import ClusterJobs.Cluster.Timestamp

/-!
# Instants

Moments of the wall clock, in nanoseconds since the start of 1970, and how they are written: as a date
and a time of day in universal time, with as many digits of a second as are needed in groups of three.
-/

namespace ClusterJobs

/-- A moment, in nanoseconds since the start of 1970. -/
structure Instant where
  nanos : Int
deriving DecidableEq, Repr

/-- The date that is this many days after the start of 1970. Years are counted from March, so that a
leap day ends its year, and in groups of 400, which all have the same number of days. -/
def Date.ofDays (days : Int) : Date :=
  let shifted := days + 719468
  let group := shifted / 146097
  let dayOfGroup := (shifted % 146097).toNat
  let yearOfGroup := (dayOfGroup - dayOfGroup / 1460 + dayOfGroup / 36524 - dayOfGroup / 146096) / 365
  let dayOfYear := dayOfGroup - (365 * yearOfGroup + yearOfGroup / 4 - yearOfGroup / 100)
  let monthFromMarch := (5 * dayOfYear + 2) / 153
  let month := if monthFromMarch < 10 then monthFromMarch + 3 else monthFromMarch - 9
  ⟨yearOfGroup + group * 400 + (if month ≤ 2 then 1 else 0), month,
    dayOfYear - (153 * monthFromMarch + 2) / 5 + 1⟩

namespace Instant

open Timestamp (padded)

/-- The year, with a sign if it has more than four digits or lies before the year 0. -/
def yearText (year : Int) : String :=
  if 0 ≤ year ∧ year ≤ 9999 then padded 4 year.toNat
  else (if year < 0 then "-" else "+") ++ padded 4 year.natAbs

/-- The part of a second, in nanoseconds. -/
def fractionText (nanos : Nat) : String :=
  if nanos = 0 then ""
  else if nanos % 1000000 = 0 then "." ++ padded 3 (nanos / 1000000)
  else if nanos % 1000 = 0 then "." ++ padded 6 (nanos / 1000)
  else "." ++ padded 9 nanos

/-- The moment as it is written. -/
def text (t : Instant) : String :=
  let seconds := t.nanos / 1000000000
  let date := Date.ofDays (seconds / 86400)
  let time := (seconds % 86400).toNat
  yearText date.year ++ "-" ++ padded 2 date.month ++ "-" ++ padded 2 date.day ++ "T" ++
    padded 2 (time / 3600) ++ ":" ++ padded 2 (time / 60 % 60) ++ ":" ++ padded 2 (time % 60) ++
    fractionText (t.nanos % 1000000000).toNat ++ "Z"

example : text ⟨1709210096789000000⟩ = "2024-02-29T12:34:56.789Z" := by
  decide +kernel

end Instant

end ClusterJobs
