import ClusterJobs.Decimal.Exact

/-!
# Durations

Spans of time in whole nanoseconds, with 64 bits for the seconds. They are multiplied as floats of
seconds, and a product is rounded to the nearest nanosecond again.
-/

namespace ClusterJobs

/-- The whole number nearest to a number that is not negative; of two that are as near, the even
one. -/
def Decimal.nearest (x : Rat) : Nat :=
  let n := x.num.toNat / x.den
  let rest := x.num.toNat % x.den
  if 2 * rest < x.den ∨ 2 * rest = x.den ∧ n % 2 = 0 then n else n + 1

/-- A span of time that is shorter than `2 ^ 64` seconds. -/
structure Duration where
  nanos : Nat
  bounded : nanos < 18446744073709551616 * 1000000000
deriving DecidableEq

namespace Duration

/-- A duration of whole milliseconds. -/
def ofMillis (ms : UInt64) : Duration :=
  ⟨ms.toNat * 1000000, by have := ms.toNat_lt; omega⟩

/-- The seconds of a duration: the whole ones and the fraction are rounded, and then their sum. -/
def seconds (d : Duration) : Float :=
  (d.nanos / 1000000000).toUInt64.toFloat + (d.nanos % 1000000000).toUInt64.toFloat / 1000000000.0

/-- The duration of so many seconds. There is none for what is negative, too long or no number. -/
def ofSeconds? (x : Float) : Option Duration :=
  if x < 0.0 then none
  else
    (Decimal.exactValue? x).bind fun seconds =>
      let nanos := Decimal.nearest (seconds * 1000000000)
      if h : nanos < 18446744073709551616 * 1000000000 then some ⟨nanos, h⟩ else none

/-- The whole milliseconds after which a duration is over. -/
def ticks (d : Duration) : Nat :=
  (d.nanos + 999999) / 1000000

/-- The smaller of two floats, or the one that is a number. -/
def lesser (x y : Float) : Float :=
  if x.isNaN then y else if y < x then y else x

/-- The product with a factor. -/
def stretch? (d : Duration) (factor : Float) : Option Duration :=
  ofSeconds? (d.seconds * factor)

/-- The product with a factor, or a longest duration if that is less. -/
def grow? (d : Duration) (factor : Float) (longest : Duration) : Option Duration :=
  ofSeconds? (lesser (d.seconds * factor) longest.seconds)

/-- Half a nanosecond goes to the even side. -/
example : (ofSeconds? 0.0009765625, ofSeconds? 0.0029296875, ofSeconds? (-0.0), ofSeconds? (-1e-9)) =
    (some ⟨976562, by decide⟩, some ⟨2929688, by decide⟩, some ⟨0, by decide⟩, none) := by
  decide +kernel

end Duration

end ClusterJobs
