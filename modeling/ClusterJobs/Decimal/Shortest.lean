/-!
# The shortest decimal of a binary fraction

A 64-bit float stands for a rational `m · 2^q`, and every real in an interval around that rational
reads back to the same float. `Binary.shortest` finds the decimal of fewest digits in the interval
and, among those, the one nearest to the rational. All arithmetic is exact on `Nat`.
-/

namespace ClusterJobs.Decimal

/-- What the bits of a 64-bit float say: no number, an infinity, or `± mantissa · 2 ^ exponent`. -/
inductive Binary where
  | notANumber
  | infinite (negative : Bool)
  | finite (negative : Bool) (mantissa : Nat) (exponent : Int)
deriving DecidableEq, Repr

/-- Reads the sign, the eleven exponent bits and the fifty-two fraction bits. -/
def Binary.ofFloat (x : Float) : Binary :=
  let bits : Nat := x.toBits.toNat
  let negative := bits / Nat.pow 2 63 == 1
  let biased : Nat := bits / Nat.pow 2 52 % Nat.pow 2 11
  let fraction : Nat := bits % Nat.pow 2 52
  if biased == 2047 then
    if fraction == 0 then .infinite negative else .notANumber
  else if biased == 0 then
    .finite negative fraction (-1074)
  else
    .finite negative (Nat.pow 2 52 + fraction) ((biased : Int) - 1075)

/-- An unsigned decimal: `digits · 10 ^ exponent`. -/
structure Digits where
  digits : Nat
  exponent : Int
deriving DecidableEq, Repr

/-- A fraction of two naturals; the denominators used here are powers of two and never zero. -/
structure Ratio where
  num : Nat
  den : Nat

/-- `n · 2 ^ q` as a fraction. -/
def Ratio.scaled (n : Nat) (q : Int) : Ratio :=
  match q with
  | .ofNat k => ⟨n * Nat.pow 2 k, 1⟩
  | .negSucc k => ⟨n, Nat.pow 2 (k + 1)⟩

/-- The whole number of steps of size `10 ^ k` in a fraction, rounded down. -/
def Ratio.steps (r : Ratio) (k : Int) : Nat :=
  match k with
  | .ofNat k => r.num / (r.den * Nat.pow 10 k)
  | .negSucc k => r.num * Nat.pow 10 (k + 1) / r.den

/-- How `n` steps of size `10 ^ k` compare with a fraction: both sides brought to one scale. -/
def Ratio.scaledPair (r : Ratio) (n : Nat) (k : Int) : Nat × Nat :=
  match k with
  | .ofNat k => (n * Nat.pow 10 k * r.den, r.num)
  | .negSucc k => (n * r.den, r.num * Nat.pow 10 (k + 1))

/-- The reals that read back to the float `mantissa · 2 ^ exponent`. The ends belong to the interval
iff the mantissa is even; the lower half-gap is smaller at a power of two. -/
structure Interval where
  low : Ratio
  value : Ratio
  high : Ratio
  closed : Bool

/-- The rounding interval of a positive finite float. -/
def Interval.ofBinary (mantissa : Nat) (exponent : Int) : Interval :=
  let lowGap := if mantissa == Nat.pow 2 52 && exponent > -1074 then 1 else 2
  { low := .scaled (4 * mantissa - lowGap) (exponent - 2)
    value := .scaled (4 * mantissa) (exponent - 2)
    high := .scaled (4 * mantissa + 2) (exponent - 2)
    closed := mantissa % 2 == 0 }

/-- Whether `n · 10 ^ k` lies in the interval. -/
def Interval.holds (i : Interval) (n : Nat) (k : Int) : Bool :=
  let (a, low) := i.low.scaledPair n k
  let (b, high) := i.high.scaledPair n k
  if i.closed then low ≤ a && b ≤ high else low < a && b < high

/-- The exponent of the leading decimal digit of a positive fraction above `10 ^ (-330)`. -/
def Ratio.leadingExponent (r : Ratio) : Int :=
  ((Nat.toDigits 10 (r.num * Nat.pow 10 330 / r.den)).length : Int) - 331

/-- Of the two neighbours of the value on the grid `10 ^ k`, the one in the interval; the nearer if
both are, and the even one if they are equally near. -/
def Interval.onGrid? (i : Interval) (k : Int) : Option Nat :=
  let below := i.value.steps k
  let above := below + 1
  match below != 0 && i.holds below k, i.holds above k with
  | true, false => some below
  | false, true => some above
  | false, false => none
  | true, true =>
    let (a, v) := i.value.scaledPair below k
    let (b, w) := i.value.scaledPair above k
    if v - a < b - w then some below
    else if b - w < v - a then some above
    else if below % 2 == 0 then some below else some above

/-- The first grid, from one digit on, that has a point in the interval. -/
def Interval.search (i : Interval) (lead : Int) : Nat → Nat → Digits
  | _, 0 => ⟨i.value.steps (lead - 17), lead - 17⟩
  | count, fuel + 1 =>
    let k := lead - count
    match i.onGrid? k with
    | some n => ⟨n, k⟩
    | none => i.search lead (count + 1) fuel

/-- Moves trailing zeros of the digits into the exponent. -/
def Digits.stripZeros : Nat → Digits → Digits
  | 0, d => d
  | fuel + 1, d =>
    if d.digits != 0 && d.digits % 10 == 0 then stripZeros fuel ⟨d.digits / 10, d.exponent + 1⟩
    else d

/-- The shortest decimal that reads back to `mantissa · 2 ^ exponent`; zero is the digit 0. -/
def shortest (mantissa : Nat) (exponent : Int) : Digits :=
  if mantissa == 0 then ⟨0, 0⟩
  else
    let i := Interval.ofBinary mantissa exponent
    (i.search i.value.leadingExponent 0 18).stripZeros 20

end ClusterJobs.Decimal
