/-!
# Numbers read from text

Whole numbers in a base, and decimals with an optional point and exponent. A decimal is read as the
float nearest to it.
-/

namespace ClusterJobs.Decimal

/-- The value of a digit in bases up to sixteen. -/
def digitValue? (c : Char) : Option Nat :=
  if '0' ≤ c && c ≤ '9' then some (c.toNat - '0'.toNat)
  else if 'a' ≤ c && c ≤ 'f' then some (c.toNat - 'a'.toNat + 10)
  else if 'A' ≤ c && c ≤ 'F' then some (c.toNat - 'A'.toNat + 10)
  else none

/-- The character is an ASCII digit. -/
def isDigit (c : Char) : Bool :=
  '0' ≤ c && c ≤ '9'

/-- Appends the digits of `cs` to the number `acc`; fails on anything that is no digit. -/
def readDigits (base : Nat) : Nat → List Char → Option Nat
  | acc, [] => some acc
  | acc, c :: cs => do
    let d ← digitValue? c
    if d < base then readDigits base (acc * base + d) cs else none

/-- A natural number in a base: at least one digit and nothing else. -/
def readNat? (base : Nat) : List Char → Option Nat
  | [] => none
  | cs => readDigits base 0 cs

/-- A whole number in a base with an optional sign. -/
def readInt? (base : Nat) : List Char → Option Int
  | '+' :: cs => (readNat? base cs).map Int.ofNat
  | '-' :: cs => (readNat? base cs).map (fun n => -(n : Int))
  | cs => (readNat? base cs).map Int.ofNat

/-- The whole numbers of a machine word. -/
structure WordRange where
  low : Int
  high : Int

/-- Signed words of 64 bits. -/
def WordRange.int64 : WordRange := ⟨-9223372036854775808, 9223372036854775807⟩

/-- Unsigned words of 64 bits. -/
def WordRange.uint64 : WordRange := ⟨0, 18446744073709551615⟩

/-- Signed words of 32 bits. -/
def WordRange.int32 : WordRange := ⟨-2147483648, 2147483647⟩

/-- Unsigned words of 32 bits. -/
def WordRange.uint32 : WordRange := ⟨0, 4294967295⟩

/-- Unsigned words of 16 bits. -/
def WordRange.uint16 : WordRange := ⟨0, 65535⟩

/-- The number lies in the range. -/
def WordRange.holds (r : WordRange) (n : Int) : Bool :=
  r.low ≤ n && n ≤ r.high

/-- A signed whole number in a base that fits the range. A minus sign is refused where the range
starts at zero. -/
def WordRange.read? (r : WordRange) (base : Nat) (cs : List Char) : Option Int :=
  if r.low ≥ 0 && cs.head? == some '-' then none
  else (readInt? base cs).filter r.holds

/-- A decimal before rounding: `digits · 10 ^ exponent`, where `count` digits were written. -/
structure Literal where
  negative : Bool
  digits : Nat
  count : Nat
  exponent : Int

/-- The float nearest to a literal. Far outside the range of floats the answer is infinity or zero
without forming the power. -/
def Literal.toFloat (l : Literal) : Float :=
  let magnitude : Float :=
    if l.digits == 0 then 0.0
    else if l.exponent > 400 then Float.ofBits 0x7FF0000000000000
    else if l.exponent + (l.count : Int) < -400 then 0.0
    else
      match l.exponent with
      | .ofNat e => Float.ofScientific l.digits false e
      | .negSucc e => Float.ofScientific l.digits true (e + 1)
  if l.negative then -magnitude else magnitude

/-- Splits off the leading digits. -/
def takeDigits (cs : List Char) : List Char × List Char :=
  (cs.takeWhile isDigit, cs.dropWhile isDigit)

/-- Reads an optional sign. -/
def takeSign : List Char → Bool × List Char
  | '-' :: cs => (true, cs)
  | '+' :: cs => (false, cs)
  | cs => (false, cs)

/-- The exponent part of a decimal: empty, or `e` or `E` with at least one digit. -/
def readExponent? : List Char → Option Int
  | [] => some 0
  | c :: cs =>
    if c == 'e' || c == 'E' then
      let (negative, rest) := takeSign cs
      (readNat? 10 rest).map (fun n => if negative then -(n : Int) else (n : Int))
    else none

/-- A decimal without a sign: digits, an optional point with digits, an optional exponent. At least
one digit stands before the exponent. -/
def readUnsigned? (negative : Bool) (cs : List Char) : Option Literal := do
  let (whole, rest) := takeDigits cs
  let (fraction, rest) := match rest with
    | '.' :: after => takeDigits after
    | _ => ([], rest)
  if whole.isEmpty && fraction.isEmpty then none
  else
    let e ← readExponent? rest
    let n ← readNat? 10 (whole ++ fraction)
    some ⟨negative, n, whole.length + fraction.length, e - (fraction.length : Int)⟩

/-- The ASCII letters in lower case. -/
def lowerAscii (cs : List Char) : List Char :=
  cs.map Char.toLower

/-- A float: an optional sign, then `inf`, `infinity` or `nan` in any case, or a decimal. -/
def readFloat? (cs : List Char) : Option Float :=
  let (negative, rest) := takeSign cs
  let word := lowerAscii rest
  if word == "inf".toList || word == "infinity".toList then
    some (Float.ofBits (if negative then 0xFFF0000000000000 else 0x7FF0000000000000))
  else if word == "nan".toList then
    some (Float.ofBits 0x7FF8000000000000)
  else
    (readUnsigned? negative rest).map Literal.toFloat

end ClusterJobs.Decimal
