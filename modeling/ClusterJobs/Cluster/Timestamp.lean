import ClusterJobs.Decimal.Reading

/-!
# Timestamps

A cluster writes a moment as a date, a time and an offset. Moments are kept to the second and in
universal time, so that one moment has one text.
-/

namespace ClusterJobs

/-- A date of the Gregorian calendar. -/
structure Date where
  year : Int
  month : Nat
  day : Nat
deriving DecidableEq, Repr

namespace Date

def isLeapYear (y : Int) : Bool :=
  y % 4 == 0 && (y % 100 != 0 || y % 400 == 0)

/-- The number of days of a month. -/
def monthLength (y : Int) (m : Nat) : Nat :=
  if m == 2 then (if isLeapYear y then 29 else 28)
  else if m == 4 || m == 6 || m == 9 || m == 11 then 30
  else 31

/-- The date exists. -/
def isValid (d : Date) : Bool :=
  1 ≤ d.month && d.month ≤ 12 && 1 ≤ d.day && d.day ≤ monthLength d.year d.month

/-- The day after. -/
def next (d : Date) : Date :=
  if d.day < monthLength d.year d.month then { d with day := d.day + 1 }
  else if d.month < 12 then ⟨d.year, d.month + 1, 1⟩
  else ⟨d.year + 1, 1, 1⟩

/-- The day before. -/
def previous (d : Date) : Date :=
  if d.day > 1 then { d with day := d.day - 1 }
  else if d.month > 1 then ⟨d.year, d.month - 1, monthLength d.year (d.month - 1)⟩
  else ⟨d.year - 1, 12, 31⟩

end Date

/-- A moment in universal time, to the second. -/
structure Timestamp where
  date : Date
  /-- Minutes since midnight. -/
  minute : Nat
  second : Nat
deriving DecidableEq, Repr

namespace Timestamp

/-- The moment that a clock ahead of universal time by `offset` minutes, less than a day, shows as the
given date and minute. -/
def ofLocal (date : Date) (minute second : Nat) (offset : Int) : Timestamp :=
  let m := (minute : Int) - offset
  if m < 0 then ⟨date.previous, (m + 1440).toNat, second⟩
  else if m ≥ 1440 then ⟨date.next, (m - 1440).toNat, second⟩
  else ⟨date, m.toNat, second⟩

/-! ## Texts -/

/-- Takes a number of exactly `n` digits off the front. -/
def takeNumber? (n : Nat) (cs : List Char) : Option (Nat × List Char) :=
  let ds := cs.take n
  if ds.length == n && ds.all Decimal.isDigit then
    (Decimal.readNat? 10 ds).map (·, cs.drop n)
  else none

/-- Takes a character that satisfies `p` off the front. -/
def takeMark? (p : Char → Bool) : List Char → Option (List Char)
  | c :: cs => if p c then some cs else none
  | [] => none

/-- Drops a fraction of a second. -/
def dropFraction? : List Char → Option (List Char)
  | '.' :: cs =>
    match Decimal.takeDigits cs with
    | ([], _) => none
    | (_, rest) => some rest
  | cs => some cs

/-- The offset at the end of a timestamp, in minutes. -/
def readOffset? (cs : List Char) : Option Int :=
  match cs with
  | ['Z'] | ['z'] => some 0
  | sign :: rest => do
    let (hours, rest) ← takeNumber? 2 rest
    let rest := (takeMark? (· == ':') rest).getD rest
    let (minutes, rest) ← takeNumber? 2 rest
    if !rest.isEmpty || hours > 23 || minutes > 59 then none
    else if sign == '+' then some (hours * 60 + minutes)
    else if sign == '-' then some (-(hours * 60 + minutes))
    else none
  | [] => none

/-- Reads a timestamp. -/
def read? (s : String) : Option Timestamp := do
  let (year, cs) ← takeNumber? 4 s.toList
  let cs ← takeMark? (· == '-') cs
  let (month, cs) ← takeNumber? 2 cs
  let cs ← takeMark? (· == '-') cs
  let (day, cs) ← takeNumber? 2 cs
  let cs ← takeMark? (fun c => c == 'T' || c == 't' || c == ' ') cs
  let (hour, cs) ← takeNumber? 2 cs
  let cs ← takeMark? (· == ':') cs
  let (minute, cs) ← takeNumber? 2 cs
  let cs ← takeMark? (· == ':') cs
  let (second, cs) ← takeNumber? 2 cs
  let cs ← dropFraction? cs
  let offset ← readOffset? cs
  let date : Date := ⟨year, month, day⟩
  if date.isValid && hour < 24 && minute < 60 && second ≤ 60 then
    some (ofLocal date (hour * 60 + minute) second offset)
  else none

/-- A number with leading zeros. -/
def padded (width n : Nat) : String :=
  let ds := Nat.toDigits 10 n
  String.ofList (List.replicate (width - ds.length) '0' ++ ds)

/-- The text of a moment. -/
def render (t : Timestamp) : String :=
  padded 4 t.date.year.toNat ++ "-" ++ padded 2 t.date.month ++ "-" ++ padded 2 t.date.day ++ "T" ++
    padded 2 (t.minute / 60) ++ ":" ++ padded 2 (t.minute % 60) ++ ":" ++ padded 2 t.second ++ "Z"

end Timestamp

end ClusterJobs
