import ClusterJobs.Decimal.Reading
import ClusterJobs.Json.Value

/-!
# Reading JSON

`Value.parse?` reads a text that holds exactly one value. Nesting is limited to 127 levels, a number
beyond the range of floats is refused, and of two members with one name the later one stays.
-/

namespace ClusterJobs.Json

/-- The white space of JSON. -/
def isSpace (c : Char) : Bool :=
  c == ' ' || c == '\t' || c == '\n' || c == '\r'

/-- The text from its first character that is no white space. -/
def skipSpace (cs : List Char) : List Char :=
  cs.dropWhile isSpace

/-- The number written by four hexadecimal digits at the front. -/
def hexQuad? : List Char → Option (Nat × List Char)
  | a :: b :: c :: d :: rest => (Decimal.readNat? 16 [a, b, c, d]).map (·, rest)
  | _ => none

/-- The character of an escape of one letter. -/
def simpleEscape? (c : Char) : Option Char :=
  match c with
  | '"' => some '"'
  | '\\' => some '\\'
  | '/' => some '/'
  | 'b' => some (Char.ofNat 0x8)
  | 'f' => some (Char.ofNat 0xC)
  | 'n' => some '\n'
  | 'r' => some '\r'
  | 't' => some '\t'
  | _ => none

/-- The character written by `\u` escapes: one unit, or two that form a surrogate pair. A unit of a
pair that stands alone is refused. -/
def unicodeEscape? (cs : List Char) : Option (Char × List Char) := do
  let (unit, rest) ← hexQuad? cs
  if 0xDC00 ≤ unit && unit ≤ 0xDFFF then none
  else if 0xD800 ≤ unit && unit ≤ 0xDBFF then
    match rest with
    | '\\' :: 'u' :: more => do
      let (low, rest) ← hexQuad? more
      if 0xDC00 ≤ low && low ≤ 0xDFFF then
        some (Char.ofNat (0x10000 + (unit - 0xD800) * 0x400 + (low - 0xDC00)), rest)
      else none
    | _ => none
  else some (Char.ofNat unit, rest)

/-- Reads up to the closing quote. `fuel` bounds the number of characters. -/
def readText : Nat → List Char → List Char → Option (List Char × List Char)
  | 0, _, _ => none
  | _, _, [] => none
  | fuel + 1, done, c :: cs =>
    if c == '"' then some (done.reverse, cs)
    else if c == '\\' then
      match cs with
      | 'u' :: rest =>
        match unicodeEscape? rest with
        | some (u, rest) => readText fuel (u :: done) rest
        | none => none
      | e :: rest =>
        match simpleEscape? e with
        | some u => readText fuel (u :: done) rest
        | none => none
      | [] => none
    else if c.toNat < 0x20 then none
    else readText fuel (c :: done) cs

/-- The digits of the whole part: `0` alone, or no leading zero. -/
def wholeDigits? (cs : List Char) : Option (List Char × List Char) :=
  match Decimal.takeDigits cs with
  | ([], _) => none
  | ('0' :: _ :: _, _) => none
  | (ds, rest) => some (ds, rest)

/-- The fraction: empty, or a point and at least one digit. -/
def fractionDigits? : List Char → Option (Option (List Char) × List Char)
  | '.' :: cs =>
    match Decimal.takeDigits cs with
    | ([], _) => none
    | (ds, rest) => some (some ds, rest)
  | cs => some (none, cs)

/-- The exponent: empty, or `e` or `E`, a sign and at least one digit. -/
def exponentPart? : List Char → Option (Option Int × List Char)
  | [] => some (none, [])
  | c :: cs =>
    if c == 'e' || c == 'E' then
      let (negative, rest) := Decimal.takeSign cs
      let (ds, rest) := Decimal.takeDigits rest
      (Decimal.readNat? 10 ds).map fun n =>
        (some (if negative then -(n : Int) else (n : Int)), rest)
    else some (none, c :: cs)

/-- Appends digits to a word of 64 bits for as long as it has room for the next one. Answers the word
and the digits left over. -/
def packDigits : Nat → List Char → Nat × List Char
  | word, [] => (word, [])
  | word, c :: cs =>
    let next := word * 10 + (c.toNat - '0'.toNat)
    if next ≤ 18446744073709551615 then packDigits next cs else (word, c :: cs)

/-- A float times a power of ten, by one product or quotient for a power within the range of floats.
A lower power is reached in steps, each of them rounded. -/
def scaled (x : Float) (exponent : Int) : Float :=
  let power := Float.ofScientific 1 false exponent.natAbs
  if exponent.natAbs ≤ 308 then
    if 0 ≤ exponent then x * power else x / power
  else if x == 0.0 then x
  else if 0 ≤ exponent then Float.ofBits 0x7FF0000000000000
  else scaled (x / Float.ofScientific 1 false 308) (exponent + 308)
termination_by (-exponent).toNat

/-- A number. Whole numbers that fit a word of 64 bits stay whole; `-0` and longer ones are floats. A
float is scaled from the leading digits that fit a word, so it may be off the nearest one by its last
place: the digits of the whole part that do not fit count as zeros, those of the fraction are
dropped. -/
def readNumber (cs : List Char) : Option (Value × List Char) := do
  let (negative, rest) := match cs with
    | '-' :: rest => (true, rest)
    | _ => (false, cs)
  let (whole, rest) ← wholeDigits? rest
  let (fraction, rest) ← fractionDigits? rest
  let (exponent, rest) ← exponentPart? rest
  let (high, zeros) := packDigits 0 whole
  let (word, dropped) := packDigits high (fraction.getD [])
  let fits := zeros.isEmpty && (!negative || (word ≠ 0 && word ≤ 9223372036854775808))
  if fraction.isNone && exponent.isNone && fits then
    some (.int (if negative then -(word : Int) else (word : Int)), rest)
  else
    let places : Int := (fraction.getD []).length - dropped.length
    let magnitude := scaled word.toUInt64.toFloat (exponent.getD 0 + zeros.length - places)
    let x := if negative then -magnitude else magnitude
    if x.isFinite then some (.float x, rest) else none

mutual

/-- Reads one value. `depth` is the nesting still allowed, `fuel` bounds the number of steps. -/
def readValue (depth : Nat) : Nat → List Char → Option (Value × List Char)
  | 0, _ => none
  | fuel + 1, cs =>
    match skipSpace cs with
    | 'n' :: 'u' :: 'l' :: 'l' :: rest => some (.null, rest)
    | 't' :: 'r' :: 'u' :: 'e' :: rest => some (.bool true, rest)
    | 'f' :: 'a' :: 'l' :: 's' :: 'e' :: rest => some (.bool false, rest)
    | '"' :: rest => (readText (rest.length + 1) [] rest).map fun p => (.str (String.ofList p.1), p.2)
    | '[' :: rest =>
      match depth with
      | 0 => none
      | depth + 1 =>
        match skipSpace rest with
        | ']' :: rest => some (.arr [], rest)
        | rest => readItems depth fuel [] rest
    | '\x7b' :: rest =>
      match depth with
      | 0 => none
      | depth + 1 =>
        match skipSpace rest with
        | '\x7d' :: rest => some (.obj [], rest)
        | rest => readMembers depth fuel [] rest
    | rest => readNumber rest

/-- Reads the items of an array up to its end. -/
def readItems (depth : Nat) : Nat → List Value → List Char → Option (Value × List Char)
  | 0, _, _ => none
  | fuel + 1, done, cs =>
    match readValue depth fuel cs with
    | none => none
    | some (v, rest) =>
      match skipSpace rest with
      | ',' :: rest => readItems depth fuel (v :: done) rest
      | ']' :: rest => some (.arr (v :: done).reverse, rest)
      | _ => none

/-- Reads the members of an object up to its end. -/
def readMembers (depth : Nat) : Nat → List (String × Value) → List Char → Option (Value × List Char)
  | 0, _, _ => none
  | fuel + 1, done, cs =>
    match skipSpace cs with
    | '"' :: rest =>
      match readText (rest.length + 1) [] rest with
      | none => none
      | some (name, rest) =>
        match skipSpace rest with
        | ':' :: rest =>
          match readValue depth fuel rest with
          | none => none
          | some (v, rest) =>
            let done := (String.ofList name, v) :: done
            match skipSpace rest with
            | ',' :: rest => readMembers depth fuel done rest
            | '\x7d' :: rest => some (.object done.reverse, rest)
            | _ => none
        | _ => none
    | _ => none

end

/-- Reads a text that holds exactly one value. -/
def Value.parse? (s : String) : Option Value :=
  let cs := s.toList
  match readValue 127 (cs.length + 1) cs with
  | some (v, rest) => if (skipSpace rest).isEmpty then some v else none
  | none => none

end ClusterJobs.Json
