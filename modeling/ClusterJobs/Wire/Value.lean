import ClusterJobs.Decimal.Reading
import ClusterJobs.Json.Value

/-!
# Values as they arrive

Requests and settings arrive as JSON or as YAML. In JSON every scalar has a type of its own. In YAML a
scalar without quotes has none: `5` is a text where a text is wanted and a number where a number is
wanted. `Wire` keeps such a scalar as it was written, and `Wire.settle` gives it the type it has when
nothing in particular is wanted.
-/

namespace ClusterJobs

/-- A value from JSON or YAML. `plain` is a YAML scalar without quotes, and `sequence` a YAML list,
which cannot stand for a record. -/
inductive Wire where
  | null
  | bool (b : Bool)
  | int (n : Int)
  | float (x : Float)
  | text (s : String)
  | plain (s : String)
  | list (items : List Wire)
  | sequence (items : List Wire)
  | map (entries : List (Wire × Wire))
deriving Inhabited

namespace Wire

mutual

/-- A JSON value as it arrives. -/
def ofJson : Json.Value → Wire
  | .null => .null
  | .bool b => .bool b
  | .int n => .int n
  | .float x => .float x
  | .str s => .text s
  | .arr items => .list (ofJsonItems items)
  | .obj members => .map (ofJsonMembers members)

/-- The items of a JSON array. -/
def ofJsonItems : List Json.Value → List Wire
  | [] => []
  | v :: rest => ofJson v :: ofJsonItems rest

/-- The members of a JSON object. -/
def ofJsonMembers : List (String × Json.Value) → List (Wire × Wire)
  | [] => []
  | (k, v) :: rest => (.text k, ofJson v) :: ofJsonMembers rest

end

/-! ## What a plain scalar says -/

/-- The scalar stands for no value. -/
def saysNull (s : String) : Bool :=
  s == "" || s == "~" || s == "null" || s == "Null" || s == "NULL"

/-- The truth value that the scalar spells. -/
def saysBool? (s : String) : Option Bool :=
  if s == "true" || s == "True" || s == "TRUE" then some true
  else if s == "false" || s == "False" || s == "FALSE" then some false
  else none

/-- The first character is a sign. -/
def startsSigned : List Char → Bool
  | c :: _ => c == '+' || c == '-'
  | [] => false

/-- Digits with a leading zero: a text, not a number. -/
def zeroPadded (cs : List Char) : Bool :=
  let ds := (Decimal.takeSign cs).2
  ds.length > 1 && ds.head? == some '0' && ds.all Decimal.isDigit

/-- A natural number with a base mark (`0x`, `0o`, `0b`); the mark itself says the base. -/
def basedNat? : List Char → Option Nat
  | '0' :: 'x' :: rest => Decimal.readNat? 16 rest
  | '0' :: 'o' :: rest => Decimal.readNat? 8 rest
  | '0' :: 'b' :: rest => Decimal.readNat? 2 rest
  | _ => none

/-- The whole number that the scalar spells: with a base mark, or in decimal without leading zeros. -/
def saysInt? (s : String) : Option Int :=
  let cs := s.toList
  let (negative, rest) := Decimal.takeSign cs
  let sign : Nat → Int := fun n => if negative then -(n : Int) else (n : Int)
  match basedNat? rest with
  | some n => some (sign n)
  | none =>
    if zeroPadded cs then none
    else (Decimal.readNat? 10 rest).map sign

/-- The float that the scalar spells: a finite decimal, `.inf` or `.nan`. -/
def saysFloat? (s : String) : Option Float :=
  let cs := s.toList
  let (negative, rest) := Decimal.takeSign cs
  let word := String.ofList rest
  if word == ".inf" || word == ".Inf" || word == ".INF" then
    some (Float.ofBits (if negative then 0xFFF0000000000000 else 0x7FF0000000000000))
  else if s == ".nan" || s == ".NaN" || s == ".NAN" then
    some (Float.ofBits 0x7FF8000000000000)
  else if startsSigned rest then none
  else (Decimal.readFloat? cs).filter Float.isFinite

/-- The value of a plain scalar when nothing in particular is wanted. -/
def ofPlain (s : String) : Wire :=
  if saysNull s then .null
  else
    match saysBool? s with
    | some b => .bool b
    | none =>
      match (saysInt? s).filter fun n => Decimal.WordRange.int64.holds n ||
          Decimal.WordRange.uint64.holds n with
      | some n => .int n
      | none =>
        if zeroPadded s.toList then .text s
        else
          match saysFloat? s with
          | some x => .float x
          | none => .text s

mutual

/-- Gives every plain scalar its own type, and makes sequences lists. -/
def settle : Wire → Wire
  | .plain s => ofPlain s
  | .list items => .list (settleItems items)
  | .sequence items => .list (settleItems items)
  | .map entries => .map (settleEntries entries)
  | w => w

/-- Settles the items of a list. -/
def settleItems : List Wire → List Wire
  | [] => []
  | w :: rest => settle w :: settleItems rest

/-- Settles keys and values of a map. -/
def settleEntries : List (Wire × Wire) → List (Wire × Wire)
  | [] => []
  | (k, v) :: rest => (settle k, settle v) :: settleEntries rest

end

end Wire

end ClusterJobs
