import ClusterJobs.Decimal.Shortest

/-!
# How a float is written

The digits come from `Decimal.shortest`; a `Layout` holds a format's own decisions: from where on
an exponent is written, whether a whole number keeps a `.0`, and the words for what is no number.
-/

namespace ClusterJobs.Decimal

/-- The decisions of one output format. -/
structure Layout where
  /-- The exponents of the leading digit that are written without an exponent; `none` is all. -/
  positional : Option (Int × Int)
  /-- Whole numbers in positional form end in `.0`. -/
  keepsPoint : Bool
  /-- What stands before a non-negative exponent. -/
  positiveMark : String
  infinity : String
  negativeInfinity : String
  notANumber : String

/-- Plain decimals: never an exponent, and whole numbers without a point. -/
def Layout.plain : Layout :=
  ⟨none, false, "", "inf", "-inf", "NaN"⟩

/-- Numbers in structured text: an exponent below `10 ^ (-5)` and from `10 ^ 16` on, written with
its sign. -/
def Layout.signedExponent : Layout :=
  ⟨some (-5, 15), true, "+", "null", "null", "null"⟩

/-- Numbers in block text: as in structured text, with no sign before a positive exponent. -/
def Layout.bareExponent : Layout :=
  ⟨some (-5, 15), true, "", ".inf", "-.inf", ".nan"⟩

/-- `n` zeros. -/
def zeros (n : Nat) : List Char :=
  List.replicate n '0'

/-- The digits with the point at its place, without an exponent. -/
def positionalText (keepsPoint : Bool) (d : Digits) : List Char :=
  let ds := Nat.toDigits 10 d.digits
  match d.exponent with
  | .ofNat k => ds ++ zeros k ++ (if keepsPoint then ['.', '0'] else [])
  | .negSucc k =>
    let places := k + 1
    if places < ds.length then
      ds.take (ds.length - places) ++ '.' :: ds.drop (ds.length - places)
    else
      '0' :: '.' :: zeros (places - ds.length) ++ ds

/-- One digit, the others behind a point, and the exponent of the first. -/
def exponentText (positiveMark : String) (d : Digits) : List Char :=
  let ds := Nat.toDigits 10 d.digits
  let e := d.exponent + (ds.length : Int) - 1
  let mark := if e < 0 then ['-'] else positiveMark.toList
  let whole := match ds with
    | [] => []
    | [c] => [c]
    | c :: rest => c :: '.' :: rest
  whole ++ 'e' :: mark ++ Nat.toDigits 10 e.natAbs

/-- The unsigned text of a decimal in a layout. -/
def Layout.unsigned (l : Layout) (d : Digits) : List Char :=
  let e := d.exponent + ((Nat.toDigits 10 d.digits).length : Int) - 1
  match l.positional with
  | none => positionalText l.keepsPoint d
  | some (low, high) =>
    if low ≤ e && e ≤ high then positionalText l.keepsPoint d
    else exponentText l.positiveMark d

/-- The text of a float in a layout. -/
def Layout.render (l : Layout) (x : Float) : String :=
  match Binary.ofFloat x with
  | .notANumber => l.notANumber
  | .infinite negative => if negative then l.negativeInfinity else l.infinity
  | .finite negative m q =>
    String.ofList ((if negative then ['-'] else []) ++ l.unsigned (shortest m q))

/-- The plain decimal text of a float, for messages and quantities. -/
def plainText (x : Float) : String :=
  Layout.plain.render x

end ClusterJobs.Decimal
