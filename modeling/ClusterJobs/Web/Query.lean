import ClusterJobs.Text.Blank

/-!
# Queries

The query of a request is a list of names with values, written like a submitted form: a space as `+`,
letters, digits and `*-._` as they are, and every other byte as `%` with two hexadecimal digits.
-/

namespace ClusterJobs.Web

/-- A hexadecimal digit in upper case. -/
def hexDigit (n : Nat) : Char :=
  (Nat.digitChar n).toUpper

/-- The byte stands for itself in a form. -/
def isPlainByte (b : UInt8) : Bool :=
  let c := Char.ofNat b.toNat
  b < 0x80 && (c.isAlphanum || c == '*' || c == '-' || c == '.' || c == '_')

/-- A byte in a form. -/
def formByte (b : UInt8) : List Char :=
  if isPlainByte b then [Char.ofNat b.toNat]
  else if b == 0x20 then ['+']
  else ['%', hexDigit (b.toNat / 16), hexDigit (b.toNat % 16)]

/-- A text in a form. -/
def formText (s : String) : String :=
  String.ofList (s.toUTF8.data.toList.flatMap formByte)

/-- A name with its value in a form. -/
def formPair (p : String × String) : String :=
  formText p.1 ++ "=" ++ formText p.2

/-- The pairs of a raw query, as they are written. -/
def rawPairs (query : List Char) : List String :=
  ((Text.splitOnChar (· == '&') query).filter fun p => !p.isEmpty).map String.ofList

end ClusterJobs.Web
