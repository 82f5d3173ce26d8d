import ClusterJobs.Decimal.Layout
import ClusterJobs.Json.Value
import ClusterJobs.Text.Blank

/-!
# Writing JSON

One line, without spaces. Floats are written with the fewest digits that read back to them; what is
no finite number is written as `null`.
-/

namespace ClusterJobs.Json

/-- The escape of a character inside a quoted text. -/
def escapeChar (c : Char) : List Char :=
  if c == '"' then ['\\', '"']
  else if c == '\\' then ['\\', '\\']
  else if c.toNat == 0x8 then ['\\', 'b']
  else if c.toNat == 0x9 then ['\\', 't']
  else if c.toNat == 0xA then ['\\', 'n']
  else if c.toNat == 0xC then ['\\', 'f']
  else if c.toNat == 0xD then ['\\', 'r']
  else if c.toNat < 0x20 then
    ['\\', 'u', '0', '0'] ++ Nat.toDigits 16 (c.toNat / 16) ++ Nat.toDigits 16 (c.toNat % 16)
  else [c]

/-- A text in quotes. -/
def quote (s : String) : String :=
  String.ofList ('"' :: (s.toList.flatMap escapeChar ++ ['"']))

mutual

/-- The text of a value. -/
def Value.render : Value → String
  | .null => "null"
  | .bool b => if b then "true" else "false"
  | .int n => toString n
  | .float x => Decimal.Layout.signedExponent.render x
  | .str s => quote s
  | .arr items => "[" ++ Text.joinWith "," (renderItems items) ++ "]"
  | .obj members => "\x7b" ++ Text.joinWith "," (renderMembers members) ++ "\x7d"

/-- The texts of the items of an array. -/
def renderItems : List Value → List String
  | [] => []
  | v :: rest => v.render :: renderItems rest

/-- The texts of the members of an object. -/
def renderMembers : List (String × Value) → List String
  | [] => []
  | (k, v) :: rest => (quote k ++ ":" ++ v.render) :: renderMembers rest

end

end ClusterJobs.Json
