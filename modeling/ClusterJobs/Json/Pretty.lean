import ClusterJobs.Json.Printer

/-!
# JSON for readers

One member or item a line, two blanks further in at each level. Members stay in the order in which they
stand.
-/

namespace ClusterJobs.Json

/-- The blanks in front of a line. -/
def indentation (depth : Nat) : String :=
  String.ofList (List.replicate (2 * depth) ' ')

/-- Lines between two brackets; nothing between them keeps both on one line. -/
def bracketed (opening closing : String) (depth : Nat) : List String → String
  | [] => opening ++ closing
  | lines =>
    opening ++ "\n" ++ Text.joinWith ",\n" (lines.map (indentation (depth + 1) ++ ·)) ++ "\n" ++
      indentation depth ++ closing

mutual

/-- The text of a value at a depth. -/
def prettyAt (depth : Nat) : Value → String
  | .arr items => bracketed "[" "]" depth (prettyItems (depth + 1) items)
  | .obj members => bracketed "\x7b" "\x7d" depth (prettyMembers (depth + 1) members)
  | v => v.render

/-- The texts of the items of an array. -/
def prettyItems (depth : Nat) : List Value → List String
  | [] => []
  | v :: rest => prettyAt depth v :: prettyItems depth rest

/-- The texts of the members of an object. -/
def prettyMembers (depth : Nat) : List (String × Value) → List String
  | [] => []
  | (k, v) :: rest => (quote k ++ ": " ++ prettyAt depth v) :: prettyMembers depth rest

end

/-- The text of a value over several lines. -/
def Value.pretty (v : Value) : String :=
  prettyAt 0 v

end ClusterJobs.Json
