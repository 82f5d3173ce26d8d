import ClusterJobs.Fields

/-!
# JSON values

Whole numbers and floats are told apart: `1` is a whole number and `1.0` is not. The members of an
object are in increasing order of their names.
-/

namespace ClusterJobs.Json

/-- A JSON value. -/
inductive Value where
  | null
  | bool (b : Bool)
  | int (n : Int)
  | float (x : Float)
  | str (s : String)
  | arr (items : List Value)
  | obj (members : List (String × Value))
deriving Inhabited

namespace Value

/-- An object from its members, in any order. -/
def object (members : List (String × Value)) : Value :=
  .obj (Fields.ofPairs members)

/-- The object whose absent members are left out. -/
def objectSome (members : List (String × Option Value)) : Value :=
  object (members.filterMap fun p => p.2.map fun v => (p.1, v))

/-- An array of texts. -/
def strings (items : List String) : Value :=
  .arr (items.map .str)

/-- An object with text values. -/
def texts (table : Fields String) : Value :=
  .obj (table.mapValues .str)

/-- `null` for nothing. -/
def orNull {α : Type} (f : α → Value) : Option α → Value
  | some a => f a
  | none => .null

/-- A member of an object; nothing for a missing member and for any other value. -/
def get? : Value → String → Option Value
  | .obj members, key => Fields.get? members key
  | _, _ => none

/-- The value reached by a list of member names. -/
def at? (v : Value) : List String → Option Value
  | [] => some v
  | key :: rest => (v.get? key).bind (·.at? rest)

/-- The text of a text value. -/
def asString? : Value → Option String
  | .str s => some s
  | _ => none

/-- The value is `null`. -/
def isNull : Value → Bool
  | .null => true
  | _ => false

end Value

end ClusterJobs.Json
