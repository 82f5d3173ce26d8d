import ClusterJobs.Json.Value

/-!
# Overlays

An overlay writes some members of a JSON value and leaves the rest as it was. It is a list of edits,
each at a path of member names.
-/

namespace ClusterJobs.Json

/-- A list of member names that leads into a value. -/
abbrev Path := List String

/-- Why an edit cannot be made. -/
inductive OverlayFault where
  /-- The value is a scalar or a list, so it takes no member. -/
  | memberOfScalar (key : String)
  /-- There is no list at the path whose first item is an object. -/
  | noFirstItem (path : Path)
deriving DecidableEq, Repr

namespace Value

/-- The members of an object; none of any other value. -/
def members : Value → List (String × Value)
  | .obj ms => ms
  | _ => []

/-- The member of a name, or `null`. -/
def member (v : Value) (key : String) : Value :=
  (Fields.get? v.members key).getD .null

/-- Writes a member. Every value that is not an object is replaced by one. -/
def withMember (v : Value) (key : String) (new : Value) : Value :=
  .obj (Fields.put v.members key new)

/-- Sets a member of an object; `null` becomes an object, and every other value refuses. -/
def assign (v : Value) (key : String) (new : Value) : Except OverlayFault Value :=
  match v with
  | .obj ms => .ok (.obj (Fields.put ms key new))
  | .null => .ok (.obj [(key, new)])
  | _ => .error (.memberOfScalar key)

/-- Changes what stands at a path. On the way every value that is not an object is replaced by one. -/
def updateAt {ε : Type} (v : Value) (path : Path) (f : Value → Except ε Value) : Except ε Value :=
  match path with
  | [] => f v
  | key :: rest => do
    let new ← (v.member key).updateAt rest f
    .ok (v.withMember key new)

/-- Writes some members over those of an object. -/
def extend (ms added : List (String × Value)) : Value :=
  .obj (Fields.overwrite ms added)

/-- Writes some members over those of the first item of a list. -/
def extendFirst (shown : Path) (added : List (String × Value)) (v : Value) :
    Except OverlayFault Value :=
  match v with
  | .arr (.obj ms :: rest) => .ok (.arr (extend ms added :: rest))
  | _ => .error (.noFirstItem shown)

end Value

/-- One change to a value. -/
inductive Edit where
  /-- Writes a value at a path; whatever is in the way becomes an object. -/
  | set (path : Path) (value : Value)
  /-- Writes a member of what stands at a path, which has to be an object or `null`. -/
  | assign (parent : Path) (key : String) (value : Value)
  /-- Writes members of the first item of the list at `base ++ path`. -/
  | extendFirst (base path : Path) (added : List (String × Value))
  /-- Removes a member of what stands at a path. -/
  | drop (parent : Path) (key : String)

namespace Edit

/-- Makes one change. -/
def apply (v : Value) : Edit → Except OverlayFault Value
  | set path new => v.updateAt path fun _ => .ok new
  | assign parent key new => v.updateAt parent fun w => w.assign key new
  | extendFirst base path added => v.updateAt (base ++ path) (Value.extendFirst path added)
  | drop parent key => v.updateAt parent fun w =>
    .ok (match w with
      | .obj ms => .obj (Fields.remove ms key)
      | w => w)

/-- Makes changes in order. -/
def applyAll : List Edit → Value → Except OverlayFault Value
  | [], v => .ok v
  | e :: rest, v => do
    let w ← e.apply v
    applyAll rest w

/-- A member that is only written if there is a value for it. -/
def setSome {α : Type} (path : Path) (f : α → Value) : Option α → List Edit
  | some a => [.set path (f a)]
  | none => []

end Edit

end ClusterJobs.Json
