import ClusterJobs.Wire.Value

/-!
# Decoding

A decoder reads a value of some type from a `Wire` or refuses it. Records are read member by member:
unknown members are ignored, a member may have a default, and a known member may not occur twice. In
JSON a record may also arrive as a list of its members in order.
-/

namespace ClusterJobs

/-- Reads a value or refuses it. -/
abbrev Decoder (α : Type) := Wire → Option α

/-- The members of a record by name. -/
abbrev Members := List (String × Wire)

namespace Decode

/-- A text; a plain scalar is the text it was written as. -/
def text : Decoder String
  | .text s => some s
  | .plain s => some s
  | _ => none

/-- A truth value. -/
def bool : Decoder Bool
  | .bool b => some b
  | .plain s => Wire.saysBool? s
  | _ => none

/-- A whole number of a machine word. -/
def word (r : Decimal.WordRange) : Decoder Int
  | .int n => if r.holds n then some n else none
  | .plain s =>
    if r.low ≥ 0 && s.toList.head? == some '-' then none
    else (Wire.saysInt? s).filter r.holds
  | _ => none

/-- A signed number of 64 bits. -/
def int64 : Decoder Int := word .int64

/-- A signed number of 32 bits. -/
def int32 : Decoder Int := word .int32

/-- An unsigned number of 64 bits. -/
def nat64 : Decoder Nat := fun w => (word .uint64 w).map Int.toNat

/-- An unsigned number of 32 bits. -/
def nat32 : Decoder Nat := fun w => (word .uint32 w).map Int.toNat

/-- An unsigned number of 16 bits. -/
def nat16 : Decoder Nat := fun w => (word .uint16 w).map Int.toNat

/-- A float; whole numbers are floats too. -/
def float : Decoder Float
  | .float x => some x
  | .int n => some (Float.ofInt n)
  | .plain s => Wire.saysFloat? s
  | _ => none

/-- A value that may be absent. -/
def optional {α : Type} (d : Decoder α) : Decoder (Option α)
  | .null => some none
  | .plain s => if Wire.saysNull s then some none else (d (.plain s)).map some
  | w => (d w).map some

/-- All items, or nothing if one is refused. -/
def all {α : Type} (d : Decoder α) : List Wire → Option (List α)
  | [] => some []
  | w :: rest => do
    let a ← d w
    let as ← all d rest
    some (a :: as)

/-- A list. An empty plain scalar is the empty list. -/
def list {α : Type} (d : Decoder α) : Decoder (List α)
  | .list items => all d items
  | .sequence items => all d items
  | .plain s => if s == "" then some [] else none
  | _ => none

/-- The entries of a map with text keys, in the order written. -/
def entries {α : Type} (d : Decoder α) : List (Wire × Wire) → Option (List (String × α))
  | [] => some []
  | (k, v) :: rest => do
    let key ← text k
    let value ← d v
    let others ← entries d rest
    some ((key, value) :: others)

/-- A table; of two entries with one key the later one stays. -/
def table {α : Type} (d : Decoder α) : Decoder (Fields α)
  | .map pairs => (entries d pairs).map Fields.ofPairs
  | .plain s => if s == "" then some [] else none
  | _ => none

/-- One of some names. Text, or a map of one such name to nothing. -/
def oneOf {α : Type} (named : String → Option α) : Decoder α
  | .map [(k, .null)] => (text k).bind named
  | w => (text w).bind named

mutual

/-- Any JSON value. A number that is not finite becomes `null`. -/
def json : Wire → Option Json.Value
  | .null => some .null
  | .bool b => some (.bool b)
  | .int n => some (.int n)
  | .float x => some (if x.isFinite then .float x else .null)
  | .text s => some (.str s)
  | .plain s =>
    match Wire.ofPlain s with
    | .null => some .null
    | .bool b => some (.bool b)
    | .int n => some (.int n)
    | .float x => some (if x.isFinite then .float x else .null)
    | _ => some (.str s)
  | .list items => (jsonItems items).map .arr
  | .sequence items => (jsonItems items).map .arr
  | .map pairs => (jsonEntries pairs).map .object

/-- The items of a list as JSON values. -/
def jsonItems : List Wire → Option (List Json.Value)
  | [] => some []
  | w :: rest => do
    let v ← json w
    let vs ← jsonItems rest
    some (v :: vs)

/-- The entries of a map as members of a JSON object. -/
def jsonEntries : List (Wire × Wire) → Option (List (String × Json.Value))
  | [] => some []
  | (k, v) :: rest => do
    let key ← text k
    let value ← json v
    let others ← jsonEntries rest
    some ((key, value) :: others)

end

/-! ## Records -/

/-- The members whose key is a text. -/
def namedMembers : List (Wire × Wire) → Members
  | [] => []
  | (k, v) :: rest =>
    match text k with
    | some key => (key, v) :: namedMembers rest
    | none => namedMembers rest

/-- The members of a record with the given names. `padded` records, whose members all have defaults,
may arrive as a shorter list than they have members. -/
def members (padded : Bool) (names : List String) : Decoder Members
  | .map pairs =>
    let found := namedMembers pairs
    if names.any fun n => (found.countP fun m => m.1 == n) > 1 then none else some found
  | .list items =>
    if items.length > names.length then none
    else if items.length < names.length && !padded then none
    else some (names.zip items)
  | .plain s => if s == "" then some [] else none
  | _ => none

end Decode

namespace Members

variable {α : Type}

/-- The value of a member. -/
def find? (ms : Members) (name : String) : Option Wire :=
  List.lookup name ms

/-- A member that has to be there. -/
def required (ms : Members) (name : String) (d : Decoder α) : Option α :=
  (ms.find? name).bind d

/-- A member that may be missing or empty. -/
def optional (ms : Members) (name : String) (d : Decoder α) : Option (Option α) :=
  match ms.find? name with
  | none => some none
  | some w => Decode.optional d w

/-- A member with a default; if it is there it has to decode. -/
def withDefault (ms : Members) (name : String) (fallback : α) (d : Decoder α) : Option α :=
  match ms.find? name with
  | none => some fallback
  | some w => d w

end Members

end ClusterJobs
