import ClusterJobs.Json.Printer
import ClusterJobs.Text.Blank
import ClusterJobs.Yaml.Node

/-!
# Templates and lists in YAML

Templates and command lists are read by a small schema: a plain scalar is a whole number, a real, a
truth value, nothing or a text. `Tree.toJson` turns the result into JSON. It refuses a tree that holds
an alias, a scalar whose tag contradicts its text, a real that is no decimal, or a mapping key that is
a collection.
-/

namespace ClusterJobs.Yaml

/-- A typed document. A real keeps its text; `bad` is a scalar whose tag contradicts it. -/
inductive Tree where
  | null
  | boolean (b : Bool)
  | integer (n : Int)
  | real (text : String)
  | string (s : String)
  | sequence (items : List Tree)
  | mapping (pairs : List (Tree × Tree))
  | alias (anchor : Nat)
  | bad
deriving Inhabited

namespace Tree

mutual

/-- Structural equality. -/
def same : Tree → Tree → Bool
  | .null, .null => true
  | .boolean a, .boolean b => a == b
  | .integer a, .integer b => a == b
  | .real a, .real b => a == b
  | .string a, .string b => a == b
  | .sequence a, .sequence b => sameItems a b
  | .mapping a, .mapping b => samePairs a b
  | .alias a, .alias b => a == b
  | .bad, .bad => true
  | _, _ => false

def sameItems : List Tree → List Tree → Bool
  | [], [] => true
  | a :: as, b :: bs => same a b && sameItems as bs
  | _, _ => false

def samePairs : List (Tree × Tree) → List (Tree × Tree) → Bool
  | [], [] => true
  | (a, x) :: as, (b, y) :: bs => same a b && same x y && samePairs as bs
  | _, _ => false

end

/-! ## The schema -/

/-- The text is a real: an infinity, `.nan`, or a decimal with at least one digit. -/
def isReal (s : String) : Bool :=
  [".inf", ".Inf", ".INF", "+.inf", "+.Inf", "+.INF", "-.inf", "-.Inf", "-.INF", ".nan", ".NaN",
    ".NAN"].contains s ||
  (s.toList.any Decimal.isDigit && (Decimal.readFloat? s.toList).isSome)

/-- A whole number of 64 bits in a base. -/
def readInteger (base : Nat) (cs : List Char) : Option Int :=
  Decimal.WordRange.int64.read? base cs

/-- The whole number after a base mark or a plus sign. -/
def markedInteger? : List Char → Option Int
  | '0' :: 'x' :: rest => readInteger 16 rest
  | '0' :: 'o' :: rest => readInteger 8 rest
  | '+' :: rest => readInteger 10 rest
  | _ => none

/-- The type of a plain scalar. -/
def ofPlain (s : String) : Tree :=
  match markedInteger? s.toList with
  | some n => .integer n
  | none =>
    if s == "" || s == "~" || s == "null" then .null
    else if s == "true" || s == "True" || s == "TRUE" then .boolean true
    else if s == "false" || s == "False" || s == "FALSE" then .boolean false
    else
      match readInteger 10 s.toList with
      | some n => .integer n
      | none => if isReal s then .real s else .string s

/-- The type of a plain scalar with a tag. -/
def ofTagged (tag : Tag) (s : String) : Tree :=
  if tag.handle != "tag:yaml.org,2002:" then .string s
  else if tag.suffix == "bool" then
    if s == "true" then .boolean true else if s == "false" then .boolean false else .bad
  else if tag.suffix == "int" then
    match readInteger 10 s.toList with
    | some n => .integer n
    | none => .bad
  else if tag.suffix == "float" then
    if isReal s then .real s else .bad
  else if tag.suffix == "null" then
    if s == "~" || s == "null" then .null else .bad
  else .string s

/-- The value is `bad`. -/
def isBad : Tree → Bool
  | .bad => true
  | _ => false

/-- Adds a value that was read in a mapping: a value for the open key, or else the next key. A bad
value never becomes a key. Two values for one key are refused. -/
def addToMapping (done : List (Tree × Tree)) (key : Tree) (v : Tree) :
    Option (List (Tree × Tree) × Tree) :=
  if key.isBad then some (done, v)
  else if done.any fun p => p.1.same key then none
  else some ((key, v) :: done, .bad)

mutual

/-- The typed document of a node; refuses two equal keys in one mapping. -/
def ofNode? : Node → Option Tree
  | .scalar style tag text =>
    match style, tag with
    | .plain, some tag => some (ofTagged tag text)
    | .plain, none => some (ofPlain text)
    | _, _ => some (.string text)
  | .sequence items => (ofItems? items).map .sequence
  | .mapping pairs => (ofPairs? [] .bad pairs).map .mapping
  | .unfinished => some .bad

/-- The items of a sequence. -/
def ofItems? : List Node → Option (List Tree)
  | [] => some []
  | n :: rest => do
    let t ← ofNode? n
    let ts ← ofItems? rest
    some (t :: ts)

/-- The pairs of a mapping, keys and values taken in turn. -/
def ofPairs? (done : List (Tree × Tree)) (key : Tree) : List (Node × Node) →
    Option (List (Tree × Tree))
  | [] => some done.reverse
  | (k, v) :: rest => do
    let k ← ofNode? k
    let (done, key) ← addToMapping done key k
    let v ← ofNode? v
    let (done, key) ← addToMapping done key v
    ofPairs? done key rest

end

end Tree

/-! ## Errors -/

/-- Why a text gives no JSON value or no list. -/
inductive Fault where
  /-- The text is no YAML, or a mapping in it has a key twice. -/
  | malformed
  /-- A real is no decimal. -/
  | notDecimal (text : String)
  | keyType
  | alias
  | badValue
  | nested (text : String)
  | notSequence (text : String)
deriving DecidableEq, Repr

/-- The message of an error. -/
def Fault.message : Fault → String
  | .malformed => "malformed YAML"
  | .notDecimal text => "invalid decimal " ++ text
  | .keyType => "unsupported YAML key type"
  | .alias => "YAML aliases not supported"
  | .badValue => "bad YAML value"
  | .nested text => "nested collections are not allowed in '" ++ text ++ "'"
  | .notSequence text => "'" ++ text ++ "' is not a YAML sequence"

/-! ## JSON -/

/-- The member name that a scalar key gives. -/
def Tree.keyText? : Tree → Option String
  | .string s => some s
  | .integer n => some (toString n)
  | .real text => some text
  | .boolean b => some (if b then "true" else "false")
  | .null => some "null"
  | _ => none

mutual

/-- The JSON value of a typed document. A real beyond the range of floats becomes `null`; of two
entries with one member name the later one stays. -/
def Tree.toJson : Tree → Except Fault Json.Value
  | .null => .ok .null
  | .boolean b => .ok (.bool b)
  | .integer n => .ok (.int n)
  | .real text =>
    match Decimal.readFloat? text.toList with
    | some x => .ok (if x.isFinite then .float x else .null)
    | none => .error (.notDecimal text)
  | .string s => .ok (.str s)
  | .sequence items => (Tree.itemsToJson items).map .arr
  | .mapping pairs => (Tree.pairsToJson pairs).map .object
  | .alias _ => .error .alias
  | .bad => .error .badValue

/-- The JSON values of the items of a sequence. -/
def Tree.itemsToJson : List Tree → Except Fault (List Json.Value)
  | [] => .ok []
  | t :: rest => do
    let v ← t.toJson
    let vs ← Tree.itemsToJson rest
    .ok (v :: vs)

/-- The members that the pairs of a mapping give, in the order written. -/
def Tree.pairsToJson : List (Tree × Tree) → Except Fault (List (String × Json.Value))
  | [] => .ok []
  | (k, v) :: rest =>
    match k.keyText? with
    | none => .error .keyType
    | some key => do
      let value ← v.toJson
      let others ← Tree.pairsToJson rest
      .ok ((key, value) :: others)

end

/-- How templates and lists are read. -/
def templateDialect : Dialect where
  indentsFlow := true
  tabsBeforeKeys := true
  barsInFlow := true
  checksLineEnds := true
  looseFlow := true
  freeAnchors := true
  freeDirectives := true
  closesLastLine := true

/-- The typed documents of a text. -/
def trees? (text : String) : Option (List Tree) := do
  Tree.ofItems? (← documents? templateDialect text)

/-- The first document of a text as JSON; `null` if there is none. -/
def parse (text : String) : Except Fault Json.Value :=
  match trees? text with
  | none => .error .malformed
  | some [] => .ok .null
  | some (t :: _) => t.toJson

/-! ## Lists of texts -/

/-- The text of a scalar; a collection has none. -/
def itemText? : Json.Value → Option String
  | .str s => some s
  | .int n => some (toString n)
  | .float x => some (Json.Value.float x).render
  | .bool b => some (if b then "true" else "false")
  | .null => some ""
  | _ => none

/-- The texts of all items; refuses a list with a collection in it. -/
def itemTexts (text : String) : List Json.Value → Except Fault (List String)
  | [] => .ok []
  | v :: rest =>
    match itemText? v with
    | none => .error (.nested text)
    | some s => (itemTexts text rest).map (s :: ·)

/-- A list of texts written as a YAML sequence, such as `[python, main.py]`. Blank text and an empty
document are the empty list. -/
def parseList (text : String) : Except Fault (List String) :=
  let trimmed := Text.trim text
  if trimmed.isEmpty then .ok []
  else
    match parse trimmed with
    | .error e => .error e
    | .ok .null => .ok []
    | .ok (.arr items) => itemTexts trimmed items
    | .ok _ => .error (.notSequence trimmed)

end ClusterJobs.Yaml
