import ClusterJobs.Wire.Decode
import ClusterJobs.Yaml.Node

/-!
# Values from YAML files

Requests, settings and queues are read from a text that holds one YAML document. A quoted scalar is a
text; a plain one stays untyped until it is decoded.
-/

namespace ClusterJobs.Wire

/-- How files are read. -/
def fileDialect : Yaml.Dialect where
  indentsFlow := false
  tabsBeforeKeys := false
  barsInFlow := false
  checksLineEnds := false
  looseFlow := false
  freeAnchors := false
  freeDirectives := false
  closesLastLine := false

/-- The tag says that the scalar is a text. -/
def saysText (t : Yaml.Tag) : Bool :=
  (t.handle == "tag:yaml.org,2002:" && t.suffix == "str") || t.suffix == "!"

/-- A scalar with its tag: quotes make it a text, and so does a tag for one. -/
def ofScalar (style : Yaml.Style) (tag : Option Yaml.Tag) (s : String) : Wire :=
  if style == .plain && !tag.any saysText then .plain s else .text s

mutual

/-- The value of a node; refuses an alias inside its own anchor. -/
def ofNode? : Yaml.Node → Option Wire
  | .scalar style tag s => some (ofScalar style tag s)
  | .sequence items => (ofNodeItems? items).map .sequence
  | .mapping pairs => (ofNodePairs? pairs).map .map
  | .unfinished => none

/-- The values of the items of a sequence. -/
def ofNodeItems? : List Yaml.Node → Option (List Wire)
  | [] => some []
  | n :: rest => do
    let w ← ofNode? n
    let ws ← ofNodeItems? rest
    some (w :: ws)

/-- The entries of a mapping. -/
def ofNodePairs? : List (Yaml.Node × Yaml.Node) → Option (List (Wire × Wire))
  | [] => some []
  | (k, v) :: rest => do
    let k ← ofNode? k
    let v ← ofNode? v
    let others ← ofNodePairs? rest
    some ((k, v) :: others)

end

/-- The character may stand in a file: control characters may not, apart from tabs and line ends. -/
def isReadable (c : Char) : Bool :=
  let n := c.toNat
  n == 0x9 || n == 0xA || n == 0xD || (0x20 ≤ n && n ≤ 0x7E) || n == 0x85 ||
    (0xA0 ≤ n && n != 0xFFFE && n != 0xFFFF)

/-- A text as it is read: without a byte order mark in front, and with the control character for a
new line as one. -/
def readable? (text : String) : Option String :=
  let cs := match text.toList with
    | c :: rest => if c.toNat == 0xFEFF then rest else c :: rest
    | [] => []
  if cs.all isReadable then
    some (String.ofList (cs.map fun c => if c.toNat == 0x85 then '\n' else c))
  else none

/-- The value of a text with one document; a text without a document is an empty scalar. -/
def ofYaml? (text : String) : Option Wire := do
  match ← Yaml.documents? fileDialect (← readable? text) with
  | [] => some (.plain "")
  | [n] => ofNode? n
  | _ => none

end ClusterJobs.Wire
