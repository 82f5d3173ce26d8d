import ClusterJobs.Decimal.Layout
import ClusterJobs.Text.Blank
import ClusterJobs.Wire.Value

/-!
# Writing YAML

Values are written in block style, two columns to a level; the items of a list stand at the column of
its key. A text is written plain if it reads back as itself, else in single quotes, else in double
quotes with escapes; a text with line breaks is a literal block where that is possible.
-/

namespace ClusterJobs.Yaml

/-! ## The form of a scalar -/

/-- Characters that end a line. -/
def endsLine (c : Char) : Bool :=
  let n := c.toNat
  n == 0xA || n == 0xD || n == 0x85 || n == 0x2028 || n == 0x2029

/-- A space, a tab, a line end, or the end of the text. -/
def blankAt : List Char → Bool
  | [] => true
  | c :: _ => c == ' ' || c == '\t' || endsLine c

/-- Characters written as they are. -/
def isPrintable (c : Char) : Bool :=
  let n := c.toNat
  n == 0xA || (0x20 ≤ n && n ≤ 0x7E) || (0xA0 ≤ n && n ≤ 0xD7FF) ||
    (0xE000 ≤ n && n ≤ 0xFFFD && n != 0xFEFF) || 0x10000 ≤ n

/-- What matters for the form of a text. -/
structure Traits where
  /-- A plain scalar would read as something else in block context. -/
  indicator : Bool
  breaks : Bool
  tab : Bool
  special : Bool
  leadingSpace : Bool
  trailingSpace : Bool
  breakSpace : Bool
  spaceBreak : Bool

/-- Characters that may not start a plain scalar. -/
def startIndicators : List Char :=
  "#,[]\x7b\x7d&*!|>\x27\"%@`".toList

/-- The start of the text says something else. -/
def startsIndicator : List Char → Bool
  | [] => false
  | c :: rest =>
    startIndicators.contains c || ((c == '?' || c == ':' || c == '-') && blankAt rest)

/-- A colon before a blank, or a number sign after one, behind the first character. -/
def holdsIndicator (afterBlank : Bool) : List Char → Bool
  | [] => false
  | c :: rest =>
    (c == ':' && blankAt rest) || (c == '#' && afterBlank) ||
      holdsIndicator (c == ' ' || c == '\t' || endsLine c) rest

/-- Two neighbours satisfy `p` and `q`. -/
def hasPair (p q : Char → Bool) : List Char → Bool
  | a :: b :: rest => (p a && q b) || hasPair p q (b :: rest)
  | _ => false

/-- The traits of a text. -/
def Traits.of (cs : List Char) : Traits :=
  let isSpace : Char → Bool := (· == ' ')
  let mark := cs.take 3 == ['-', '-', '-'] || cs.take 3 == ['.', '.', '.']
  { indicator := mark || startsIndicator cs ||
      holdsIndicator (match cs with | c :: _ => c == ' ' || c == '\t' || endsLine c | [] => true)
        (cs.drop 1)
    breaks := cs.any endsLine
    tab := cs.contains '\t'
    special := cs.any fun c => !isPrintable c && c != '\t'
    leadingSpace := cs.head?.any isSpace
    trailingSpace := cs.getLast?.any isSpace
    breakSpace := hasPair endsLine isSpace cs
    spaceBreak := hasPair isSpace endsLine cs }

/-- The form in which a text is written. -/
inductive Form where
  | plain
  | single
  | double
  | literal
deriving DecidableEq

/-- A plain scalar would say the text itself. -/
def Traits.plainAllowed (t : Traits) : Bool :=
  !(t.indicator || t.breaks || t.tab || t.special || t.leadingSpace || t.trailingSpace)

/-- Single quotes keep the text. -/
def Traits.singleAllowed (t : Traits) : Bool :=
  !(t.breakSpace || t.spaceBreak || t.tab || t.special)

/-- A literal block keeps the text. -/
def Traits.literalAllowed (t : Traits) : Bool :=
  !(t.trailingSpace || t.spaceBreak || t.special)

/-- A plain scalar of this text would be no text. -/
def readsOtherwise (s : String) : Bool :=
  match Wire.ofPlain s with
  | .text _ => Wire.zeroPadded s.toList
  | _ => true

/-- The form of a text. Keys stay on one line. -/
def formOf (isKey : Bool) (s : String) : Form :=
  let t := Traits.of s.toList
  if s.toList.contains '\n' then
    if !isKey && t.literalAllowed then .literal else .double
  else if isKey && t.breaks then .double
  else if !readsOtherwise s && t.plainAllowed then .plain
  else if t.singleAllowed then .single
  else .double

/-! ## The text of a scalar -/

/-- Hexadecimal digits in upper case, `width` of them. -/
def hexDigits (width n : Nat) : List Char :=
  let ds := (Nat.toDigits 16 n).map Char.toUpper
  List.replicate (width - ds.length) '0' ++ ds

/-- The escape of a character in double quotes. -/
def escapeOf (c : Char) : List Char :=
  let n := c.toNat
  if c == '"' then ['\\', '"']
  else if c == '\\' then ['\\', '\\']
  else if isPrintable c && !endsLine c then [c]
  else if n == 0 then ['\\', '0']
  else if n == 0x7 then ['\\', 'a']
  else if n == 0x8 then ['\\', 'b']
  else if n == 0x9 then ['\\', 't']
  else if n == 0xA then ['\\', 'n']
  else if n == 0xB then ['\\', 'v']
  else if n == 0xC then ['\\', 'f']
  else if n == 0xD then ['\\', 'r']
  else if n == 0x1B then ['\\', 'e']
  else if n == 0x85 then ['\\', 'N']
  else if n == 0x2028 then ['\\', 'L']
  else if n == 0x2029 then ['\\', 'P']
  else if n ≤ 0xFF then '\\' :: 'x' :: hexDigits 2 n
  else if n ≤ 0xFFFF then '\\' :: 'u' :: hexDigits 4 n
  else '\\' :: 'U' :: hexDigits 8 n

/-- A text in double quotes. -/
def inDoubleQuotes (cs : List Char) : String :=
  String.ofList ('"' :: (cs.flatMap escapeOf ++ ['"']))

/-- A text in single quotes; a quote inside is written twice and a line break as an empty line. -/
def inSingleQuotes (cs : List Char) : String :=
  let q := '\x27'
  String.ofList (q :: ((cs.flatMap fun c => if c == q then [q, q] else [c]) ++ [q]))

/-- The header of a literal block. The indentation is given if the text starts with a blank; the last
mark says what becomes of the line breaks at the end. -/
def literalHeader (cs : List Char) : String :=
  let lead := match cs with
    | c :: _ => if c == ' ' || endsLine c then "2" else ""
    | [] => ""
  let chomp := match cs.reverse with
    | [] => "-"
    | [c] => if endsLine c then "+" else "-"
    | c :: d :: _ => if !endsLine c then "-" else if endsLine d then "+" else ""
  "|" ++ lead ++ chomp

/-- Puts two spaces before every line that is not empty. -/
def indentLines (lines : List String) : List String :=
  lines.map fun l => if l.isEmpty then l else "  " ++ l

/-- The lines of a text; a line break at the end starts no further line. -/
def contentLines (cs : List Char) : List String :=
  let pieces := (Text.splitOnChar (· == '\n') cs).map String.ofList
  if cs.getLast? == some '\n' then pieces.dropLast else pieces

/-- The lines of a text in its form: the first goes behind the key or the dash. -/
def textLines (isKey : Bool) (s : String) : List String :=
  let cs := s.toList
  match formOf isKey s with
  | .plain => [s]
  | .single => [inSingleQuotes cs]
  | .double => [inDoubleQuotes cs]
  | .literal => literalHeader cs :: indentLines (contentLines cs)

/-! ## Values -/

/-- The lines of a value that fit behind a key or a dash; `none` for a collection that is not
empty. -/
def scalarLines? : Json.Value → Option (List String)
  | .null => some ["null"]
  | .bool b => some [if b then "true" else "false"]
  | .int n => some [toString n]
  | .float x => some [Decimal.Layout.bareExponent.render x]
  | .str s => some (textLines false s)
  | .arr [] => some ["[]"]
  | .obj [] => some ["\x7b\x7d"]
  | .arr _ => none
  | .obj _ => none

/-- Puts a mark before the first of some lines. -/
def markFirst (mark : String) : List String → List String
  | [] => [mark]
  | l :: rest => (mark ++ l) :: rest

/-- A key of one line of at most 128 bytes stands before its colon. -/
def isSimpleKey (key : String) : Bool :=
  key.utf8ByteSize ≤ 128 && !key.toList.any endsLine

mutual

/-- The lines of a collection that is not empty, from column zero. -/
def blockOf : Json.Value → List String
  | .arr items => itemLines items
  | .obj members => memberLines members
  | v => (scalarLines? v).getD []

/-- The lines of the items of a list. -/
def itemLines : List Json.Value → List String
  | [] => []
  | v :: rest =>
    let lines := match scalarLines? v with
      | some lines => markFirst "- " lines
      | none =>
        match blockOf v with
        | [] => []
        | l :: more => ("- " ++ l) :: indentLines more
    lines ++ itemLines rest

/-- The lines of the members of an object. -/
def memberLines : List (String × Json.Value) → List String
  | [] => []
  | (key, v) :: rest =>
    let lines :=
      if isSimpleKey key then
        let name := Text.joinWith "" (textLines true key)
        match scalarLines? v with
        | some lines => markFirst (name ++ ": ") lines
        | none =>
          match v with
          | .arr _ => (name ++ ":") :: blockOf v
          | _ => (name ++ ":") :: indentLines (blockOf v)
      else
        let value := match scalarLines? v with
          | some lines => markFirst ": " lines
          | none =>
            match blockOf v with
            | [] => []
            | l :: more => (": " ++ l) :: indentLines more
        markFirst "? " (textLines false key) ++ value
    lines ++ memberLines rest

end

/-- The text of a value, ending in a line break. -/
def render (v : Json.Value) : String :=
  let lines := (scalarLines? v).getD (blockOf v)
  String.join (lines.map fun l => l ++ "\n")

end ClusterJobs.Yaml
