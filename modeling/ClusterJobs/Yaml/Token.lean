/-!
# YAML tokens

A YAML text is first cut into tokens: the marks of documents, of block and flow collections, of keys,
values and entries, and the scalars with their tags and anchors. Blocks have no closing mark in the
text; the lexer derives their ends from the indentation.
-/

namespace ClusterJobs.Yaml

/-- How a scalar was written. -/
inductive Style where
  | plain
  | quoted
  | block
deriving DecidableEq, Repr

/-- A token. -/
inductive Token where
  | streamEnd
  | versionDirective
  | tagDirective (handle start : String)
  | documentStart
  | documentEnd
  | blockSequenceStart
  | blockMappingStart
  | blockEnd
  | flowSequenceStart
  | flowSequenceEnd
  | flowMappingStart
  | flowMappingEnd
  | blockEntry
  | flowEntry
  | key
  | value
  | alias (name : String)
  | anchor (name : String)
  | tag (handle suffix : String)
  | scalar (style : Style) (text : String)
deriving DecidableEq, Repr

/-- Where readers of YAML differ. -/
structure Dialect where
  /-- The content of a flow collection has to be indented deeper than the block around it. -/
  indentsFlow : Bool
  /-- A tab may stand where a block-level key may start. -/
  tabsBeforeKeys : Bool
  /-- `|` and `>` start a plain scalar inside a flow collection. -/
  barsInFlow : Bool
  /-- What follows a mark or a quoted scalar on its line is checked: a blank before a comment, and no
  tab before a block. -/
  checksLineEnds : Bool
  /-- In a flow collection a key may run over several lines, and `?` and `:` are marks only where the
  next character sets them apart. -/
  looseFlow : Bool
  /-- Anchors are made of any characters that are neither blank nor flow marks. -/
  freeAnchors : Bool
  /-- Directives that are not known are passed over. -/
  freeDirectives : Bool
  /-- The end of the text also ends the last line of a block scalar. -/
  closesLastLine : Bool

/-- A position in the text. -/
structure Mark where
  index : Nat
  line : Nat
  col : Nat

/-- A place where a key without a question mark may have started. -/
structure KeyStart where
  possible : Bool
  required : Bool
  number : Nat
  mark : Mark

/-- An open level of indentation. Levels that hold no block of their own need no end. -/
structure Level where
  indent : Int
  needsEnd : Bool

/-- The state of the lexer. -/
structure Lexer where
  rest : List Char
  index : Nat
  line : Nat
  col : Nat
  /-- The tokens found so far with their columns. -/
  tokens : Array (Token × Nat)
  /-- A value may follow its key without a blank at this position. -/
  adjacentAt : Nat
  keyAllowed : Bool
  keyStarts : List KeyStart
  indent : Int
  levels : List Level
  flowLevel : Nat
  /-- Only blanks were passed on this line. -/
  atLineStart : Bool
  flowMappingStarted : Bool
  /-- For each open flow sequence, whether a pair without braces is open in it. -/
  openPairs : List Bool

/-- The lexer before the first character. -/
def Lexer.start (cs : List Char) : Lexer :=
  { rest := cs
    index := 0
    line := 1
    col := 0
    tokens := #[]
    adjacentAt := 0
    keyAllowed := true
    keyStarts := [⟨false, false, 0, ⟨0, 0, 0⟩⟩]
    indent := -1
    levels := []
    flowLevel := 0
    atLineStart := true
    flowMappingStarted := false
    openPairs := [] }

/-- Lexing may refuse the text. -/
abbrev Lex := StateT Lexer Option

/-! ## Classes of characters -/

/-- The end of the text reads as this character. -/
def endMark : Char := Char.ofNat 0

def isEnd (c : Char) : Bool := c == endMark
def isBreak (c : Char) : Bool := c == '\n' || c == '\r'
def isWhite (c : Char) : Bool := c == ' ' || c == '\t'
def isBreakOrEnd (c : Char) : Bool := isBreak c || isEnd c
def isGap (c : Char) : Bool := isWhite c || isBreakOrEnd c

/-- The marks of flow collections. -/
def isFlow (c : Char) : Bool :=
  c == ',' || c == '[' || c == ']' || c == '\x7b' || c == '\x7d'

def isDigit (c : Char) : Bool := '0' ≤ c && c ≤ '9'

/-- Letters, digits, `_` and `-`. -/
def isNameChar (c : Char) : Bool :=
  isDigit c || ('a' ≤ c && c ≤ 'z') || ('A' ≤ c && c ≤ 'Z') || c == '_' || c == '-'

def isAnchorChar (c : Char) : Bool :=
  !isGap c && !isFlow c && c.toNat != 0xFEFF

/-- An anchor of letters and digits may stand before the character. -/
def endsAnchor (c : Char) : Bool :=
  isGap c || "?:,]\x7d%@".toList.contains c || c.toNat == 0x60

/-- The characters of a tag. -/
def isTagChar (c : Char) : Bool :=
  (isNameChar c && c != '_') || "#;/?:@&=+$_.~*()%".toList.contains c || c.toNat == 0x27

/-! ## Moving through the text -/

/-- The character `n` places ahead. -/
def ahead (n : Nat) : Lex Char := do
  return ((← get).rest.drop n).headD endMark

/-- The next character. -/
def next : Lex Char := do
  return (← get).rest.headD endMark

def here : Lex Mark := do
  let s ← get
  return ⟨s.index, s.line, s.col⟩

/-- Passes a blank. -/
def skipWhite : Lex Unit :=
  modify fun s => { s with rest := s.rest.tail, index := s.index + 1, col := s.col + 1 }

/-- Passes a character that is neither blank nor a line break. -/
def skipChar : Lex Unit :=
  modify fun s =>
    { s with rest := s.rest.tail, index := s.index + 1, col := s.col + 1, atLineStart := false }

def skipChars (n : Nat) : Lex Unit :=
  modify fun s =>
    { s with rest := s.rest.drop n, index := s.index + n, col := s.col + n, atLineStart := false }

/-- Passes a line break; a carriage return and a line feed together are one. -/
def skipLineBreak : Lex Unit :=
  modify fun s =>
    match s.rest with
    | '\r' :: '\n' :: rest =>
      { s with rest := rest, index := s.index + 2, line := s.line + 1, col := 0, atLineStart := true }
    | c :: rest =>
      if isBreak c then
        { s with rest := rest, index := s.index + 1, line := s.line + 1, col := 0, atLineStart := true }
      else s
    | [] => s

/-- A bound for loops that pass at least one character in each round. -/
def bound : Lex Nat := do
  return (← get).rest.length + 1

/-- Passes the characters that satisfy `p` and gives them back. -/
def takeChars (p : Char → Bool) : Lex (List Char) := do
  let s ← get
  let taken := s.rest.takeWhile p
  skipChars taken.length
  if taken.isEmpty then set s
  return taken

/-- A comment runs to the end of its line. -/
def skipComment : Lex Unit := do
  let _ ← takeChars fun c => !isBreakOrEnd c

/-- Refuses the text unless `b`. -/
def demand (b : Bool) : Lex Unit :=
  if b then pure () else failure

/-- What a run of blanks held. -/
structure Blanks where
  tabs : Bool
  spaces : Bool

/-- Passes blanks and a comment up to the end of the line. A comment needs a blank before it. -/
def skipToLineEnd (tabs : Bool) : Nat → Blanks → Lex Blanks
  | 0, found => pure found
  | fuel + 1, found => do
    let c ← next
    if c == ' ' then
      skipWhite
      skipToLineEnd tabs fuel { found with spaces := true }
    else if c == '\t' && tabs then
      skipWhite
      skipToLineEnd tabs fuel { found with tabs := true }
    else if c == '#' then
      demand (found.tabs || found.spaces)
      skipComment
      pure found
    else
      pure found

/-- Passes blanks, tabs among them only if `tabs`, and a comment. -/
def skipBlanks (tabs : Bool) : Lex Blanks := do
  skipToLineEnd tabs (← bound) ⟨false, false⟩

/-- Passes what may follow a mark on its line, where that is checked. -/
def skipLineEnd (dialect : Dialect) : Lex Blanks := do
  if dialect.checksLineEnds then skipBlanks true else return ⟨false, false⟩

/-- `---` or `...` at the start of a line. -/
def atDocumentMark (mark : Char) : Lex Bool := do
  let s ← get
  match s.rest with
  | a :: b :: c :: rest =>
    return s.col == 0 && a == mark && b == mark && c == mark && isGap (rest.headD endMark)
  | _ => return false

/-- A document mark of either kind. -/
def atAnyDocumentMark : Lex Bool := do
  return (← atDocumentMark '-') || (← atDocumentMark '.')

/-! ## Tokens and indentation -/

/-- Adds a token at the end. -/
def push (t : Token) (col : Nat) : Lex Unit :=
  modify fun s => { s with tokens := s.tokens.push (t, col) }

/-- Adds a token at the current position. -/
def pushHere (t : Token) : Lex Unit := do
  push t (← get).col

/-- Puts a token before token `number`. -/
def insertAt (number : Nat) (t : Token) (col : Nat) : Lex Unit :=
  modify fun s =>
    { s with tokens := s.tokens.extract 0 number ++ #[(t, col)] ++
        s.tokens.extract number s.tokens.size }

def allowKey (allowed : Bool) : Lex Unit :=
  modify fun s => { s with keyAllowed := allowed }

/-- Remembers that a key may start here. -/
def saveKeyStart : Lex Unit := do
  let s ← get
  if s.keyAllowed then
    let needed := match s.levels with
      | l :: _ => l.needsEnd
      | [] => false
    let required := s.flowLevel == 0 && s.indent == (s.col : Int) && needed
    let start : KeyStart := ⟨true, required, s.tokens.size, ⟨s.index, s.line, s.col⟩⟩
    set { s with keyStarts := start :: s.keyStarts.tail }

/-- Forgets the start of a key. A required one may not be forgotten. -/
def dropKeyStart : Lex Unit := do
  let s ← get
  match s.keyStarts with
  | k :: rest =>
    demand !(k.possible && k.required)
    set { s with keyStarts := { k with possible := false } :: rest }
  | [] => failure

/-- A key has to end on the line it starts on, within 1024 characters; in loose flow it need not. -/
def dropStaleKeyStarts (dialect : Dialect) : Lex Unit := do
  let s ← get
  let stale := fun (k : KeyStart) =>
    k.possible && (s.flowLevel == 0 || !dialect.looseFlow) &&
      (k.mark.line < s.line || k.mark.index + 1024 < s.index)
  demand !(s.keyStarts.any fun k => stale k && k.required)
  set { s with
    keyStarts := s.keyStarts.map fun k => if stale k then { k with possible := false } else k }

/-- Opens a block at a column if it is deeper than the current level. -/
def openBlock (col : Nat) (number : Option Nat) (t : Token) (mark : Mark) : Lex Unit := do
  let s ← get
  if s.flowLevel > 0 then return
  let s := match s.levels with
    | l :: rest =>
      if s.indent ≤ (col : Int) && !l.needsEnd then { s with indent := l.indent, levels := rest }
      else s
    | [] => s
  set s
  if s.indent < (col : Int) then
    set { s with levels := ⟨s.indent, true⟩ :: s.levels, indent := col }
    match number with
    | some n => insertAt n t mark.col
    | none => push t mark.col

/-- Opens a level one column deeper that holds no block of its own. -/
def openColumn : Lex Unit :=
  modify fun s =>
    match s.levels with
    | l :: _ =>
      if s.flowLevel == 0 && l.needsEnd then
        { s with levels := ⟨s.indent, false⟩ :: s.levels, indent := s.indent + 1 }
      else s
    | [] => s

/-- Closes the levels deeper than a column. -/
def closeLevels (col : Int) : List Level → Lex Unit
  | [] => pure ()
  | l :: rest => do
    let s ← get
    if s.indent > col then
      set { s with indent := l.indent, levels := rest }
      if l.needsEnd then pushHere .blockEnd
      closeLevels col rest

/-- Closes the blocks deeper than a column; inside flow collections indentation closes nothing. -/
def closeBlocks (col : Int) : Lex Unit := do
  let s ← get
  if s.flowLevel == 0 then closeLevels col s.levels

/-- Closes the levels on top that hold no block of their own. -/
def closeColumns : Lex Unit :=
  modify fun s =>
    let opened := s.levels.takeWhile fun l => !l.needsEnd
    match opened.getLast? with
    | some l => { s with indent := l.indent, levels := s.levels.dropWhile fun l => !l.needsEnd }
    | none => s

/-- Ends a pair without braces that is open in the innermost flow sequence. -/
def closePair : Lex Unit := do
  let s ← get
  match s.openPairs with
  | true :: rest =>
    set { s with flowMappingStarted := false, openPairs := false :: rest }
    pushHere .flowMappingEnd
  | _ => pure ()

end ClusterJobs.Yaml
