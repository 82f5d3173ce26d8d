import ClusterJobs.Decimal.Reading
import ClusterJobs.Yaml.Token

/-!
# YAML scalars

The four written forms of a scalar: plain, quoted once or twice, and block. Line breaks inside plain
and quoted scalars are folded: one break becomes a space, further ones stay.
-/

namespace ClusterJobs.Yaml

/-- Text collected in reverse, with the blanks and breaks that may still belong to it. -/
structure Pending where
  /-- The text so far, last character first. -/
  text : List Char
  /-- Blanks since the last other character, last first. -/
  whites : List Char
  /-- A first line break was passed. -/
  broken : Bool
  /-- The number of further line breaks. -/
  breaks : Nat

def Pending.empty : Pending := ⟨[], [], false, 0⟩

/-- Adds `n` line breaks to a reversed text. -/
def addBreaks (n : Nat) (text : List Char) : List Char :=
  List.replicate n '\n' ++ text

/-- Joins what was passed over: a single break folds to a space, further breaks stay. -/
def Pending.fold (p : Pending) : Pending :=
  let text :=
    if p.broken then
      if p.breaks == 0 then ' ' :: p.text else addBreaks p.breaks p.text
    else addBreaks p.breaks p.text
  { p with text := text, broken := false, breaks := 0 }

/-! ## Plain scalars -/

/-- The next character may belong to a plain scalar. In tight flow a colon before a mark is refused. -/
def plainContinues (dialect : Dialect) : Lex Bool := do
  let c ← next
  let n ← ahead 1
  let inFlow := (← get).flowLevel > 0
  if inFlow && !dialect.looseFlow then demand !(c == ':' && (isFlow n || n == '?'))
  if c == ':' && (isGap n || (inFlow && isFlow n)) then return false
  return !(inFlow && isFlow c)

/-- Passes the characters of one word. -/
def plainWord (dialect : Dialect) : Nat → List Char → Lex (List Char)
  | 0, text => pure text
  | fuel + 1, text => do
    let c ← next
    if isGap c then return text
    if !(← plainContinues dialect) then return text
    skipChar
    plainWord dialect fuel (c :: text)

/-- Passes blanks and line breaks between the words of a plain scalar. -/
def plainGap (dialect : Dialect) (indent : Int) : Nat → Pending → Lex Pending
  | 0, p => pure p
  | fuel + 1, p => do
    let s ← get
    let c ← next
    if isWhite c then
      if !s.atLineStart then
        skipWhite
        plainGap dialect indent fuel { p with whites := c :: p.whites }
      else if (s.col : Int) < indent && c == '\t' then
        demand dialect.tabsBeforeKeys
        let _ ← skipBlanks true
        demand (isBreakOrEnd (← next))
        plainGap dialect indent fuel p
      else
        skipWhite
        plainGap dialect indent fuel p
    else if isBreak c then
      if s.atLineStart then
        skipLineBreak
        plainGap dialect indent fuel { p with breaks := p.breaks + 1 }
      else
        skipLineBreak
        plainGap dialect indent fuel { p with whites := [], broken := true }
    else
      pure p

/-- Passes the words of a plain scalar and the gaps between them. -/
def plainWords (dialect : Dialect) (indent : Int) : Nat → Pending → Lex Pending
  | 0, p => pure p
  | fuel + 1, p => do
    if (← atAnyDocumentMark) || (← next) == '#' then return p
    let s ← get
    if s.flowLevel > 0 && dialect.looseFlow then
      demand !((← next) == '-' && isFlow (← ahead 1))
    let c ← next
    let mut p := p
    if !isGap c && (← plainContinues dialect) then
      if s.atLineStart then
        p := p.fold
        modify fun s => { s with atLineStart := false }
      else
        p := { p with text := p.whites ++ p.text, whites := [] }
      skipChar
      p := { p with text := ← plainWord dialect (← bound) (c :: p.text) }
    let c ← next
    if !(isWhite c || isBreak c) then return p
    p ← plainGap dialect indent (← bound) p
    let s ← get
    if s.flowLevel == 0 && (s.col : Int) < indent then return p
    plainWords dialect indent fuel p

/-- A plain scalar. It holds at least one character. -/
def lexPlain (dialect : Dialect) : Lex Token := do
  closeColumns
  let s ← get
  let indent := s.indent + 1
  if dialect.indentsFlow then demand !(s.flowLevel > 0 && (s.col : Int) < indent)
  let p ← plainWords dialect indent (← bound) .empty
  if (← get).atLineStart then allowKey true
  demand !p.text.isEmpty
  return .scalar .plain (String.ofList p.text.reverse)

/-! ## Quoted scalars -/

/-- The character of an escape of one letter. -/
def letterEscape? (c : Char) : Option Char :=
  match c with
  | '0' => some (Char.ofNat 0)
  | 'a' => some (Char.ofNat 0x7)
  | 'b' => some (Char.ofNat 0x8)
  | 't' => some '\t'
  | '\t' => some '\t'
  | 'n' => some '\n'
  | 'v' => some (Char.ofNat 0xB)
  | 'f' => some (Char.ofNat 0xC)
  | 'r' => some '\r'
  | 'e' => some (Char.ofNat 0x1B)
  | ' ' => some ' '
  | '"' => some '"'
  | '/' => some '/'
  | '\\' => some '\\'
  | 'N' => some (Char.ofNat 0x85)
  | '_' => some (Char.ofNat 0xA0)
  | 'L' => some (Char.ofNat 0x2028)
  | 'P' => some (Char.ofNat 0x2029)
  | _ => none

/-- The number of hexadecimal digits of a numeric escape. -/
def escapeWidth? (c : Char) : Option Nat :=
  match c with
  | 'x' => some 2
  | 'u' => some 4
  | 'U' => some 8
  | _ => none

/-- An escape after its backslash. -/
def lexEscape : Lex Char := do
  let c ← ahead 1
  match letterEscape? c with
  | some u =>
    skipChars 2
    return u
  | none =>
    match escapeWidth? c with
    | none => failure
    | some width =>
      skipChars 2
      let ds := (← get).rest.take width
      demand (ds.length == width)
      match Decimal.readNat? 16 ds with
      | none => failure
      | some n =>
        demand (n.isValidChar)
        skipChars width
        return Char.ofNat n

/-- Passes the characters of one word of a quoted scalar. Gives the text and whether an escaped line
break ended the word. -/
def quotedWord (single : Bool) : Nat → List Char → Lex (List Char × Bool)
  | 0, text => pure (text, false)
  | fuel + 1, text => do
    let c ← next
    let n ← ahead 1
    if isGap c then return (text, false)
    if c.toNat == 0x27 && single then
      if n.toNat == 0x27 then
        skipChars 2
        quotedWord single fuel (c :: text)
      else return (text, false)
    else if c == '"' && !single then return (text, false)
    else if c == '\\' && !single then
      if isBreak n then
        skipChar
        skipLineBreak
        return (text, true)
      else
        let u ← lexEscape
        quotedWord single fuel (u :: text)
    else
      skipChar
      quotedWord single fuel (c :: text)

/-- Passes blanks and line breaks between the words of a quoted scalar. `led` says that a line break
was passed before. -/
def quotedGap (dialect : Dialect) : Nat → Bool → Pending → Lex (Bool × Pending)
  | 0, led, p => pure (led, p)
  | fuel + 1, led, p => do
    let s ← get
    let c ← next
    if isWhite c then
      if led then
        if dialect.indentsFlow then demand !(c == '\t' && (s.col : Int) < s.indent)
        skipWhite
        quotedGap dialect fuel led p
      else
        skipWhite
        quotedGap dialect fuel led { p with whites := c :: p.whites }
    else if isBreak c then
      skipLineBreak
      if led then quotedGap dialect fuel led { p with breaks := p.breaks + 1 }
      else quotedGap dialect fuel true { p with whites := [], broken := true }
    else
      pure (led, p)

/-- Passes the words of a quoted scalar up to the closing quote. -/
def quotedWords (dialect : Dialect) (single : Bool) : Nat → Pending → Lex Pending
  | 0, _ => failure
  | fuel + 1, p => do
    demand !(← atAnyDocumentMark)
    let s ← get
    demand !isEnd (← next)
    if dialect.indentsFlow then demand !((s.col : Int) < s.indent)
    let (text, led) ← quotedWord single (← bound) p.text
    let p := { p with text := text }
    let c ← next
    if (single && c.toNat == 0x27) || (!single && c == '"') then return p
    let (led, p) ← quotedGap dialect (← bound) led p
    let p := if led then p.fold else { p with text := p.whites ++ p.text, whites := [] }
    quotedWords dialect single fuel p

/-- A quoted scalar. Where line ends are checked, only the end of the line, a flow mark or the colon of
a key may follow. -/
def lexQuoted (dialect : Dialect) (single : Bool) : Lex Token := do
  let start ← here
  skipChar
  let p ← quotedWords dialect single (← bound) .empty
  skipChar
  if dialect.checksLineEnds then
    let _ ← skipBlanks true
    let c ← next
    let s ← get
    let inFlow := s.flowLevel > 0
    demand ((inFlow && (c == ',' || c == '\x7d' || c == ']')) || isBreakOrEnd c ||
      (c == ':' && (inFlow || start.line == s.line)))
  return .scalar .quoted (String.ofList p.text.reverse)

/-! ## Block scalars -/

/-- What happens to the line breaks at the end of a block scalar. -/
inductive Chomping where
  | clip
  | strip
  | keep
deriving DecidableEq

/-- Passes the header after `|` or `>`: a chomping mark and an indentation digit in either order. -/
def blockHeader : Lex (Chomping × Nat) := do
  let chomp : Char → Chomping := fun c => if c == '+' then .keep else .strip
  let c ← next
  if c == '+' || c == '-' then
    skipChar
    let d ← next
    if isDigit d then
      demand (d != '0')
      skipChar
      return (chomp c, d.toNat - '0'.toNat)
    return (chomp c, 0)
  else if isDigit c then
    demand (c != '0')
    skipChar
    let d ← next
    if d == '+' || d == '-' then
      skipChar
      return (chomp d, c.toNat - '0'.toNat)
    return (.clip, c.toNat - '0'.toNat)
  else
    return (.clip, 0)

/-- Passes spaces up to a column. -/
def skipSpacesTo (indent : Nat) : Lex Unit := do
  let s ← get
  let spaces := (s.rest.take (indent - s.col)).takeWhile (· == ' ')
  modify fun s => { s with
    rest := s.rest.drop spaces.length, index := s.index + spaces.length, col := s.col + spaces.length }

/-- Passes the indentation of a content line and the empty lines before it; gives their number. -/
def blockIndent (dialect : Dialect) (indent : Nat) : Nat → Nat → Lex Nat
  | 0, breaks => pure breaks
  | fuel + 1, breaks => do
    skipSpacesTo indent
    let c ← next
    demand (dialect.tabsBeforeKeys || !((← get).col < indent && c == '\t'))
    if isBreak c then
      skipLineBreak
      blockIndent dialect indent fuel (breaks + 1)
    else pure breaks

/-- Finds the indentation of the first content line: the deepest of the leading lines. -/
def blockFirstIndent (dialect : Dialect) : Nat → Nat → Nat → Lex (Nat × Nat)
  | 0, deepest, breaks => pure (deepest, breaks)
  | fuel + 1, deepest, breaks => do
    let s ← get
    let spaces := s.rest.takeWhile (· == ' ')
    modify fun s => { s with
      rest := s.rest.drop spaces.length, index := s.index + spaces.length,
      col := s.col + spaces.length }
    let deepest := max deepest (← get).col
    let c ← next
    demand (dialect.tabsBeforeKeys || c != '\t')
    if isBreak c then
      skipLineBreak
      blockFirstIndent dialect fuel deepest (breaks + 1)
    else pure (deepest, breaks)

/-- What a block scalar has collected. -/
structure BlockText where
  text : List Char
  /-- The line break after the last line was passed. -/
  led : Bool
  breaks : Nat
  /-- The last line started with a blank. -/
  blankLine : Bool

/-- Passes the content lines of a block scalar. -/
def blockLines (dialect : Dialect) (literal : Bool) (indent : Nat) :
    Nat → BlockText → Lex BlockText
  | 0, b => pure b
  | fuel + 1, b => do
    let s ← get
    let c ← next
    if s.col != indent || isEnd c then return b
    if indent == 0 && (← atDocumentMark '.') then return b
    let blank := isWhite c
    let joined :=
      if !literal && b.led && !b.blankLine && !blank then
        if b.breaks == 0 then ' ' :: b.text else addBreaks b.breaks b.text
      else addBreaks b.breaks (if b.led then '\n' :: b.text else b.text)
    let line ← takeChars fun c => !isBreakOrEnd c
    let text := line.reverse ++ joined
    if isEnd (← next) then return ⟨text, false, 0, blank⟩
    skipLineBreak
    let breaks ← blockIndent dialect indent (← bound) 0
    blockLines dialect literal indent fuel ⟨text, true, breaks, blank⟩

/-- Passes the rest of the line of a block scalar's header. -/
def skipHeaderEnd (dialect : Dialect) : Lex Unit := do
  if dialect.checksLineEnds then
    let _ ← skipBlanks true
  else
    let _ ← takeChars isWhite
    if (← next) == '#' then skipComment
  demand (isBreakOrEnd (← next))

/-- A block scalar. -/
def lexBlock (dialect : Dialect) (literal : Bool) : Lex Token := do
  let startLine := (← get).line
  skipChar
  closeColumns
  let (chomping, increment) ← blockHeader
  skipHeaderEnd dialect
  let hadBreak := isBreak (← next)
  if hadBreak then skipLineBreak
  demand ((← next) != '\t')
  let outer := (← get).indent
  let (indent, breaks) ←
    if increment > 0 then do
      let indent := if outer ≥ 0 then outer.toNat + increment else increment
      let breaks ← blockIndent dialect indent (← bound) 0
      pure (indent, breaks)
    else do
      let (deepest, breaks) ← blockFirstIndent dialect (← bound) 0 0
      let indent := max deepest (outer + 1).toNat
      pure (if outer > 0 || !dialect.closesLastLine then max indent 1 else indent, breaks)
  if dialect.closesLastLine && isEnd (← next) then
    let contents : List Char :=
      if chomping == .strip || (← get).line == startLine then []
      else if chomping == .clip || breaks == 0 then (if hadBreak then ['\n'] else [])
      else addBreaks breaks []
    return .scalar .block (String.ofList contents)
  let s ← get
  demand !(dialect.closesLastLine && s.col < indent && (s.col : Int) > outer)
  let b ← blockLines dialect literal indent (← bound) ⟨[], false, breaks, false⟩
  let text := if chomping != .strip && b.led then '\n' :: b.text else b.text
  let s ← get
  let atEnd := dialect.closesLastLine && isEnd (← next) && s.col ≥ max indent 1
  let text := if chomping != .strip && atEnd then '\n' :: text else text
  let text := if chomping == .keep then addBreaks b.breaks text else text
  return .scalar .block (String.ofList text.reverse)

end ClusterJobs.Yaml
