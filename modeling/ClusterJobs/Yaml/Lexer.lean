import ClusterJobs.Yaml.Scalar

/-!
# Cutting a YAML text into tokens

`tokens?` gives the tokens of a whole text or refuses it. A key without a question mark is recognised
only at its colon; its token is then put back to where the key started.
-/

namespace ClusterJobs.Yaml

/-- Passes blanks, comments and line breaks up to the next token. -/
def skipToToken (dialect : Dialect) : Nat → Lex Unit
  | 0 => pure ()
  | fuel + 1 => do
    let s ← get
    let c ← next
    if c == '\t' && !dialect.tabsBeforeKeys then
      demand (s.flowLevel > 0 || !s.keyAllowed)
      skipWhite
      skipToToken dialect fuel
    else if c == '\t' && !s.levels.isEmpty && s.atLineStart && (s.col : Int) < s.indent then
      let _ ← skipBlanks true
      demand (isBreakOrEnd (← next))
      skipToToken dialect fuel
    else if isWhite c then
      skipWhite
      skipToToken dialect fuel
    else if isBreak c then
      skipLineBreak
      if s.flowLevel == 0 then allowKey true
      skipToToken dialect fuel
    else if c == '#' then
      skipComment
      skipToToken dialect fuel
    else pure ()

/-! ## Directives, tags and anchors -/

/-- A number of at most nine digits. -/
def directiveNumber : Lex Nat := do
  let ds ← takeChars isDigit
  demand (!ds.isEmpty && ds.length ≤ 9)
  return (Decimal.readNat? 10 ds).getD 0

def skipWhites : Lex Unit := do
  let s ← get
  let n := (s.rest.takeWhile isWhite).length
  set { s with rest := s.rest.drop n, index := s.index + n, col := s.col + n }

/-- The handle of a tag: `!`, `!!` or `!name!`; in a directive the last `!` may not be missing. -/
def tagHandle (directive : Bool) : Lex String := do
  demand ((← next) == '!')
  skipChar
  let name ← takeChars isNameChar
  if (← next) == '!' then
    skipChar
    return String.ofList ('!' :: name ++ ['!'])
  demand (!directive || name.isEmpty)
  return String.ofList ('!' :: name)

/-- The bytes of a sequence of `%xx` escapes that form one character. -/
def percentBytes : Nat → Lex (List Nat)
  | 0 => pure []
  | count + 1 => do
    demand ((← next) == '%')
    let ds := ((← get).rest.drop 1).take 2
    demand (ds.length == 2)
    match Decimal.readNat? 16 ds with
    | none => failure
    | some n =>
      skipChars 3
      return n :: (← percentBytes count)

/-- The character written by `%xx` escapes. -/
def percentChar : Lex Char := do
  let lead ← percentBytes 1
  match lead with
  | [b] =>
    if b < 0x80 then return Char.ofNat b
    else if 0xC0 ≤ b && b < 0xE0 then
      match ← percentBytes 1 with
      | [x] => return Char.ofNat ((b % 32) * 64 + x % 64)
      | _ => failure
    else if 0xE0 ≤ b && b < 0xF0 then
      match ← percentBytes 2 with
      | [x, y] => return Char.ofNat ((b % 16) * 4096 + (x % 64) * 64 + y % 64)
      | _ => failure
    else if 0xF0 ≤ b && b < 0xF8 then
      match ← percentBytes 3 with
      | [x, y, z] =>
        return Char.ofNat ((b % 8) * 262144 + (x % 64) * 4096 + (y % 64) * 64 + z % 64)
      | _ => failure
    else failure
  | _ => failure

/-- The characters of a tag that satisfy `p`, with escapes replaced. -/
def tagChars (p : Char → Bool) : Nat → List Char → Lex (List Char)
  | 0, done => pure done.reverse
  | fuel + 1, done => do
    let c ← next
    if !p c then return done.reverse
    if c == '%' then
      let u ← percentChar
      tagChars p fuel (u :: done)
    else
      skipChar
      tagChars p fuel (c :: done)

/-- The characters of a whole tag name, flow marks and `!` included. -/
def isTagNameChar (c : Char) : Bool :=
  isTagChar c || c == '!' || c == ',' || c == '[' || c == ']'

/-- A tag: `!<name>`, `!suffix`, `!!suffix` or `!handle!suffix`. -/
def lexTag : Lex Token := do
  let c ← ahead 1
  let (handle, suffix) ←
    if c == '<' then do
      skipChars 2
      let name ← tagChars isTagNameChar (← bound) []
      demand (!name.isEmpty && (← next) == '>')
      skipChar
      pure ("", String.ofList name)
    else do
      let handle ← tagHandle false
      let cs := handle.toList
      if cs.length ≥ 2 && cs.getLast? == some '!' then
        let suffix ← tagChars isTagChar (← bound) []
        demand !suffix.isEmpty
        pure (handle, String.ofList suffix)
      else
        let suffix ← tagChars isTagChar (← bound) []
        let whole := cs.drop 1 ++ suffix
        if whole.isEmpty then pure ("", "!") else pure ("!", String.ofList whole)
  let c ← next
  demand (isGap c || ((← get).flowLevel > 0 && isFlow c))
  return .tag handle suffix

/-- An anchor or an alias after its mark. -/
def lexAnchorName (dialect : Dialect) : Lex String := do
  skipChar
  let name ← takeChars (if dialect.freeAnchors then isAnchorChar else isNameChar)
  demand (!name.isEmpty && (dialect.freeAnchors || endsAnchor (← next)))
  return String.ofList name

/-- A directive line. Versions other than 1.1 and 1.2 are refused where directives are not free. -/
def lexDirective (dialect : Dialect) : Lex Token := do
  skipChar
  let name ← takeChars isNameChar
  demand (!name.isEmpty && isGap (← next))
  let t ←
    if name == "YAML".toList then do
      skipWhites
      let major ← directiveNumber
      demand ((← next) == '.')
      skipChar
      let minor ← directiveNumber
      demand (dialect.freeDirectives || (major == 1 && (minor == 1 || minor == 2)))
      pure Token.versionDirective
    else if name == "TAG".toList then do
      skipWhites
      let handle ← tagHandle true
      skipWhites
      let start ← tagChars isTagNameChar (← bound) []
      demand (!start.isEmpty && isGap (← next))
      pure (Token.tagDirective handle (String.ofList start))
    else do
      demand dialect.freeDirectives
      let _ ← takeChars fun c => !isBreakOrEnd c
      pure (Token.tagDirective "" "")
  let _ ← skipBlanks true
  demand (isBreakOrEnd (← next))
  skipLineBreak
  return t

/-! ## One token after the other -/

def lexStreamEnd : Lex Unit := do
  demand !((← get).keyStarts.any fun k => k.required && k.possible)
  modify fun s => { s with keyStarts := s.keyStarts.map fun k => { k with possible := false } }
  closeBlocks (-1)
  dropKeyStart
  allowKey false
  pushHere .streamEnd

def lexDocumentMark (t : Token) : Lex Unit := do
  closeBlocks (-1)
  dropKeyStart
  allowKey false
  let col := (← get).col
  skipChars 3
  push t col

def lexFlowStart (dialect : Dialect) (t : Token) : Lex Unit := do
  saveKeyStart
  openColumn
  demand ((← get).flowLevel < 255)
  modify fun s => { s with
    keyStarts := ⟨false, false, 0, ⟨0, 0, 0⟩⟩ :: s.keyStarts, flowLevel := s.flowLevel + 1 }
  allowKey true
  let col := (← get).col
  skipChar
  if t == .flowMappingStart then
    modify fun s => { s with flowMappingStarted := true }
  else
    modify fun s => { s with openPairs := false :: s.openPairs }
  let _ ← skipLineEnd dialect
  push t col

def lexFlowEnd (dialect : Dialect) (t : Token) : Lex Unit := do
  dropKeyStart
  modify fun s =>
    if s.flowLevel > 0 then
      { s with flowLevel := s.flowLevel - 1, keyStarts := s.keyStarts.tail }
    else s
  allowKey false
  if t == .flowSequenceEnd then
    closePair
    modify fun s => { s with openPairs := s.openPairs.tail }
  let col := (← get).col
  skipChar
  let _ ← skipLineEnd dialect
  modify fun s => if s.flowLevel > 0 then { s with adjacentAt := s.index } else s
  push t col

def lexFlowEntry (dialect : Dialect) : Lex Unit := do
  dropKeyStart
  allowKey true
  closePair
  let col := (← get).col
  skipChar
  let _ ← skipLineEnd dialect
  push .flowEntry col

def lexBlockEntry (dialect : Dialect) : Lex Unit := do
  let s ← get
  demand (s.flowLevel == 0 && s.keyAllowed)
  match s.tokens.back? with
  | some (.anchor _, col) | some (.tag _ _, col) =>
    demand !(dialect.checksLineEnds && s.col == 0 && col == 0 && s.indent > -1)
  | _ => pure ()
  let mark ← here
  skipChar
  openBlock mark.col none .blockSequenceStart mark
  let found ← skipLineEnd dialect
  let c ← next
  demand !(found.tabs && c == '-' && isGap (← ahead 1))
  if isBreak c || isFlow c then openColumn
  dropKeyStart
  allowKey true
  pushHere .blockEntry

/-- Passes the spaces, comments and line breaks after a `?`; `passed` says that there was one. -/
def skipAfterKeyMark : Nat → Bool → Lex Unit
  | 0, _ => failure
  | fuel + 1, passed => do
    let c ← next
    if c == ' ' then
      skipWhite
      skipAfterKeyMark fuel true
    else if isBreak c then
      skipLineBreak
      if (← get).flowLevel == 0 then allowKey true
      skipAfterKeyMark fuel true
    else if c == '#' then
      skipComment
      skipAfterKeyMark fuel passed
    else
      demand (passed && c != '\t')

/-- The `?` before a key. -/
def lexKeyMark (dialect : Dialect) : Lex Unit := do
  let mark ← here
  let s ← get
  if s.flowLevel == 0 then
    demand s.keyAllowed
    openBlock mark.col none .blockMappingStart mark
  else
    set { s with flowMappingStarted := true }
  dropKeyStart
  allowKey (s.flowLevel == 0)
  skipChar
  if dialect.checksLineEnds then skipAfterKeyMark (← bound) false
  push .key mark.col

/-- The `:` between a key and its value. -/
def lexValueMark (dialect : Dialect) : Lex Unit := do
  let s ← get
  let mark ← here
  let pair := !s.openPairs.isEmpty && !s.flowMappingStarted
  if pair then modify fun s => { s with openPairs := true :: s.openPairs.tail }
  skipChar
  if dialect.checksLineEnds && (← next) == '\t' then
    let found ← skipBlanks true
    let c ← next
    demand (found.spaces || !(c == '-' || isNameChar c))
  match s.keyStarts with
  | [] => failure
  | k :: _ =>
    if k.possible then
      insertAt k.number .key k.mark.col
      if pair then
        demand (k.mark.line ≥ mark.line)
        insertAt k.number .flowMappingStart mark.col
      openBlock k.mark.col (some k.number) .blockMappingStart k.mark
      openColumn
      modify fun s => { s with
        keyStarts := { k with possible := false } :: s.keyStarts.tail }
      allowKey false
    else
      demand (dialect.looseFlow || !pair)
      if pair then pushHere .flowMappingStart
      if s.flowLevel == 0 then
        demand s.keyAllowed
        openBlock mark.col none .blockMappingStart mark
      openColumn
      allowKey (s.flowLevel == 0)
    push .value mark.col

/-- A token that may be a key or start one. -/
def lexNode (t : Lex Token) : Lex Unit := do
  saveKeyStart
  allowKey false
  let col := (← get).col
  push (← t) col

/-- A quoted scalar; a value may follow it without a blank. -/
def lexQuotedNode (dialect : Dialect) (single : Bool) : Lex Unit := do
  saveKeyStart
  allowKey false
  let col := (← get).col
  let t ← lexQuoted dialect single
  skipToToken dialect (← bound)
  modify fun s => { s with adjacentAt := s.index }
  push t col

/-- Adds the next token, and the tokens that indentation and keys ask for before it. Gives whether
the text goes on. -/
def lexNext (dialect : Dialect) : Lex Bool := do
  skipToToken dialect (← bound)
  dropStaleKeyStarts dialect
  let s ← get
  closeBlocks s.col
  let s ← get
  let c ← next
  let n ← ahead 1
  let inFlow := s.flowLevel > 0
  if isEnd c then
    lexStreamEnd
    return false
  if s.col == 0 && c == '%' then
    closeBlocks (-1)
    dropKeyStart
    allowKey false
    let t ← lexDirective dialect
    push t 0
  else if ← atDocumentMark '-' then lexDocumentMark .documentStart
  else if ← atDocumentMark '.' then
    lexDocumentMark .documentEnd
    let _ ← skipBlanks true
    demand (isBreakOrEnd (← next))
  else
    if dialect.indentsFlow then demand !((s.col : Int) < s.indent)
    let tightFlow := inFlow && !dialect.looseFlow
    if c == '[' then lexFlowStart dialect .flowSequenceStart
    else if c == '\x7b' then lexFlowStart dialect .flowMappingStart
    else if c == ']' then lexFlowEnd dialect .flowSequenceEnd
    else if c == '\x7d' then lexFlowEnd dialect .flowMappingEnd
    else if c == ',' then lexFlowEntry dialect
    else if c == '-' && isGap n then lexBlockEntry dialect
    else if c == '?' && (isGap n || tightFlow) then lexKeyMark dialect
    else if c == ':' &&
        (isGap n || tightFlow || (inFlow && (isFlow n || s.index == s.adjacentAt))) then
      lexValueMark dialect
    else if c == '*' then lexNode (do return .alias (← lexAnchorName dialect))
    else if c == '&' then lexNode (do return .anchor (← lexAnchorName dialect))
    else if c == '!' then lexNode lexTag
    else if (c == '|' || c == '>') && !inFlow then
      saveKeyStart
      allowKey true
      let col := s.col
      let t ← lexBlock dialect (c == '|')
      push t col
    else if (c == '|' || c == '>') && !dialect.barsInFlow then failure
    else if c.toNat == 0x27 then lexQuotedNode dialect true
    else if c == '"' then lexQuotedNode dialect false
    else if c == '%' || c == '@' || c.toNat == 0x60 then failure
    else lexNode (lexPlain dialect)
  return true

/-- Adds tokens up to the end of the text. -/
def lexAll (dialect : Dialect) : Nat → Lex Unit
  | 0 => failure
  | fuel + 1 => do
    if ← lexNext dialect then lexAll dialect fuel

/-- The tokens of a text. -/
def tokens? (dialect : Dialect) (text : String) : Option (List Token) :=
  let cs := text.toList
  match (lexAll dialect (2 * cs.length + 4)).run (.start cs) with
  | some (_, s) => some (s.tokens.toList.map (·.1))
  | none => none

end ClusterJobs.Yaml
