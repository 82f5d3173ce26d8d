/-!
# Addresses

Which texts are the address of a server, and how the target of a request splits into a path and a query.
A character that would have to be percent-encoded is refused, not encoded.
-/

namespace ClusterJobs.Web

/-- The longest address, in bytes. -/
def maxAddressLength : Nat := 65534

/-! ## Paths and queries -/

/-- The character may stand in any part of a target: no control, no space, none of `<`, `>`. -/
def isTargetChar (c : Char) : Bool :=
  c.toNat > 0x20 && c != '<' && c != '>'

/-- The character may stand in a path. -/
def isPathChar (c : Char) : Bool :=
  isTargetChar c && c.toNat != 0x60

/-- The character may stand in a query. -/
def isQueryChar (c : Char) : Bool :=
  isTargetChar c && c != '"'

/-- The character ends a path. -/
def endsPath (c : Char) : Bool :=
  c == '?' || c == '#'

/-- The path and the query of a target. What follows `#` belongs to neither. -/
def splitTarget? (cs : List Char) : Option (List Char × List Char) :=
  let path := cs.takeWhile fun c => !endsPath c
  if path.all isPathChar then
    match cs.dropWhile fun c => !endsPath c with
    | '?' :: rest =>
      let query := rest.takeWhile (· != '#')
      if query.all isQueryChar then some (path, query) else none
    | _ => some (path, [])
  else none

/-! ## Authorities -/

/-- The character may stand in a user, a host or a port; `%` is judged by where it stands. -/
def isAuthorityChar (c : Char) : Bool :=
  c.isAlphanum || "!$&'()*+,-.:;=@[]_~%".toList.contains c

/-- What was seen of an authority so far. -/
structure AuthorityScan where
  /-- Colons since the user or the bracketed host. -/
  colons : Nat
  /-- A bracket was opened. -/
  opened : Bool
  /-- A bracket was closed. -/
  closed : Bool
  /-- A percent sign since the user or the bracketed host. -/
  percent : Bool
  /-- The last character was `@`. -/
  afterUser : Bool
deriving DecidableEq, Repr

namespace AuthorityScan

def start : AuthorityScan := ⟨0, false, false, false, false⟩

/-- Goes on by one character. -/
def next? (s : AuthorityScan) (c : Char) : Option AuthorityScan :=
  let s := { s with afterUser := false }
  if !isAuthorityChar c then none
  else if c == ':' then
    if s.colons ≥ 8 then none else some { s with colons := s.colons + 1 }
  else if c == '[' then
    if s.percent || s.opened then none else some { s with opened := true }
  else if c == ']' then
    if !s.opened || s.closed then none
    else some { s with closed := true, colons := 0, percent := false }
  else if c == '@' then some { s with colons := 0, percent := false, afterUser := true }
  else if c == '%' then some { s with percent := true }
  else some s

/-- The authority may end here: brackets are closed, one port at most, a host behind a user, and no
percent sign in the host. -/
def complete (s : AuthorityScan) : Bool :=
  s.opened == s.closed && s.colons ≤ 1 && !s.afterUser && !s.percent

end AuthorityScan

/-- The authority at the front of a text, which ends before a path, a query or a fragment, and the
rest. -/
def takeAuthority? : AuthorityScan → List Char → Option (List Char × List Char)
  | s, [] => if s.complete then some ([], []) else none
  | s, c :: cs =>
    if c == '/' || endsPath c then
      if s.complete then some ([], c :: cs) else none
    else do
      let s ← s.next? c
      let (authority, rest) ← takeAuthority? s cs
      some (c :: authority, rest)

/-! ## Schemes -/

/-- The character may stand in the name of a scheme. -/
def isSchemeChar (c : Char) : Bool :=
  c.isAlphanum || c == '+' || c == '-' || c == '.' || c == '~'

/-- The scheme of an address and what follows `://`. -/
def splitScheme? (cs : List Char) : Option (List Char × List Char) :=
  match cs.dropWhile isSchemeChar with
  | ':' :: '/' :: '/' :: rest => some (cs.takeWhile isSchemeChar, rest)
  | _ => none

/-- The text is the address of a server: a host alone, a path alone, or a scheme with a host and
perhaps a path. -/
def isAddress (s : String) : Bool :=
  let cs := s.toList
  if s.utf8ByteSize > maxAddressLength then false
  else
    match cs with
    | [] => false
    | ['*'] => true
    | '/' :: _ => (splitTarget? cs).isSome
    | _ =>
      match splitScheme? cs with
      | some (scheme, rest) =>
        if scheme.length > 64 then false
        else
          match takeAuthority? .start rest with
          | some (authority, target) => !authority.isEmpty && (splitTarget? target).isSome
          | none => false
      | none =>
        match takeAuthority? .start cs with
        | some (_, rest) => rest.isEmpty
        | none => false

end ClusterJobs.Web
