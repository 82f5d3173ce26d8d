import ClusterJobs.Yaml.Lexer

/-!
# YAML nodes

The tokens of a document form a tree of scalars, sequences and mappings. An alias stands for the node
of its anchor; the node of an anchor that is still open has no value yet.
-/

namespace ClusterJobs.Yaml

/-- A tag with its handle replaced by what the handle stands for. -/
structure Tag where
  handle : String
  suffix : String
deriving DecidableEq, Repr

/-- A node of a document. `unfinished` is an alias to a node that contains the alias. -/
inductive Node where
  | scalar (style : Style) (tag : Option Tag) (text : String)
  | sequence (items : List Node)
  | mapping (pairs : List (Node × Node))
  | unfinished
deriving Inhabited

/-- The node that stands where nothing is written. -/
def Node.nothing : Node := .scalar .plain none ""

/-- The state of building nodes from tokens. -/
structure Builder where
  tokens : List Token
  /-- The latest number of each anchor. -/
  anchors : List (String × Nat)
  count : Nat
  /-- The nodes of the anchors that are complete. -/
  finished : List (Nat × Node)
  handles : List (String × String)

/-- Building may refuse the tokens. -/
abbrev Build := StateT Builder Option

namespace Build

def peek : Build Token := do
  return (← get).tokens.headD .streamEnd

def skip : Build Unit :=
  modify fun b => { b with tokens := b.tokens.tail }

/-- Gives an anchor a new number. -/
def openAnchor (name : String) : Build Nat := do
  let b ← get
  set { b with anchors := (name, b.count) :: b.anchors, count := b.count + 1 }
  return b.count

/-- Records the node of an anchor. -/
def closeAnchor (anchor : Option Nat) (n : Node) : Build Node := do
  match anchor with
  | some id => modify fun b => { b with finished := (id, n) :: b.finished }
  | none => pure ()
  return n

/-- The node of an alias. -/
def aliasNode (name : String) : Build Node := do
  let b ← get
  match b.anchors.lookup name with
  | none => failure
  | some id => return (b.finished.lookup id).getD .unfinished

/-- Replaces the handle of a tag. -/
def resolveTag (handle suffix : String) : Build Tag := do
  let handles := (← get).handles
  if handle == "!!" then
    return ⟨(handles.lookup "!!").getD "tag:yaml.org,2002:", suffix⟩
  else if handle == "" && suffix == "!" then
    return ⟨(handles.lookup "").getD "", suffix⟩
  else
    match handles.lookup handle with
    | some start => return ⟨start, suffix⟩
    | none =>
      let cs := handle.toList
      if cs.length ≥ 2 && cs.head? == some '!' && cs.getLast? == some '!' then failure
      else return ⟨handle, suffix⟩

/-- The tag and the anchor before a node, in either order. -/
def properties : Build (Option Tag × Option Nat) := do
  match ← peek with
  | .anchor name =>
    skip
    let id ← openAnchor name
    match ← peek with
    | .tag handle suffix =>
      skip
      return (some (← resolveTag handle suffix), some id)
    | _ => return (none, some id)
  | .tag handle suffix =>
    skip
    let tag ← resolveTag handle suffix
    match ← peek with
    | .anchor name =>
      skip
      return (some tag, some (← openAnchor name))
    | _ => return (some tag, none)
  | _ => return (none, none)

mutual

/-- A node. Block collections only where `block` allows them; a sequence at the indentation of its
key only where `indentless` allows it. -/
def node (block indentless : Bool) : Nat → Build Node
  | 0 => failure
  | fuel + 1 => do
    match ← peek with
    | .alias name =>
      skip
      aliasNode name
    | _ =>
      let (tag, anchor) ← properties
      match ← peek with
      | .scalar style text =>
        skip
        closeAnchor anchor (.scalar style tag text)
      | .flowSequenceStart =>
        skip
        closeAnchor anchor (.sequence (← flowItems fuel true))
      | .flowMappingStart =>
        skip
        closeAnchor anchor (.mapping (← flowPairs fuel true))
      | .blockEntry =>
        if indentless then closeAnchor anchor (.sequence (← looseItems fuel))
        else emptyNode tag anchor
      | .blockSequenceStart =>
        if block then
          skip
          closeAnchor anchor (.sequence (← blockItems fuel))
        else emptyNode tag anchor
      | .blockMappingStart =>
        if block then
          skip
          closeAnchor anchor (.mapping (← blockPairs fuel))
        else emptyNode tag anchor
      | _ => emptyNode tag anchor

/-- A node of which only the tag or the anchor is written. -/
def emptyNode (tag : Option Tag) (anchor : Option Nat) : Build Node := do
  if tag.isSome || anchor.isSome then closeAnchor anchor (.scalar .plain tag "")
  else failure

/-- The items of a block sequence up to its end. -/
def blockItems : Nat → Build (List Node)
  | 0 => failure
  | fuel + 1 => do
    match ← peek with
    | .blockEnd =>
      skip
      return []
    | .blockEntry =>
      skip
      let item ← match ← peek with
        | .blockEntry | .blockEnd => pure Node.nothing
        | _ => node true false fuel
      return item :: (← blockItems fuel)
    | _ => failure

/-- The items of a block sequence at the indentation of its key. -/
def looseItems : Nat → Build (List Node)
  | 0 => failure
  | fuel + 1 => do
    match ← peek with
    | .blockEntry =>
      skip
      let item ← match ← peek with
        | .blockEntry | .key | .value | .blockEnd => pure Node.nothing
        | _ => node true false fuel
      return item :: (← looseItems fuel)
    | _ => return []

/-- The pairs of a block mapping up to its end. -/
def blockPairs : Nat → Build (List (Node × Node))
  | 0 => failure
  | fuel + 1 => do
    let done ← match ← peek with
      | .blockEnd => pure true
      | .key | .value => pure false
      | _ => failure
    if done then
      skip
      return []
    let key ← match ← peek with
      | .key => do
        skip
        match ← peek with
        | .key | .value | .blockEnd => pure Node.nothing
        | _ => node true true fuel
      | _ => pure Node.nothing
    let value ← match ← peek with
      | .value => do
        skip
        match ← peek with
        | .key | .value | .blockEnd => pure Node.nothing
        | _ => node true true fuel
      | _ => pure Node.nothing
    return (key, value) :: (← blockPairs fuel)

/-- The items of a flow sequence up to its end. An item with a colon is a mapping of one pair. -/
def flowItems : Nat → Bool → Build (List Node)
  | 0, _ => failure
  | fuel + 1, first => do
    match ← peek with
    | .flowSequenceEnd => pure ()
    | .flowEntry => if first then pure () else skip
    | _ => if first then pure () else failure
    match ← peek with
    | .flowSequenceEnd =>
      skip
      return []
    | .key =>
      skip
      let key ← match ← peek with
        | .value | .flowEntry | .flowSequenceEnd => do
          skip
          pure Node.nothing
        | _ => node false false fuel
      let value ← match ← peek with
        | .value => do
          skip
          match ← peek with
          | .flowEntry | .flowSequenceEnd => pure Node.nothing
          | _ => node false false fuel
        | _ => pure Node.nothing
      return .mapping [(key, value)] :: (← flowItems fuel false)
    | _ =>
      let item ← node false false fuel
      return item :: (← flowItems fuel false)

/-- The pairs of a flow mapping up to its end. -/
def flowPairs : Nat → Bool → Build (List (Node × Node))
  | 0, _ => failure
  | fuel + 1, first => do
    match ← peek with
    | .flowMappingEnd => pure ()
    | .flowEntry => if first then pure () else skip
    | _ => if first then pure () else failure
    match ← peek with
    | .flowMappingEnd =>
      skip
      return []
    | .key =>
      skip
      let key ← match ← peek with
        | .value | .flowEntry | .flowMappingEnd => pure Node.nothing
        | _ => node false false fuel
      let value ← flowValue fuel
      return (key, value) :: (← flowPairs fuel false)
    | .value =>
      let value ← flowValue fuel
      return (Node.nothing, value) :: (← flowPairs fuel false)
    | _ =>
      let key ← node false false fuel
      return (key, Node.nothing) :: (← flowPairs fuel false)

/-- The value after a key of a flow mapping. -/
def flowValue : Nat → Build Node
  | 0 => failure
  | fuel + 1 => do
    match ← peek with
    | .value =>
      skip
      match ← peek with
      | .flowEntry | .flowMappingEnd => return Node.nothing
      | _ => node false false fuel
    | _ => return Node.nothing

end

/-- Reads the directives before a document. At most one names a version, and each handle is given
once. -/
def directives : Nat → Bool → Build Unit
  | 0, _ => failure
  | fuel + 1, versioned => do
    match ← peek with
    | .versionDirective =>
      if versioned then failure
      skip
      directives fuel true
    | .tagDirective handle start =>
      skip
      if handle != "" then
        modify fun b => { b with handles := (handle, start) :: b.handles }
      directives fuel versioned
    | _ => pure ()

/-- The documents up to the end of the text. A document without `---` may only stand first or after
`...`. -/
def documents (bound : Nat) : Nat → Bool → Build (List Node)
  | 0, _ => failure
  | fuel + 1, bare => do
    match ← peek with
    | .documentEnd =>
      skip
      documents bound fuel bare
    | .streamEnd => return []
    | t =>
      modify fun b => { b with anchors := [], handles := [] }
      let explicit := match t with
        | .versionDirective | .tagDirective _ _ | .documentStart => true
        | _ => !bare
      directives bound false
      let root ←
        if explicit then do
          match ← peek with
          | .documentStart => skip
          | _ => failure
          match ← peek with
          | .versionDirective | .tagDirective _ _ | .documentStart | .documentEnd | .streamEnd =>
            pure Node.nothing
          | _ => node true false bound
        else node true false bound
      match ← peek with
      | .documentEnd =>
        skip
        return root :: (← documents bound fuel true)
      | .versionDirective | .tagDirective _ _ => failure
      | _ => return root :: (← documents bound fuel false)

end Build

/-- The root nodes of the documents of a text. -/
def documents? (dialect : Dialect) (text : String) : Option (List Node) := do
  let ts ← tokens? dialect text
  let bound := 4 * ts.length + 8
  let (roots, _) ← (Build.documents bound bound true).run ⟨ts, [], 0, [], []⟩
  return roots

end ClusterJobs.Yaml
