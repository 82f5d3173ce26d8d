import ClusterJobs.Text.Blank

/-!
# Options

The words of a command line are read level by level: options with their values up to the name of a
command, whose own words follow. A value stands in the same word as its option or in the next one.
-/

namespace ClusterJobs.CommandLine

/-- What help adds to the line on an option. -/
inductive Note where
  /-- The variable that stands in for the option. -/
  | variable (name : String)
  /-- The value where none is given. -/
  | fallback (value : String)
  /-- The only values. -/
  | choices (values : List String)
deriving DecidableEq, Repr

/-- An option that takes a value. -/
structure OptionSpec where
  long : String
  short : Option Char
  required : Bool
  accepts : String → Bool
  about : String
  notes : List Note

/-- The variable that stands in for an option. -/
def OptionSpec.variable? (o : OptionSpec) : Option String :=
  o.notes.findSome? fun
    | .variable name => some name
    | _ => none

/-- The options of a level, the commands that may follow them, and what help says of it. -/
structure Level where
  path : String
  about : String
  /-- What help adds where it is asked for in full. -/
  details : Option String
  options : List OptionSpec
  /-- Commands, each with what help says of it. -/
  commands : List (String × String)
  hasVersion : Bool

/-- Why a command line does not lead to an action. -/
inductive Stop where
  /-- The words make no sense. -/
  | usage
  /-- Help was asked for. -/
  | help (on : Level) (full : Bool)
  /-- The version was asked for. -/
  | version

/-- The last option read, while its value is not settled. -/
inductive Awaiting where
  | nothing
  | value (o : OptionSpec)
  /-- The value came in a word of its own. It is looked at when the next option is read. -/
  | verdict (o : OptionSpec) (value : String)

/-- What was read of a level. -/
structure Scan where
  given : List (String × String)
  awaiting : Awaiting

namespace Scan

def start : Scan := ⟨[], .nothing⟩

/-- Takes the value of an option, which may be given once at each level. -/
def record (s : Scan) (o : OptionSpec) (value : String) : Except Stop Scan :=
  if (s.given.lookup o.long).isSome || !o.accepts value then .error .usage
  else .ok ⟨(o.long, value) :: s.given, .nothing⟩

/-- Settles the last option. -/
def settle (s : Scan) : Except Stop Scan :=
  match s.awaiting with
  | .nothing => .ok s
  | .value _ => .error .usage
  | .verdict o value => { s with awaiting := .nothing }.record o value

/-- Reads an option; its value may have come with it. -/
def take (s : Scan) (o : OptionSpec) (value : Option String) : Except Stop Scan := do
  let s ← s.settle
  match value with
  | some v => s.record o v
  | none => .ok { s with awaiting := .value o }

/-- Reads a switch, which stops the reading. -/
def stopAt (s : Scan) (stop : Stop) (value : Option String) : Except Stop Scan := do
  let _ ← s.settle
  if value.isSome then .error .usage else .error stop

end Scan

namespace Level

/-- Reads an option by its long name. -/
def takeLong (l : Level) (s : Scan) (name : String) (value : Option String) : Except Stop Scan :=
  if name == "help" then s.stopAt (.help l true) value
  else if name == "version" && l.hasVersion then s.stopAt .version value
  else
    match l.options.find? fun o => o.long == name with
    | some o => s.take o value
    | none => .error .usage

/-- Reads an option by its letter; `rest` stands behind the letter in the same word. -/
def takeShort (l : Level) (s : Scan) (letter : Char) (rest : List Char) : Except Stop Scan :=
  if letter == 'h' then s.stopAt (.help l false) none
  else if letter == 'V' && l.hasVersion then s.stopAt .version none
  else
    match l.options.find? fun o => o.short == some letter with
    | some o =>
      match rest with
      | [] => s.take o none
      | '=' :: value => s.take o (some (String.ofList value))
      | value => s.take o (some (String.ofList value))
    | none => .error .usage

/-- Reads a word that is neither a command nor the mark `--`. -/
def takeWord (l : Level) (s : Scan) (word : String) : Except Stop Scan :=
  match word.toList with
  | '-' :: '-' :: cs =>
    let name := String.ofList (cs.takeWhile (· != '='))
    match cs.dropWhile (· != '=') with
    | _ :: value => l.takeLong s name (some (String.ofList value))
    | [] => l.takeLong s name none
  | '-' :: letter :: rest => l.takeShort s letter rest
  | _ =>
    match s.awaiting with
    | .value o => .ok { s with awaiting := .verdict o word }
    | _ => .error .usage

/-- A value is due. -/
def expectsValue (s : Scan) : Bool :=
  match s.awaiting with
  | .value _ => true
  | _ => false

/-- Reads the words of a level up to a command, which is given with the words behind it. Behind `--`
nothing may follow. -/
def scan (l : Level) : Scan → List String → Except Stop (Scan × Option (String × List String))
  | s, [] => .ok (s, none)
  | s, word :: words =>
    if !expectsValue s && (l.commands.lookup word).isSome then .ok (s, some (word, words))
    else if word == "--" then
      if words.isEmpty then .ok (s, none) else .error .usage
    else
      match l.takeWord s word with
      | .ok s => l.scan s words
      | .error stop => .error stop

end Level

end ClusterJobs.CommandLine
