import ClusterJobs.CommandLine.Options
import ClusterJobs.Fields

/-!
# Help

What is printed where help on a level is asked for: what the level does, how it is written, its
commands and its options. Each option has two lines, and a space between options in full help.
-/

namespace ClusterJobs.CommandLine

/-- The name of the value of an option. -/
def OptionSpec.valueName (o : OptionSpec) : String :=
  o.long.map fun c => if c == '-' then '_' else c.toUpper

/-- An option as it is written. -/
def OptionSpec.usage (o : OptionSpec) : String :=
  "--" ++ o.long ++ " <" ++ o.valueName ++ ">"

/-- A note in the brackets of help; a variable is shown with its value. -/
def Note.text (env : Fields String) : Note → String
  | .variable name => "[env: " ++ name ++ "=" ++ (env.get? name).getD "" ++ "]"
  | .fallback value => "[default: " ++ value ++ "]"
  | .choices values => "[possible values: " ++ ", ".intercalate values ++ "]"

/-- An entry of the list of options. -/
structure HelpEntry where
  short : Option Char
  text : String
  about : String
  notes : List String

namespace HelpEntry

/-- The room in front of what is said of an option. -/
def indent : String := "          "

/-- What is said of an option; notes have lines of their own in full help. -/
def body (full : Bool) (e : HelpEntry) : List String :=
  if full then
    e.about :: if e.notes.isEmpty then [] else "" :: e.notes
  else
    [" ".intercalate ((e.about :: e.notes).filter (!·.isEmpty))]

/-- The lines of an entry. -/
def lines (full : Bool) (e : HelpEntry) : List String :=
  let letter := match e.short with
    | some c => String.ofList ['-', c, ',', ' ']
    | none => "    "
  ("  " ++ letter ++ e.text) :: (e.body full).map (indent ++ ·)

end HelpEntry

namespace Level

/-- Help on a level is longer in full than in brief. -/
def hasDetails (l : Level) : Bool := l.details.isSome

/-- How the level is written. -/
def usage (l : Level) : String :=
  " ".intercalate (l.path :: "[OPTIONS]" :: (l.options.filter (·.required)).map OptionSpec.usage ++
    if l.commands.isEmpty then [] else ["<COMMAND>"])

/-- The entries of the options of a level, with those that every level has. -/
def entries (l : Level) (env : Fields String) (full : Bool) : List HelpEntry :=
  let asked :=
    if !l.hasDetails then "Print help"
    else if full then "Print help (see a summary with '-h')"
    else "Print help (see more with '--help')"
  l.options.map (fun o => ⟨o.short, o.usage, o.about, o.notes.map (Note.text env)⟩) ++
    [⟨some 'h', "--help", asked, []⟩] ++
    if l.hasVersion then [⟨some 'V', "--version", "Print version", []⟩] else []

/-- The lines on the commands of a level, in two columns. -/
def commandLines (l : Level) : List String :=
  let width := l.commands.foldl (fun n c => max n c.1.length) 0
  l.commands.map fun c => "  " ++ String.ofList (c.1.toList.rightpad width ' ') ++ "  " ++ c.2

/-- Help on a level. -/
def help (l : Level) (env : Fields String) (full : Bool) : String :=
  let full := full && l.hasDetails
  let about := if full then l.about :: l.details.toList else [l.about]
  let options := (l.entries env full).map fun e => "\n".intercalate (e.lines full)
  let commands :=
    if l.commands.isEmpty then [] else ["\n".intercalate ("Commands:" :: l.commandLines)]
  "\n\n".intercalate (about.filter (!·.isEmpty) ++ ["Usage: " ++ l.usage] ++ commands ++
    ["Options:\n" ++ (if full then "\n\n" else "\n").intercalate options]) ++ "\n"

end Level

end ClusterJobs.CommandLine
