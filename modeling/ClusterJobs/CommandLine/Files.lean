import ClusterJobs.Cluster.CredentialStore
import ClusterJobs.Manifest.Template
import ClusterJobs.Settings

/-!
# Files

What the program reads: its settings, the templates that replace built-in ones, the credentials of
clusters, and what it is asked to work on.
-/

namespace ClusterJobs.CommandLine

/-- Why a file cannot be read. -/
inductive FileFault where
  | missing
  | directory
  /-- A part of the path before the last is a file. -/
  | notDirectory
  | denied
  | notText
deriving DecidableEq, Repr

def FileFault.message : FileFault → String
  | missing => "No such file or directory (os error 2)"
  | directory => "Is a directory (os error 21)"
  | notDirectory => "Not a directory (os error 20)"
  | denied => "Permission denied (os error 13)"
  | notText => "stream did not contain valid UTF-8"

/-- The call of the program to its surroundings. -/
inductive FileCall where
  | read (path : String)

/-- What the call is answered with. -/
def FileAnswer : FileCall → Type
  | .read _ => Except FileFault String

/-- What is done with the help of files. -/
abbrev FileProgram := Program FileCall FileAnswer

/-- Reads a file. -/
def readText (path : String) : FileProgram (Except FileFault String) :=
  Program.call (.read path)

/-- The path of a file in a directory. -/
def inDirectory (directory name : String) : String :=
  if directory.isEmpty || directory.endsWith "/" then directory ++ name
  else directory ++ "/" ++ name

/-- Settings from a file, if one is named, and the environment. -/
def readSettings (path : Option String) (env : Settings.Environment) :
    FileProgram (Except Fault Settings) := do
  match path with
  | none => return Settings.load none env
  | some path =>
    match ← readText path with
    | .ok text => return Settings.load (some text) env
    | .error e => return .error (.config ("failed to read " ++ path ++ ": " ++ e.message))

/-- A value from a file with one document. -/
def readDocument {α : Type} (d : Decoder α) (path : String) : FileProgram (Except String α) := do
  match ← readText path with
  | .error _ => return .error ("failed to read " ++ path)
  | .ok text =>
    match (Wire.ofYaml? text).bind d with
    | some a => return .ok a
    | none => return .error ("failed to parse " ++ path)

/-- Replaces templates by the files of a directory that bear their names. -/
def readTemplates (directory : String) : List TemplateName → Templates →
    FileProgram (Except JobFault Templates)
  | [], ts => return .ok ts
  | name :: rest, ts => do
    let path := inDirectory directory (name.stem ++ ".yaml")
    match ← readText path with
    | .ok text =>
      match Templates.replace [(name.stem, text)] ts name with
      | .ok ts => readTemplates directory rest ts
      | .error e => return .error e
    | .error .missing => readTemplates directory rest ts
    | .error .directory => readTemplates directory rest ts
    | .error .notDirectory => readTemplates directory rest ts
    | .error e =>
      return .error (Templates.unusable name ("failed to read " ++ path ++ ": " ++ e.message))

/-- The templates of some settings. -/
def templatesOf (s : Settings) : FileProgram (Except JobFault Templates) :=
  match s.templateDir with
  | some directory => readTemplates directory TemplateName.all TemplateName.builtin
  | none => pure (.ok TemplateName.builtin)

/-- Reads the registered credential files. -/
def readCredentials : Fields String → FileProgram (Fields (Except Fault String))
  | [] => return []
  | (cluster, path) :: rest => do
    let answer ← readText path
    let file := answer.mapError fun e : FileFault =>
      Fault.cluster cluster ("failed to read kubeconfig " ++ path ++ ": " ++ e.message)
    let others ← readCredentials rest
    return (cluster, file) :: others

/-- The credential files of some settings. -/
def credentialsOf (s : Settings) : FileProgram CredentialStore := do
  let files ← readCredentials s.kubeconfigs
  return ⟨files, []⟩

end ClusterJobs.CommandLine
