import ClusterJobs.CommandLine.Files

/-!
# A rehearsal of a directory

Files in memory, under their paths in the directory that the program runs in.
-/

namespace ClusterJobs.Simulation

open CommandLine

/-- The files of a directory, by path. -/
abbrev Directory := Fields String

namespace Directory

/-- The names on a path, resolved from the directory itself. -/
def names (path : String) : List (List Char) :=
  (Text.splitOnChar (· == '/') path.toList).foldl (fun done name =>
    if name.isEmpty || name == ['.'] then done
    else if name == ['.', '.'] then done.dropLast
    else done ++ [name]) []

/-- The file of a path. -/
def file? (d : Directory) (path : List (List Char)) : Option String :=
  (d.find? fun p => names p.1 == path).map Prod.snd

/-- Reads a file. -/
def read (d : Directory) (path : String) : Except FileFault String :=
  let parts := names path
  if path.isEmpty || path.startsWith "/" then .error .missing
  else
    match d.file? parts with
    | some text => if path.endsWith "/" then .error .notDirectory else .ok text
    | none =>
      if d.any fun p => parts.isPrefixOf (names p.1) then .error .directory
      else if parts.isEmpty then .error .directory
      else if d.any fun p => (names p.1).isPrefixOf parts then .error .notDirectory
      else .error .missing

/-- Answers calls. -/
def handler : Program.Handler FileCall FileAnswer Directory
  | .read path, d => (d.read path, d)

end Directory

end ClusterJobs.Simulation
