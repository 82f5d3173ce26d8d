import ClusterJobs.CommandLine.Help
import ClusterJobs.TaskType

/-!
# Arguments

The commands of the program. Two options may stand at every level, and an environment variable stands
in for each: the option nearest to the command counts, then the variable.
-/

namespace ClusterJobs.CommandLine

/-- How log lines are written. -/
inductive LogFormat where
  | text
  | json
deriving DecidableEq, Repr

/-- A file that holds a request, and the task type that shapes it. -/
structure RequestArgs where
  path : String
  taskType : Option TaskType
deriving DecidableEq, Repr

/-- What the program is asked to do. -/
inductive Action where
  /-- Print the manifests of a request. -/
  | compile (request : RequestArgs)
  /-- Run a request to its outcome. -/
  | run (request : RequestArgs)
  /-- Delete whatever a request may have created. -/
  | cancel (request : RequestArgs)
  | createQueue (path : String)
  /-- Print the queue that a request for one becomes. -/
  | renderQueue (path : String)
  | listGpuTypes
deriving DecidableEq, Repr

/-- What the program is asked to do, and how. -/
structure Invocation where
  config : Option String
  logFormat : LogFormat
  action : Action
deriving DecidableEq, Repr

/-! ## Options -/

/-- A path is not empty. -/
def isPath (s : String) : Bool := !s.isEmpty

def LogFormat.ofName? (s : String) : Option LogFormat :=
  if s == "text" then some .text else if s == "json" then some .json else none

/-- The task type that a text spells. -/
def taskType? (s : String) : Option TaskType :=
  match TaskType.parse s with
  | .ok t => some t
  | .error _ => none

/-! ## Levels -/

def configOption : OptionSpec :=
  ⟨"config", none, false, isPath, "Engine configuration file (YAML)", [.variable "KUBETASK_CONFIG"]⟩

def logFormatOption : OptionSpec :=
  ⟨"log-format", none, false, fun s => (LogFormat.ofName? s).isSome, "Log line format",
    [.variable "KUBETASK_LOG_FORMAT", .fallback "text", .choices ["text", "json"]]⟩

/-- The options of every level. -/
def globalOptions : List OptionSpec := [configOption, logFormatOption]

def requestOption : OptionSpec :=
  ⟨"request", some 'r', true, isPath, "Execution request file (YAML or JSON)", []⟩

def taskTypeOption : OptionSpec :=
  ⟨"task-type", none, false, fun s => (taskType? s).isSome,
    "Scheduler task type selecting the workload shape", []⟩

/-- The option that names a file; help says of it what the command has to say. -/
def fileOption (about : String) : OptionSpec :=
  ⟨"file", some 'f', true, isPath, about, []⟩

/-- The level of a command on a request. -/
def requestLevel (path about : String) (details : Option String) : Level :=
  ⟨path, about, details, [configOption, requestOption, logFormatOption, taskTypeOption], [], false⟩

def compileLevel : Level :=
  requestLevel "kubetask compile" "Print the manifests a request compiles to" none

def runLevel : Level :=
  requestLevel "kubetask run" "Submit a request and wait for its outcome"
    (some "Ctrl-C resolves the run as KILLED and deletes what was submitted.")

def cancelLevel : Level :=
  requestLevel "kubetask cancel" "Delete every object a request may have created" none

/-- The level of a command on a file. -/
def fileLevel (path about aboutFile : String) : Level :=
  ⟨path, about, none, [configOption, fileOption aboutFile, logFormatOption], [], false⟩

def createLevel : Level :=
  fileLevel "kubetask queue create" "Create a queue and its Volcano queue"
    "Queue request file (YAML or JSON)"

def renderLevel : Level :=
  fileLevel "kubetask queue render" "Print the Volcano queue a request renders to" ""

def gpuTypesLevel : Level :=
  ⟨"kubetask queue gpu-types", "List the GPU resource keys capabilities may use", none, globalOptions,
    [], false⟩

/-- A level as its command is listed. -/
def listed (name : String) (l : Level) : String × String :=
  (name, l.about)

/-- The command that prints help, as it is listed. -/
def helpListed : String × String :=
  ("help", "Print this message or the help of the given subcommand(s)")

def queueLevel : Level :=
  ⟨"kubetask queue", "Queue admission", none, globalOptions,
    [listed "create" createLevel, listed "render" renderLevel, listed "gpu-types" gpuTypesLevel,
      helpListed], false⟩

def rootLevel : Level :=
  ⟨"kubetask", "Kubernetes task execution and queue admission engine for a workflow scheduler", none,
    globalOptions,
    [listed "compile" compileLevel, listed "run" runLevel, listed "cancel" cancelLevel,
      listed "queue" queueLevel, helpListed], true⟩

/-- The level that the words behind the command for help lead to. -/
def helpedLevel? : List String → Option Level
  | [] => some rootLevel
  | ["compile"] => some compileLevel
  | ["run"] => some runLevel
  | ["cancel"] => some cancelLevel
  | ["queue"] => some queueLevel
  | ["queue", "create"] => some createLevel
  | ["queue", "render"] => some renderLevel
  | ["queue", "gpu-types"] => some gpuTypesLevel
  | _ => none

/-! ## Reading -/

/-- Values of options by name, those of the innermost level first. -/
abbrev Given := List (String × String)

/-- The value of the variable that stands in for an option. -/
def standIn? (env : Fields String) (o : OptionSpec) : Option String :=
  o.variable?.bind env.get?

/-- The variable of an option is unset, or a value that the option accepts. -/
def variableFits (env : Fields String) (o : OptionSpec) : Bool :=
  (standIn? env o).all o.accepts

/-- The values of a level. Where an option is not given, its variable is checked. -/
def close (env : Fields String) (s : Scan) : Except Stop Given := do
  let s ← s.settle
  let absent := globalOptions.filter fun o => (s.given.lookup o.long).isNone
  if absent.all (variableFits env) then .ok s.given else .error .usage

/-- Reads a level without commands. -/
def readLeaf (env : Fields String) (l : Level) (words : List String) : Except Stop Given := do
  let (s, _) ← l.scan .start words
  close env s

/-- An option that has to be given. -/
def need (given : Given) (name : String) : Except Stop String :=
  match given.lookup name with
  | some v => .ok v
  | none => .error .usage

/-- Reads the words of a command on a request. -/
def readRequest (env : Fields String) (l : Level) (action : RequestArgs → Action)
    (words : List String) : Except Stop (Action × Given) := do
  let given ← readLeaf env l words
  let path ← need given "request"
  .ok (action ⟨path, (given.lookup "task-type").bind taskType?⟩, given)

/-- Reads the words of a command on a file. -/
def readFile (env : Fields String) (l : Level) (action : String → Action) (words : List String) :
    Except Stop (Action × Given) := do
  let given ← readLeaf env l words
  let path ← need given "file"
  .ok (action path, given)

/-- Reads the words behind the command for help. -/
def readHelp (words : List String) : Stop :=
  match helpedLevel? words with
  | some l => .help l true
  | none => .usage

/-- Reads the words of a command on queues. -/
def readQueue (env : Fields String) (words : List String) : Except Stop (Action × Given) := do
  let (s, command) ← queueLevel.scan .start words
  match command with
  | none => .error .usage
  | some (name, words) =>
    let (action, inner) ← match name with
      | "create" => readFile env createLevel .createQueue words
      | "render" => readFile env renderLevel .renderQueue words
      | "gpu-types" => (readLeaf env gpuTypesLevel words).map fun given => (.listGpuTypes, given)
      | _ => .error (readHelp ("queue" :: words))
    let outer ← close env s
    .ok (action, inner ++ outer)

/-- The value of an option of every level. -/
def globalValue (env : Fields String) (given : Given) (o : OptionSpec) : Option String :=
  (given.lookup o.long).or (standIn? env o)

/-- Reads a command line. -/
def Invocation.parse (env : Fields String) (words : List String) : Except Stop Invocation := do
  let (s, command) ← rootLevel.scan .start words
  match command with
  | none => .error .usage
  | some (name, words) =>
    let (action, inner) ← match name with
      | "compile" => readRequest env compileLevel .compile words
      | "run" => readRequest env runLevel .run words
      | "cancel" => readRequest env cancelLevel .cancel words
      | "queue" => readQueue env words
      | _ => .error (readHelp words)
    let outer ← close env s
    let given := inner ++ outer
    .ok {
      config := globalValue env given configOption
      logFormat := ((globalValue env given logFormatOption).bind LogFormat.ofName?).getD .text
      action := action }

end ClusterJobs.CommandLine
