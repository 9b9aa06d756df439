import JobBinding.Binding.Listing
import JobBinding.Cluster.Definition
import JobBinding.CommandLine.Output
import JobBinding.Scenario.Mode
import JobBinding.Validation.Directory

/-!
# Running a command

What a call shows, how it ends and what it does to the files, given all that the calling process can
learn from its surroundings.
-/

namespace JobBinding.CommandLine

/-- The surroundings of a process. -/
structure Host where
  environment : Environment
  tools : Tools
  hostname : String
  cores : SortedSet CoreId
  site : Gather.Site

/-- How a command ends. -/
inductive Ending where
  | finished
  | failed (message : String)
  /-- It still waits for other processes. -/
  | waiting
  deriving DecidableEq, Repr

/-- The path of a directory that is the working directory of a process. -/
def workingPath (files : FileTree) : String :=
  "/" ++ "/".intercalate files.workingDirectory

/-! ## Validating directories -/

/-- What a process has to know to execute an action. -/
structure Job where
  cluster : String
  scenario : Scenario
  mode : Mode
  origin : Option Origin
  deriving DecidableEq, Repr

namespace Job

/-- The origin of a serial job. If the current cluster cannot be detected, the binding is
validated all the same. -/
def originOf (tools : Tools) (scenario : Scenario) (submitted : String) : Option Origin :=
  match scenario, tools.clusterName with
  | .serial, .ok executed => some ⟨submitted, executed⟩
  | _, _ => none

/-- The job of an action on the cluster that the environment names. -/
def find (host : Host) (globals : Globals) (action : String) : Files Job := do
  let cluster ← Files.ofExcept (host.environment.required "ACTION_CLUSTER")
  let catalog ← Catalog.load host.environment globals.clusters
  let capacity ← Files.ofExcept (catalog.lookup cluster)
  let scenario ← Files.ofExcept (Scenario.ofName action)
  let mode ← Files.ofExcept (scenario.mode capacity)
  return ⟨cluster, scenario, mode, originOf host.tools scenario cluster⟩

/-- The place of the report on a directory. -/
def report (job : Job) (root directory : String) : ReportFile :=
  .place root job.cluster directory job.scenario.name

/-- Validates the job on one directory. -/
def validate (job : Job) (host : Host) (root directory : String) : Files Validation.Progress :=
  let file := job.report root directory
  Validation.directory (host.tools.probe host.hostname host.cores) job.mode job.origin file host.site
    fun file => Gather.Participant.ofEnvironment host.environment host.hostname host.site.now
      file.directory file.action

/-- Validates the job on directories, from left to right, up to the first failure. -/
def validateAll (job : Job) (host : Host) (root : String) :
    List String → FileTree → List Shown × Ending × FileTree
  | [], files => ([], .finished, files)
  | directory :: rest, files =>
    match (job.validate host root directory).run files with
    | .error e files => ([], .failed e.message, files)
    | .ok .waiting files => ([], .waiting, files)
    | .ok (.done verdict) files =>
      let shown := verdict.toList.map (Shown.verdict (job.report root directory).path)
      let (others, ending, files) := job.validateAll host root rest files
      (shown ++ others, ending, files)

end Job

/-! ## Commands -/

def clusterFor (tools : Tools) : Option String → Except Failure String
  | some name => .ok name
  | none => tools.clusterName

def prepareProject (host : Host) (globals : Globals) (cluster : Option String) (directory : String)
    (options : Project.Options) : Files (List Shown) := do
  let catalog ← Catalog.load host.environment globals.clusters
  let cluster ← Files.ofExcept (clusterFor host.tools cluster)
  let workflow ← Project.prepare catalog cluster directory options
  return [.workflow (Project.documentPath directory) workflow]

/-- The end of a summary: it fails if a report did not pass. -/
def summaryEnding (all : List Summary) : Ending :=
  let failing := all.countP (·.isFailing)
  if failing = 0 then .finished
  else .failed (toString failing ++ " of " ++ toString all.length ++ " reports did not pass")

/-- A computation on files that shows something and then ends. -/
def endingOf (files : FileTree) (action : Files (List Shown)) : List Shown × Ending × FileTree :=
  match action.run files with
  | .ok shown files => (shown, .finished, files)
  | .error e files => ([], .failed e.message, files)

/-- What a command shows, how it ends and what it leaves. -/
def Command.run (host : Host) (globals : Globals) (files : FileTree) :
    Command → List Shown × Ending × FileTree
  | .init name directory options =>
    endingOf files (prepareProject host globals name directory options)
  | .execute action directories =>
    match (Job.find host globals action).run files with
    | .error e files => ([], .failed e.message, files)
    | .ok job files => job.validateAll host (workingPath files) directories files
  | .summary path =>
    match Summary.ofDirectory files path with
    | .error f => ([], .failed f.message, files)
    | .ok [] => ([], .finished, files)
    | .ok all => ([.summaries all], summaryEnding all, files)
  | .cluster =>
    endingOf files do return [.clusters (← Catalog.load host.environment globals.clusters)]
  | .completion shell => ([.completion shell], .finished, files)

/-! ## Calls -/

/-- How a call of the program ended. Without status it still waits for other processes. -/
structure Outcome where
  status : Option Nat
  stdout : String
  stderr : String
  files : FileTree

def versionLine : String := "bindcheck 0.1.0-dev\n"

def helpText : String :=
  "Validates resource bindings of cluster job submissions\n\n" ++
    "Usage: bindcheck [OPTIONS] <COMMAND>\n\nCommands: " ++
    ", ".intercalate Shown.commandNames ++ "\n"

/-- Whether output has colors. Output that is captured goes to no terminal. -/
def Colors.apply : Colors → Bool
  | .always => true
  | _ => false

def Ending.status : Ending → Option Nat
  | .finished => some 0
  | .failed _ => some 1
  | .waiting => none

def Ending.print (mode : OutputMode) : Ending → String
  | .failed message => Shown.printFailure mode message
  | _ => ""

/-- What an ending reports beside the output. -/
def Ending.report (mode : OutputMode) : Ending → String
  | .failed message => match mode with
    | .terminal => message ++ "\n"
    | .json => ""
  | _ => ""

def run (host : Host) (files : FileTree) (arguments : List String) : Outcome :=
  match Call.ofArguments host.environment arguments with
  | .refused => ⟨some 2, "", helpText, files⟩
  | .help => ⟨some 0, helpText, "", files⟩
  | .version => ⟨some 0, versionLine, "", files⟩
  | .run globals command =>
    let mode := globals.outputMode
    let (shown, ending, files) := command.run host globals files
    let text := String.join (shown.map (Shown.print mode globals.colors.apply))
    ⟨ending.status, text ++ ending.print mode, ending.report mode, files⟩

end JobBinding.CommandLine
