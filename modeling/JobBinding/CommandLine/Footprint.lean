import JobBinding.CommandLine.Run

/-!
# What a command looks at

The paths that a command can look at, and what it changed. A process that runs a command needs only
these parts of the files around it, and afterwards only the changes have to be carried out.
-/

namespace JobBinding

namespace Route

/-- The locations on the way of some steps, with the start and the end. -/
def locations (place : Location) : List Step → List Location
  | [] => [place]
  | .up :: rest => place :: locations place.dropLast rest
  | .into name :: rest => place :: locations (place ++ [name]) rest

end Route

namespace CommandLine

/-- The locations on the way of a path, seen from a working directory. -/
def locationsOf (workingDirectory : Location) (path : String) : List Location :=
  let route := Route.ofPath path
  Route.locations (if route.absolute then [] else workingDirectory) route.steps

def clusterPaths (env : Environment) (globals : Globals) : List String :=
  match globals.clusters with
  | some path => [path]
  | none => (Catalog.defaultFile? env).toList

/-- The paths of the report on a directory and of the meeting point beside it. -/
def reportPaths (env : Environment) (root cluster action directory : String) : List String :=
  let file := ReportFile.place root cluster directory action
  let rendezvous : Rendezvous := ⟨file.directory, action, env.jobKey⟩
  [file.path, rendezvous.path, rendezvous.draft]

/-- The paths that a command can look at by name. -/
def Command.paths (host : Host) (globals : Globals) (root : String) : Command → List String
  | .init name directory _ =>
    clusterPaths host.environment globals ++ [Project.documentPath directory] ++
      match clusterFor host.tools name with
      | .ok name => [Project.outputPath directory name]
      | .error _ => []
  | .execute action directories =>
    clusterPaths host.environment globals ++
      match host.environment "ACTION_CLUSTER" with
      | some name => directories.flatMap (reportPaths host.environment root name action)
      | none => []
  | .summary path => [path]
  | .cluster => clusterPaths host.environment globals
  | .completion _ => []

/-- The directories below which a command looks at everything. -/
def Command.searched : Command → List String
  | .summary path => [path]
  | _ => []

/-- A change of one location. -/
inductive Effect where
  | makeDirectory (place : Location)
  | writeFile (place : Location) (content : List UInt8)
  | removeFile (place : Location)
  deriving DecidableEq, Repr

/-- The effect that gives a location what is now there. -/
def effect? (before : FileTree) (entry : Location × Node) : Option Effect :=
  if before.get? entry.1 = some entry.2 then none
  else match entry.2 with
    | .directory => some (.makeDirectory entry.1)
    | .file content => some (.writeFile entry.1 content)

/-- The changes from one tree to another, directories before what is in them. -/
def effects (before after : FileTree) : List Effect :=
  let entries := after.entries.mergeSort fun a b => a.1.length ≤ b.1.length
  let removed := before.entries.filterMap fun (place, _) =>
    if after.get? place = none then some (Effect.removeFile place) else none
  entries.filterMap (effect? before) ++ removed

end CommandLine

end JobBinding
