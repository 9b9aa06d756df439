import JobBinding.CommandLine.Footprint
import JobBinding.CommandLine.System

/-!
# The program

Runs a command on the files around the calling process: what the command can look at is read into a
tree, the command is run on the tree, and the changes of the tree are carried out. Other programs
are not run from here, so their listings are missing, and nobody is reached over a network.
-/

namespace JobBinding.Program

def pathOf (place : Location) : String :=
  "/" ++ "/".intercalate place

/-- The names of the path of the working directory. -/
def workingDirectory : IO Location := do
  return ((← IO.currentDir).toString.splitOn "/").filter (· ≠ "")

def look (place : Location) : IO (Option Node) := do
  let path := (← IO.currentDir) / pathOf place
  if ← path.isDir then return some .directory
  if ← path.pathExists then return some (.file (← IO.FS.readBinFile path).toList)
  return none

/-- Everything below a directory, to a depth. -/
def lookBelow : (depth : Nat) → Location → IO (List (Location × Node))
  | 0, _ => return []
  | depth + 1, place => do
    let path := (← IO.currentDir) / pathOf place
    unless ← path.isDir do return []
    let mut found := []
    for entry in ← path.readDir do
      let here := place ++ [entry.fileName]
      match ← look here with
      | some node => found := (here, node) :: (← lookBelow depth here) ++ found
      | none => pure ()
    return found

/-- The parts of the files that a command can look at. -/
def snapshot (paths searched : List String) : IO FileTree := do
  let here ← workingDirectory
  let mut tree : FileTree := ⟨[], here⟩
  for place in (pathOf here :: paths).flatMap (CommandLine.locationsOf here) do
    match place, ← look place with
    | _ :: _, some node => tree := tree.put place node
    | _, _ => pure ()
  for path in searched do
    if let some place := (CommandLine.locationsOf here path).getLast? then
      for (found, node) in ← lookBelow FileTree.pathLimit place do
        tree := tree.put found node
  return tree

def perform : CommandLine.Effect → IO Unit
  | .makeDirectory place => IO.FS.createDirAll (pathOf place)
  | .writeFile place content => IO.FS.writeBinFile (pathOf place) ⟨content.toArray⟩
  | .removeFile place => IO.FS.removeFile (pathOf place)

/-- The text of a file, empty if there is none. -/
def textOf (path : String) : IO String := do
  try IO.FS.readFile path catch _ => return ""

/-- The variables that the program looks at. -/
def variableNames : List String :=
  ["HOME", "XDG_CONFIG_HOME", "ACTION_CLUSTER", "SLURM_JOB_ID", "PBS_JOBID",
    CommandLine.debugVariable] ++
  CommandLine.optionVariables.map (·.2) ++ Placement.launchers.flatMap fun (rank, size) => [rank, size]

def environment : IO Environment := do
  let values ← variableNames.mapM fun name => return (name, ← IO.getEnv name)
  return fun name => (values.lookup name).join

def surroundings : IO CommandLine.Host := do
  let cores := System.cores? (← textOf "/proc/self/status")
  let now := System.now? (← textOf "/proc/stat") (← textOf "/proc/uptime")
  return {
    environment := ← environment
    tools := fun _ => none
    hostname := Text.trim (← textOf "/proc/sys/kernel/hostname")
    cores := cores.getD .empty
    site := ⟨0, now.getD ⟨0, 0, by decide, by decide⟩, [], fun _ _ => false⟩ }

end JobBinding.Program

open JobBinding in
/-- Runs the program. A command that has to wait for other processes ends like a failed one. -/
def main (arguments : List String) : IO UInt32 := do
  let host ← Program.surroundings
  let root := Program.pathOf (← Program.workingDirectory)
  let (paths, searched) := match CommandLine.Call.ofArguments host.environment arguments with
    | .run globals command => (command.paths host globals root, command.searched)
    | _ => ([], [])
  let files ← Program.snapshot paths searched
  let outcome := CommandLine.run host files arguments
  (CommandLine.effects files outcome.files).forM Program.perform
  IO.print outcome.stdout
  IO.eprint outcome.stderr
  return (outcome.status.getD 1).toUInt32
