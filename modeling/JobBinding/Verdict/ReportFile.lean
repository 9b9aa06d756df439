import JobBinding.Files.Tree
import JobBinding.Verdict

/-!
# Report files

The place of a report, below the workspace of its cluster, and writing a verdict there.
-/

namespace JobBinding

/-- The place of the report of an action on a directory. -/
structure ReportFile where
  /-- The directory that holds the report. All processes of the job share it. -/
  directory : String
  action : String
  deriving DecidableEq, Repr

namespace ReportFile

/-- The place of a report within the workspace of a cluster. -/
def place (root cluster directory action : String) : ReportFile :=
  ⟨Path.join (Path.join root cluster) directory, action⟩

def path (file : ReportFile) : String :=
  Path.join file.directory (file.action ++ ".out")

/-- Writes a verdict, instead of the report that is there. -/
def write (file : ReportFile) (verdict : Verdict) : Files Unit := do
  Files.makeDirectories file.directory
  Files.write file.path verdict.text

end ReportFile

end JobBinding
