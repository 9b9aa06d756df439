import JobBinding.Cluster.Catalog
import JobBinding.Files.Tree
import JobBinding.Workflow.Document

/-!
# Projects

A project is a directory with a workflow document. Each cluster that it was prepared for has a
workspace in it, with the directory that the actions run on.
-/

namespace JobBinding.Project

/-- The name of the workflow document in its project. -/
def documentName : String := "workflow.toml"

/-- The directory of a workspace that the actions run on. -/
def outputName : String := "output"

/-- What can be chosen for a workflow besides its cluster. -/
structure Options where
  program : String
  account : Option String
  setup : Option String
  deriving DecidableEq, Repr

def documentPath (project : String) : String :=
  Path.join project documentName

/-- The path of the directory that the actions of a workflow run on. -/
def outputPath (project workspace : String) : String :=
  Path.join (Path.join project workspace) outputName

/-- Writes the workflow of a cluster into a project and prepares its workspace. -/
def prepare (catalog : Catalog) (cluster project : String) (options : Options) :
    Files Workflow := do
  let capacity ← Files.ofExcept (catalog.lookup cluster)
  let workflow := Workflow.ofCapacity options.program cluster capacity options.account options.setup
  Files.makeDirectories project
  Files.write (documentPath project) workflow.document
  Files.makeDirectories (outputPath project workflow.workspace)
  return workflow

end JobBinding.Project
