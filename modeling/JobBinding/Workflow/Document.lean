import JobBinding.Toml.Writer
import JobBinding.Workflow

/-!
# Workflow documents

The file that tells a workflow manager about the actions of a cluster. What has its usual value is
left out: an action without launchers has no entry for them, and one thread or no GPU for each
process is not mentioned.
-/

namespace JobBinding

def assignIf (condition : Prop) [Decidable condition] (key : String) (value : Toml.Value) :
    List Toml.Statement :=
  if condition then [.assign [key] value] else []

def assignText? (key : String) (text : Option String) : List Toml.Statement :=
  match text with
  | some t => [.assign [key] (.text t)]
  | none => []

/-- A header with the statements below it, if there are any. -/
def headed (key : List String) (statements : List Toml.Statement) : List Toml.Statement :=
  if statements.isEmpty then [] else .header key :: statements

def textArray (texts : List String) : Toml.Value :=
  .array (texts.map .text)

namespace Action

def countValue (n : UInt32) : Toml.Value :=
  .integer n.toNat

/-- The entries of an action that it does not share with all actions. -/
def specialResources (action : Action) : List Toml.Statement :=
  assignIf (action.threads ≠ 1) "threads_per_process" (countValue action.threads) ++
    assignIf (action.gpus ≠ 0) "gpus_per_process" (countValue action.gpus)

def statements (action : Action) : List Toml.Statement :=
  [.element ["action"], .assign ["name"] (.text action.name),
    .assign ["command"] (.text action.template),
    .assign ["products"] (textArray action.products)] ++
  assignIf (action.launchers ≠ []) "launchers" (textArray action.launchers) ++
  headed ["action", "resources"] action.specialResources ++
  [.header ["action", "resources", "processes"],
    .assign ["per_submission"] (countValue action.processes),
    .header ["action", "resources", "walltime"],
    .assign ["per_submission"] (.text action.walltime.clock)]

end Action

namespace Workflow

def statements (workflow : Workflow) : List Toml.Statement :=
  assignIf (workflow.actions = []) "action" (.array []) ++
  [.header ["workspace"], .assign ["path"] (.text workflow.workspace),
    .header ["default", "action", "submit_options", workflow.cluster]] ++
  assignText? "account" workflow.account ++
  assignText? "setup" workflow.setup ++
  workflow.actions.flatMap Action.statements

def document (workflow : Workflow) : String :=
  Toml.render workflow.statements

end Workflow

end JobBinding
