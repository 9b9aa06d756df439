import JobBinding.Scenario.Request
import JobBinding.Text.Duration
import JobBinding.Text.Scan

/-!
# Workflows

What a workflow manager has to know to submit the actions of a cluster: for each feasible scenario
an action with its command, its product and the resources of its request.
-/

namespace JobBinding

/-- An action of a workflow. -/
structure Action where
  name : String
  /-- The command, with a placeholder for the directory that the action runs on. -/
  template : String
  products : List String
  launchers : List String
  processes : UInt32
  threads : UInt32
  gpus : UInt32
  walltime : Duration
  deriving DecidableEq, Repr

/-- The workflow of one cluster. -/
structure Workflow where
  cluster : String
  /-- The workspace directory, relative to the project. -/
  workspace : String
  account : Option String
  setup : Option String
  actions : List Action
  deriving DecidableEq, Repr

namespace Action

/-- Stands for the directory in the template of a command. -/
def placeholder : List Char :=
  '\x7b' :: "directory\x7d".toList

/-- Puts a text in the place of each placeholder, from left to right. What was put in is not
searched again. -/
def fillPlaceholders (text : List Char) (cs : List Char) : List Char :=
  match _ : Text.afterPrefix? placeholder cs with
  | some rest => text ++ fillPlaceholders text rest
  | none => match cs with
    | [] => []
    | c :: cs => c :: fillPlaceholders text cs
termination_by cs.length
decreasing_by
  · next h =>
    rw [Text.afterPrefix?_eq_some_iff.1 h, placeholder, List.length_append, List.length_cons]
    omega
  · simp

/-- The command that runs the action on a directory. -/
def command (action : Action) (directory : String) : String :=
  String.ofList (fillPlaceholders directory.toList action.template.toList)

def walltimeLimit : Duration :=
  ⟨300⟩

/-- The launcher of an action with several processes. -/
def mpiLauncher : String := "mpi"

/-- The action of a scenario. The program is the beginning of the command line. -/
def ofRequest (program : String) (scenario : Scenario) (request : Request) : Action where
  name := scenario.name
  template := program ++ " execute " ++ scenario.name ++ " " ++ String.ofList placeholder
  products := [scenario.product]
  launchers := if request.mpi then [mpiLauncher] else []
  processes := request.processes
  threads := request.threads
  gpus := request.gpus
  walltime := walltimeLimit

end Action

namespace Workflow

/-- How the program is called in jobs unless said otherwise. -/
def defaultProgram : String := "bindcheck"

/-- The actions of the feasible scenarios, in the order of the scenarios. -/
def actionsOf (program : String) (capacity : Capacity) : List Action :=
  Scenario.all.filterMap fun scenario =>
    (scenario.request? capacity).map (Action.ofRequest program scenario)

/-- The workflow of a cluster, whose workspace has the cluster's name. -/
def ofCapacity (program cluster : String) (capacity : Capacity) (account setup : Option String) :
    Workflow where
  cluster := cluster
  workspace := cluster
  account := account
  setup := setup
  actions := actionsOf program capacity

def action? (workflow : Workflow) (name : String) : Option Action :=
  workflow.actions.find? (·.name = name)

end Workflow

end JobBinding
