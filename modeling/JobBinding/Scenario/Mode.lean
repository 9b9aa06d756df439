import JobBinding.Scenario.Request

/-!
# Validation modes

How an action is validated on a cluster: the shape its job must have, and whether one process checks
its own binding or all processes gather theirs. Both come from the request of the action's
scenario, so a mode exists exactly for the actions of the workflow.
-/

namespace JobBinding

/-- The resources a job is expected to have been granted. Threads and GPUs are those of each
process. -/
structure Shape where
  processes : UInt32
  threads : UInt32
  hosts : UInt32
  gpus : UInt32
  /-- Who made the expected GPUs. -/
  vendor : Vendor
  deriving DecidableEq, Repr

namespace Shape

/-- The vendor whose GPUs a process has to list, if GPUs are expected at all. -/
def probedVendor? (shape : Shape) : Option Vendor :=
  if 0 < shape.gpus then some shape.vendor else none

/-- The shape of a request on a number of hosts. -/
def ofRequest (request : Request) (hosts : UInt32) (vendor : Vendor) : Shape where
  processes := request.processes
  threads := request.threads
  hosts := hosts
  gpus := request.gpus
  vendor := if 0 < request.gpus then vendor else .none

end Shape

/-- Who checks the bindings of a job. -/
inductive Mode where
  /-- One process checks its own binding. -/
  | single (shape : Shape)
  /-- All processes of the job gather their bindings on the coordinator. -/
  | distributed (shape : Shape)
  deriving DecidableEq, Repr

def Mode.shape : Mode → Shape
  | .single shape => shape
  | .distributed shape => shape

namespace Scenario

/-- The number of hosts that a job of the scenario runs on. -/
def hosts : Scenario → UInt32
  | .mpiMultinode | .mpiThreadsMultinode => Request.severalNodes
  | _ => 1

/-- How the scenario is validated on a cluster, if the cluster can grant it. -/
def mode (scenario : Scenario) (capacity : Capacity) : Except Failure Mode :=
  match scenario.request? capacity with
  | none => .error (.infeasibleAction scenario.name)
  | some request =>
    let shape := Shape.ofRequest request scenario.hosts capacity.vendor
    .ok (if request.mpi then .distributed shape else .single shape)

end Scenario

end JobBinding
