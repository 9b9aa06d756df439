import JobBinding.Cluster.Capacity
import JobBinding.Scenario

/-!
# Requests

What a scenario asks of a cluster. A scenario that the cluster cannot grant asks for nothing and
has no action in the workflow.
-/

namespace JobBinding

/-- The resources that one submission of an action asks for. -/
structure Request where
  processes : UInt32
  /-- Threads of each process. -/
  threads : UInt32
  /-- GPUs of each process. -/
  gpus : UInt32
  /-- Whether the processes are started by an MPI launcher. -/
  mpi : Bool
  deriving DecidableEq, Repr

namespace Request

/-- Threads of a process with threads. -/
def severalThreads : UInt32 := 4

/-- GPUs of a process with several GPUs. -/
def severalGpus : UInt32 := 2

/-- Processes of an MPI job on a part of a node. -/
def severalProcesses : UInt32 := 4

/-- Nodes of an MPI job on several nodes. -/
def severalNodes : UInt32 := 2

def onlyIf (condition : Bool) (request : Request) : Option Request :=
  if condition then some request else none

/-- All cores of several nodes, if there are any and their number fits a count. -/
def multinodeCores? (capacity : Capacity) : Option UInt32 :=
  let cores := severalNodes.toNat * capacity.cpus.toNat
  if 1 ≤ capacity.cpus ∧ cores < UInt32.size then some cores.toUInt32 else none

end Request

/-- What the scenario asks of a cluster, if the cluster can grant it. Cores that threads cannot
share evenly make the threaded job on several nodes infeasible, since it would leave cores out. -/
def Scenario.request? (scenario : Scenario) (capacity : Capacity) : Option Request :=
  let cpus := capacity.cpus
  let gpus := capacity.gpus
  let sharedNvidia := capacity.shared && capacity.vendor == .nvidia
  match scenario with
  | .serial => Request.onlyIf (capacity.shared && 1 ≤ cpus) ⟨1, 1, 0, false⟩
  | .threads =>
    Request.onlyIf (capacity.shared && Request.severalThreads ≤ cpus)
      ⟨1, Request.severalThreads, 0, false⟩
  | .mpiSubnode =>
    Request.onlyIf (capacity.shared && Request.severalProcesses ≤ cpus)
      ⟨Request.severalProcesses, 1, 0, true⟩
  | .mpiThreadsSubnode =>
    Request.onlyIf (capacity.shared && Request.severalProcesses * Request.severalThreads ≤ cpus)
      ⟨Request.severalProcesses, Request.severalThreads, 0, true⟩
  | .mpiMultinode => (Request.multinodeCores? capacity).map (⟨·, 1, 0, true⟩)
  | .mpiThreadsMultinode =>
    if cpus % Request.severalThreads = 0 then
      (Request.multinodeCores? capacity).map fun cores =>
        ⟨cores / Request.severalThreads, Request.severalThreads, 0, true⟩
    else none
  | .nvidiaGpu => Request.onlyIf (sharedNvidia && 1 ≤ gpus) ⟨1, 1, 1, false⟩
  | .nvidiaGpus =>
    Request.onlyIf (sharedNvidia && Request.severalGpus ≤ gpus) ⟨1, 1, Request.severalGpus, false⟩
  | .mpiNvidiaGpus =>
    Request.onlyIf (sharedNvidia && 1 ≤ gpus) ⟨Request.severalProcesses, 1, 1, true⟩
  | .mpiWholenodeAmdGpus =>
    Request.onlyIf (capacity.vendor == .amd && 1 ≤ gpus) ⟨gpus, 1, 1, true⟩

end JobBinding
