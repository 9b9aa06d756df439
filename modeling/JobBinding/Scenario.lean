import JobBinding.Failure

/-!
# Scenarios

The ten ways of binding resources that can be validated. The name of a scenario is the name of the
action that validates it.
-/

namespace JobBinding

/-- A way of binding resources to the processes of a job. -/
inductive Scenario where
  | serial
  | threads
  | mpiSubnode
  | mpiThreadsSubnode
  | mpiMultinode
  | mpiThreadsMultinode
  | nvidiaGpu
  | nvidiaGpus
  | mpiNvidiaGpus
  | mpiWholenodeAmdGpus
  deriving DecidableEq, Repr

namespace Scenario

/-- All scenarios, in the order of their actions in a workflow. -/
def all : List Scenario :=
  [.serial, .threads, .mpiSubnode, .mpiThreadsSubnode, .mpiMultinode, .mpiThreadsMultinode,
    .nvidiaGpu, .nvidiaGpus, .mpiNvidiaGpus, .mpiWholenodeAmdGpus]

theorem mem_all (s : Scenario) : s ∈ all := by
  cases s <;> simp [all]

/-- The name of the action that validates the scenario. -/
def name : Scenario → String
  | .serial => "serial"
  | .threads => "threads"
  | .mpiSubnode => "mpi_subnode"
  | .mpiThreadsSubnode => "mpi_threads_subnode"
  | .mpiMultinode => "mpi_multinode"
  | .mpiThreadsMultinode => "mpi_threads_multinode"
  | .nvidiaGpu => "nvidia_gpu"
  | .nvidiaGpus => "nvidia_gpus"
  | .mpiNvidiaGpus => "mpi_nvidia_gpus"
  | .mpiWholenodeAmdGpus => "mpi_wholenode_amd_gpus"

/-- The name of the report file that the action writes. -/
def product (s : Scenario) : String :=
  s.name ++ ".out"

def ofName (action : String) : Except Failure Scenario :=
  match all.find? (·.name = action) with
  | some s => .ok s
  | none => .error (.unknownAction action)

end Scenario

end JobBinding
