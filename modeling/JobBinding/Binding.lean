import JobBinding.Cluster.Capacity
import JobBinding.Failure
import JobBinding.SortedSet

/-!
# Bindings

The resources that a process is bound to, as the process itself observes them, and the queries that
observe them.
-/

namespace JobBinding

abbrev CoreId := UInt64

/-- The resources observed by one process. -/
structure Binding where
  hostname : String
  /-- The cores that the process may run on. -/
  cores : SortedSet CoreId
  /-- The identifiers of the visible GPUs, in the order of their listing. -/
  gpus : List String
  deriving DecidableEq

instance : Inhabited Binding := ⟨⟨"", .empty, []⟩⟩

/-- The queries for the resources visible to a process. Each of them can fail. -/
structure Probe where
  hostname : Except Failure String
  cores : Except Failure (SortedSet CoreId)
  gpus : Vendor → Except Failure (List String)

/-- What a process observes. GPUs are asked for first, and only if a vendor is given. -/
def Probe.observe (probe : Probe) (vendor? : Option Vendor) : Except Failure Binding := do
  let gpus ← match vendor? with
    | some vendor => probe.gpus vendor
    | none => .ok []
  let hostname ← probe.hostname
  let cores ← probe.cores
  return ⟨hostname, cores, gpus⟩

end JobBinding
