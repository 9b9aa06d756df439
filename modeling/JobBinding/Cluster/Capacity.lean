/-!
# What a cluster offers

The capacity of a node in the default partitions of a cluster, and the vendor of its GPUs.
-/

namespace JobBinding

/-- Who made the GPUs of a cluster. -/
inductive Vendor where
  | none
  | nvidia
  | amd
  deriving DecidableEq, Repr

namespace Vendor

/-- The name under which a vendor is written in cluster files and shown in tables. -/
def name : Vendor → String
  | .none => "none"
  | .nvidia => "nvidia"
  | .amd => "amd"

def all : List Vendor :=
  [.none, .nvidia, .amd]

def ofName? (text : String) : Option Vendor :=
  all.find? (·.name = text)

end Vendor

/-- The capacity of the default partitions of a cluster. A count of zero keeps the actions that
need such a resource from being generated. -/
structure Capacity where
  cpus : UInt32
  gpus : UInt32
  vendor : Vendor
  /-- Whether jobs may share a node, so that a job can ask for less than a node. -/
  shared : Bool
  deriving DecidableEq, Repr

end JobBinding
