import JobBinding.Cluster.Catalog
import JobBinding.Environment
import JobBinding.Files.Tree
import JobBinding.Toml.Reader

/-!
# Cluster files

Definitions of clusters in a TOML file: an array of tables `cluster`, each with a name, the counts
of cores and GPUs, and optionally the vendor of the GPUs and whether nodes are shared. A definition
can also be an array of these values in this order. Anything else in a file is refused, and then
nothing of it counts.
-/

namespace JobBinding

namespace Cluster

open Toml (Value)

/-! ## Definitions -/

/-- A count of 32 bits. -/
def count? : Value → Option UInt32
  | .integer n => if 0 ≤ n ∧ n < UInt32.size then some n.toNat.toUInt32 else none
  | _ => none

def text? : Value → Option String
  | .text t => some t
  | _ => none

def boolean? : Value → Option Bool
  | .boolean b => some b
  | _ => none

/-- A vendor: its name, or a table with its name as the only key and an empty value. -/
def vendor? : Value → Option Vendor
  | .text t => Vendor.ofName? t
  | .table [(key, .table [])] => Vendor.ofName? key
  | .table [(key, .array [])] => Vendor.ofName? key
  | _ => none

/-- The definition of the values of its parts. -/
def ofParts? (name cpus gpus : Value) (vendor shared : Option Value) :
    Option (String × Capacity) := do
  let vendor ← match vendor with
    | none => some .nvidia
    | some v => vendor? v
  let shared ← match shared with
    | none => some true
    | some v => boolean? v
  return (← text? name, ⟨← count? cpus, ← count? gpus, vendor, shared⟩)

def keys : List String :=
  ["name", "cpus_per_node", "gpus_per_node", "gpu_arch", "has_shared"]

def value? (key : String) (entries : List (String × Value)) : Option Value :=
  (entries.find? (·.1 = key)).map (·.2)

/-- A definition. Values of an array after the known ones are ignored. -/
def definition? : Value → Option (String × Capacity)
  | .table entries => do
    if entries.all fun e => keys.contains e.1 then
      ofParts? (← value? "name" entries) (← value? "cpus_per_node" entries)
        (← value? "gpus_per_node" entries) (value? "gpu_arch" entries)
        (value? "has_shared" entries)
    else none
  | .array (name :: cpus :: gpus :: rest) => ofParts? name cpus gpus rest[0]? rest[1]?
  | _ => none

def definitions? : Value → Option (List (String × Capacity))
  | .table [] => some []
  | .table [("cluster", .array items)] => items.mapM definition?
  | _ => none

/-! ## Files -/

/-- The definitions in the text of a cluster file. -/
def definitionsOf (text : String) : Except Failure (List (String × Capacity)) :=
  match Toml.read? text >>= definitions? with
  | some definitions => .ok definitions
  | none => .error (.undecodable "not a cluster file")

end Cluster

namespace Catalog

/-- The catalog with the definitions in the text of a cluster file. -/
def merge (catalog : Catalog) (text : String) : Except Failure Catalog := do
  return catalog.defineAll (← Cluster.definitionsOf text)

/-- The catalog of a cluster file, on top of the clusters that are always known. -/
def ofFile (path : String) : Files Catalog := do
  Files.ofExcept (builtin.merge (← Files.readText path))

/-- The path of the cluster file that is used if none is given. -/
def defaultFile? (env : Environment) : Option String :=
  let configuration := match (env "XDG_CONFIG_HOME").filter Path.isAbsolute with
    | some directory => some directory
    | none => ((env "HOME").filter (· ≠ "")).map (Path.join · ".config")
  configuration.map fun directory => Path.join (Path.join directory "bindcheck") "clusters.toml"

/-- The catalog of the given cluster file, or else of the default one if that is a file. -/
def load (env : Environment) (path? : Option String) : Files Catalog := do
  match path? with
  | some path => ofFile path
  | none => match defaultFile? env with
    | none => return builtin
    | some path => if (← get).isFile path then ofFile path else return builtin

end Catalog

end JobBinding
