import JobBinding.Binding
import JobBinding.Scenario.Mode
import JobBinding.Text.Literal
import JobBinding.Verdict

/-!
# Classification of bindings

The verdict on observed bindings. For a whole job the hosts, the cores and the GPUs are compared
with the expected shape, in this order. Each comparison can warn; what is missing is the ERROR that
closes the verdict, where missing cores count before missing hosts and missing hosts before missing
GPUs. For a job of one process only one kind of resource is compared, and more than requested does
not pass either.
-/

namespace JobBinding

/-- The observed cores as a set. -/
def Binding.coresText (b : Binding) : String :=
  Text.setLiteral (b.cores.toList.map fun core => toString core.toNat)

/-- The observed GPUs as a list. -/
def Binding.gpusText (b : Binding) : String :=
  Text.listLiteral b.gpus

namespace Verdict

/-! ## Jobs of several processes -/

def hostnames (bindings : List Binding) : SortedSet String :=
  .ofList (bindings.map (·.hostname))

/-- The sizes of a kind of resource. -/
def sizes (size : Binding → Nat) (bindings : List Binding) : SortedSet Nat :=
  .ofList (bindings.map size)

/-- The smallest size, 0 if there is none. -/
def smallest (sizes : SortedSet Nat) : Nat :=
  sizes.toList.head?.getD 0

/-- The largest size, 0 if there is none. -/
def largest (sizes : SortedSet Nat) : Nat :=
  sizes.toList.getLast?.getD 0

def lineIf (condition : Prop) [Decidable condition] (tag : Tag) (message : String) :
    List (Tag × String) :=
  if condition then [(tag, message)] else []

def hostWarnings (hosts : SortedSet String) (expected : UInt32) (shown : String) :
    List (Tag × String) :=
  lineIf (expected.toNat < hosts.size) .warn
    ("Executing on more than " ++ toString expected.toNat ++ " host(s): " ++ shown ++ ".")

/-- The warnings about the sizes of a kind of resource. `parts` names the parts whose sizes
differ, `resource` the resource itself. -/
def sizeWarnings (parts resource : String) (sizes : SortedSet Nat) (requested : UInt32)
    (shown : String) : List (Tag × String) :=
  lineIf (1 < sizes.size) .warn (parts ++ " have different sizes: " ++ shown ++ ".") ++
    lineIf (requested.toNat < largest sizes) .warn
      ("Allowed to run on more " ++ resource ++ " than requested: " ++ shown ++ ".")

/-- The verdict on the bindings of all processes of a job. -/
def classify (bindings : List Binding) (shape : Shape) : Verdict :=
  let hosts := hostnames bindings
  let hostsText := Text.setLiteral hosts.toList
  let coreSizes := sizes (·.cores.size) bindings
  let coresText := Text.listLiteral (bindings.map (·.coresText))
  let gpuSizes := sizes (·.gpus.length) bindings
  let gpusText :=
    if 0 < shape.gpus then Text.listLiteral (bindings.map (·.gpusText)) else Text.listLiteral []
  let warnings :=
    hostWarnings hosts shape.hosts hostsText ++
      sizeWarnings "cpusets" "cpus" coreSizes shape.threads coresText ++
      if 0 < shape.gpus then sizeWarnings "gpus" "GPUs" gpuSizes shape.gpus gpusText else []
  let terminal :=
    if smallest coreSizes < shape.threads.toNat then
      (Tag.error, "Not allowed to run on requested cpus: " ++ coresText ++ ".")
    else if hosts.size < shape.hosts.toNat then
      (.error, "Executing on fewer than " ++ toString shape.hosts.toNat ++ " hosts: " ++
        hostsText ++ ".")
    else if 0 < shape.gpus ∧ smallest gpuSizes < shape.gpus.toNat then
      (.error, "Not allowed to run on requested GPUs: " ++ gpusText ++ ".")
    else
      (.passed, hostsText ++ " " ++ coresText ++ " " ++ gpusText)
  ⟨warnings ++ [terminal]⟩

/-! ## Jobs of one process -/

/-- The verdict on the size of one resource, which has to be as requested. -/
def classifySize (resource : String) (size : Nat) (requested : UInt32) (shown : String) :
    Verdict :=
  if requested.toNat < size then
    ⟨[(.warn, "Allowed to run on more " ++ resource ++ " than requested: " ++ shown ++ ".")]⟩
  else if size < requested.toNat then
    ⟨[(.error, "Not allowed to run on requested " ++ resource ++ ": " ++ shown ++ ".")]⟩
  else ⟨[(.passed, shown)]⟩

/-- The verdict on the binding of a process that is alone: on its GPUs if any are requested, on
its cores otherwise. -/
def classifySingle (b : Binding) (shape : Shape) : Verdict :=
  if 0 < shape.gpus then classifySize "GPUs" b.gpus.length shape.gpus b.gpusText
  else classifySize "cpus" b.cores.size shape.threads b.coresText

end Verdict

end JobBinding
