import JobBinding.Verdict.Classify
import JobBinding.Verdict.ReportFile

/-!
# Validation by one process

A process that is alone checks its own binding. It can also know the cluster that its job was
submitted from; a job that executes elsewhere fails whatever its binding is.
-/

namespace JobBinding

/-- The names of the cluster at submission and at execution. -/
structure Origin where
  submitted : String
  executed : String
  deriving DecidableEq, Repr

namespace Origin

/-- What is wrong with the names, if they differ. -/
def mismatch? (origin : Origin) : Option String :=
  if origin.submitted = origin.executed then none
  else some ("`row cluster --name` does not match at submission (" ++ origin.submitted ++
    ") and execution (" ++ origin.executed ++ ").")

end Origin

namespace Validation

def singleVerdict (b : Binding) (shape : Shape) (origin : Option Origin) : Verdict :=
  let verdict := Verdict.classifySingle b shape
  match origin.bind Origin.mismatch? with
  | some message => verdict.fail message
  | none => verdict

/-- Observes the binding of the calling process and writes the verdict on it. -/
def single (probe : Probe) (origin : Option Origin) (shape : Shape) (file : ReportFile) :
    Files Verdict := do
  let b ← Files.ofExcept (probe.observe shape.probedVendor?)
  let verdict := singleVerdict b shape origin
  file.write verdict
  return verdict

end Validation

end JobBinding
