import JobBinding.Validation.Distributed
import JobBinding.Validation.Single

/-!
# Validation on a directory

The mode of an action decides who validates it. Only a distributed validation needs the place of the
process within its job.
-/

namespace JobBinding.Validation

/-- Validates an action on a directory. -/
def directory (probe : Probe) (mode : Mode) (origin : Option Origin) (file : ReportFile)
    (site : Gather.Site) (participant : ReportFile → Except Failure Gather.Participant) :
    Files Progress := do
  match mode with
  | .single shape => return .done (some (← single probe origin shape file))
  | .distributed shape =>
    let p ← Files.ofExcept (participant file)
    distributed probe p site shape file

end JobBinding.Validation
