import JobBinding.Gather.Site
import JobBinding.Verdict.Classify
import JobBinding.Verdict.ReportFile

/-!
# Validation by the processes of a job

Every process of the job observes its own binding. The coordinator classifies all of them and writes
the report; the other processes have no verdict. A process that cannot observe its binding tells the
others why before it fails.
-/

namespace JobBinding.Validation

open Gather

/-- How far a process has come with a validation. -/
inductive Progress where
  /-- It is done: the coordinator with a verdict, the others without. -/
  | done (verdict : Option Verdict)
  /-- It waits for other processes. -/
  | waiting
  deriving DecidableEq, Repr

/-- Gives up because of a failed observation. That the others cannot be told does not matter. -/
def giveUp (p : Participant) (site : Site) (e : Failure) : Files Progress := do
  match ← tryCatch (p.abort site e.message) fun _ => return some () with
  | some _ => throw e
  | none => return .waiting

/-- Validates the binding of a process as a part of its job. -/
def distributed (probe : Probe) (p : Participant) (site : Site) (shape : Shape)
    (file : ReportFile) : Files Progress := do
  if p.size ≠ shape.processes then throw (.processCount shape.processes p.size)
  match probe.observe shape.probedVendor? with
  | .error e => giveUp p site e
  | .ok b => match ← p.gather site Binding.codec b with
    | .waiting => return .waiting
    | .sent _ => return .done none
    | .values bindings =>
      let verdict := Verdict.classify bindings shape
      file.write verdict
      return .done (some verdict)

end JobBinding.Validation
