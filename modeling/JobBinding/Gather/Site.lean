import JobBinding.Gather.Coordinator
import JobBinding.Gather.Worker

/-!
# Where a participant runs

What a participant depends on besides its files: the port at which it listens, the current time,
the connections that arrive and whom it can reach.
-/

namespace JobBinding.Gather

/-- The surroundings of a participant. -/
structure Site where
  port : UInt16
  now : Instant
  connections : List Connection
  network : Network

namespace Participant

variable {α : Type}

/-- What a participant has from a gather. -/
inductive Gathered (α : Type) where
  /-- The coordinator has all values, by rank. -/
  | values (values : List α)
  /-- Another process has sent its value. -/
  | sent (delivery : Worker.Delivery)
  /-- The gather is not over yet. -/
  | waiting

/-- Gathers the values of a job on its coordinator. -/
def gather (p : Participant) (site : Site) (codec : Codec α) (value : α) :
    Files (Gathered α) := do
  if p.placement.isCoordinator then
    match ← Coordinator.gather p site.port site.now codec value site.connections with
    | some values => return .values values
    | none => return .waiting
  else
    match ← Worker.contribute p codec value site.network with
    | some delivery => return .sent delivery
    | none => return .waiting

/-- Tells the others that the process cannot contribute. Without result it still tries to. -/
def abort (p : Participant) (site : Site) (reason : String) : Files (Option Unit) := do
  if p.placement.isCoordinator then
    Coordinator.abort p site.now reason
    return some ()
  else return (← Worker.abort p reason site.network).map fun _ => ()

end Participant

end JobBinding.Gather
