import JobBinding.Environment
import JobBinding.Gather.Message
import JobBinding.Rendezvous.File

/-!
# Participants of a job

A process of a job that meets the others through a rendezvous file: the coordinator publishes where
it listens, and every other process looks for its record until it can connect or must give up.
-/

namespace JobBinding.Gather

/-- A process of a job, with its place in the group and the meeting point. -/
structure Participant where
  placement : Placement
  rendezvous : Rendezvous
  host : String
  /-- When the process started. It ignores older records of coordinators that gave up. -/
  started : Instant
  deriving DecidableEq, Repr

namespace Participant

/-- The calling process, as its environment places it, for an action on a directory. -/
def ofEnvironment (env : Environment) (host : String) (started : Instant)
    (directory action : String) : Except Failure Participant := do
  return ⟨← Placement.ofEnvironment env, ⟨directory, action, env.jobKey⟩, host, started⟩

def size (p : Participant) : UInt32 :=
  p.placement.size

/-- The record that the process publishes as coordinator. -/
def record (p : Participant) (port : UInt16) (created : Instant) (aborted : Option String) :
    Record :=
  ⟨p.rendezvous.job, p.host, port, p.size, created, aborted⟩

end Participant

end JobBinding.Gather
