import JobBinding.Gather.Collector
import JobBinding.Gather.Participant

/-!
# The coordinator of a job

The coordinator publishes where it listens and takes one message from each connection, until every
process has contributed or a connection does not fit. Whatever the outcome, the rendezvous file is
removed before the gather returns.
-/

namespace JobBinding.Gather

/-- The pieces of bytes that a connection brings before it ends. -/
abbrev Connection := List (List UInt8)

namespace Coordinator

variable {α : Type}

/-- Takes connections until the account is complete, a connection fails or none is left. -/
def serve (decode : Decoder α) (collector : Collector α) :
    List Connection → Except Failure (Collector α)
  | [] => .ok collector
  | connection :: rest =>
    if collector.isComplete then .ok collector
    else match Message.ofConnection connection >>= collector.accept decode with
      | .ok collector => serve decode collector rest
      | .error e => .error e

/-- Gathers the values of a job with several processes from the connections that arrive. Without
result the coordinator still waits for a connection. -/
def collect (p : Participant) (port : UInt16) (now : Instant) (codec : Codec α) (own : α)
    (connections : List Connection) : Files (Option (List α)) := do
  p.rendezvous.publish (p.record port now none)
  match serve codec.deserialize (.start p.size own) connections with
  | .error e => do
    p.rendezvous.remove
    throw e
  | .ok collector =>
    if collector.isComplete then
      p.rendezvous.remove
      return some (← Files.ofExcept collector.finish)
    else return none

/-- Gathers the values of a job. A process that is alone has its own value only. -/
def gather (p : Participant) (port : UInt16) (now : Instant) (codec : Codec α) (own : α)
    (connections : List Connection) : Files (Option (List α)) :=
  if p.size = 1 then return some [own] else collect p port now codec own connections

/-- Gives up: the record tells the other processes why. -/
def abort (p : Participant) (now : Instant) (reason : String) : Files Unit :=
  if p.size = 1 then pure () else p.rendezvous.publish (p.record 0 now (some reason))

end Coordinator

end JobBinding.Gather
