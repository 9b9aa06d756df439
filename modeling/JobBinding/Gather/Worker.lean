import JobBinding.Gather.Participant

/-!
# The other processes of a job

A process that is not the coordinator looks for the coordinator's record again and again. It goes on
looking while there is no record of its job, while the record is one of a coordinator that gave up
before the process started, and while nobody answers at the place that the record names. It sends
its message once.
-/

namespace JobBinding.Gather

/-- Whether somebody accepts connections at a host and a port. -/
abbrev Network := String → UInt16 → Bool

namespace Worker

/-- What a process does next about the record that it found. -/
inductive Decision where
  | lookAgain
  | giveUp (failure : Failure)
  | connect (host : String) (port : UInt16)
  deriving DecidableEq, Repr

def considerRecord (p : Participant) (r : Record) : Decision :=
  match r.aborted with
  | some reason =>
    if r.created.isBefore p.started then .lookAgain else .giveUp (.aborted 0 reason)
  | none =>
    if r.size ≠ p.size then .giveUp (.protocol (.otherSize r.size p.size))
    else .connect r.host r.port

/-- What a process does about what it found in the rendezvous file. -/
def consider (p : Participant) : Except Failure (Option Record) → Decision
  | .error e => .giveUp e
  | .ok none => .lookAgain
  | .ok (some r) => considerRecord p r

/-- A message on its way: where it goes, and the bytes of its frame. -/
structure Delivery where
  host : String
  port : UInt16
  bytes : List UInt8
  deriving DecidableEq, Repr

/-- How one look at the rendezvous file ends. -/
inductive Look where
  | again
  | ended (result : Except Failure Delivery)

/-- One look, given what the file held and whom the process can reach. -/
def look (p : Participant) (payload : Payload) (network : Network)
    (found : Except Failure (Option Record)) : Look :=
  match consider p found with
  | .lookAgain => .again
  | .giveUp e => .ended (.error e)
  | .connect host port =>
    if network host port then
      match Message.toConnection ⟨p.placement.rank, payload⟩ with
      | .ok bytes => .ended (.ok ⟨host, port, bytes⟩)
      | .error e => .ended (.error e)
    else .again

/-- What the rendezvous file holds for the process. -/
def find (p : Participant) : Files (Except Failure (Option Record)) :=
  tryCatch (do return .ok (← p.rendezvous.read)) fun e => return .error e

/-- Sends a payload, if the process can do so now. Without result it still looks for the record. -/
def send (p : Participant) (payload : Payload) (network : Network) : Files (Option Delivery) := do
  match look p payload network (← find p) with
  | .again => return none
  | .ended result => return some (← Files.ofExcept result)

def contribute {α : Type} (p : Participant) (codec : Codec α) (value : α) (network : Network) :
    Files (Option Delivery) := do
  send p (.value (← Files.ofExcept (codec.serialize value))) network

/-- Gives up: the coordinator is told why. -/
def abort (p : Participant) (reason : String) (network : Network) : Files (Option Delivery) :=
  send p (.abort reason) network

end Worker

end JobBinding.Gather
