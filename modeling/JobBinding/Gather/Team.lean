import JobBinding.Gather.Collector

/-!
# Teams

A team is a group whose members live in one process and share a queue: every member but the
coordinator can put one message into it, and only the coordinator takes messages out. The
coordinator therefore notices when no member is left that could still send, and a member notices
when the coordinator has left.
-/

namespace JobBinding.Gather

/-- What the coordinator of a team is doing. -/
inductive Leader (α : Type) where
  /-- It has not gathered yet. -/
  | ready
  /-- It waits for messages. -/
  | gathering (decode : Decoder α) (collector : Collector α)
  /-- It has gathered or given up, and takes no more messages. -/
  | finished

/-- A team: the coordinator, for each other rank whether it can still send, and the queue. -/
structure Team (α : Type) where
  size : UInt32
  leader : Leader α
  /-- Whether the members of rank 1, 2, … can still send. -/
  senders : List Bool
  queue : List Message

namespace Team

variable {α : Type}

def ofSize (size : UInt32) : Team α :=
  ⟨size, .ready, List.replicate (size.toNat - 1) true, []⟩

/-- Whether a member other than the coordinator can still send. -/
def canSend (t : Team α) (rank : UInt32) : Bool :=
  match t.senders[rank.toNat - 1]? with
  | some unused => unused
  | none => false

/-- The team after a member has used up its one message, or has left. -/
def spend (t : Team α) (rank : UInt32) : Team α :=
  { t with senders := t.senders.set (rank.toNat - 1) false }

/-- Whether the coordinator still takes messages. -/
def isListening (t : Team α) : Bool :=
  match t.leader with
  | .finished => false
  | _ => true

/-- The team after the coordinator has stopped taking messages. -/
def close (t : Team α) : Team α :=
  { t with leader := .finished }

/-! ## Members other than the coordinator -/

/-- Sends a payload, if the member has not sent yet. An attempt counts, also if the coordinator is
gone. -/
def send (t : Team α) (rank : UInt32) (payload : Payload) : Except Failure Unit × Team α :=
  if t.canSend rank then
    let t := t.spend rank
    if t.isListening then (.ok (), { t with queue := t.queue ++ [⟨rank, payload⟩] })
    else (.error (.protocol .coordinatorLeft), t)
  else (.error (.protocol .alreadySent), t)

/-- Sends a value. A value that cannot be encoded uses up nothing. -/
def contribute (t : Team α) (codec : Codec α) (rank : UInt32) (value : α) :
    Except Failure Unit × Team α :=
  match codec.serialize value with
  | .error e => (.error e, t)
  | .ok encoded => t.send rank (.value encoded)

/-! ## The coordinator -/

/-- Starts the gather of the coordinator, which can be done once. -/
def begins (t : Team α) (codec : Codec α) (own : α) : Except Failure Unit × Team α :=
  match t.leader with
  | .ready => (.ok (), { t with leader := .gathering codec.deserialize (.start t.size own) })
  | _ => (.error (.protocol .alreadyFinished), t)

/-- What the coordinator finds when it looks for a message. -/
inductive Turn (α : Type) where
  /-- Its gather has ended. -/
  | decided (result : Except Failure (List α))
  /-- It took a message and goes on. -/
  | took
  /-- It has to wait. -/
  | waits

/-- One turn of the coordinator: it ends a complete gather, or takes a message, or gives up when
nobody is left who could send one. -/
def turn (t : Team α) : Turn α × Team α :=
  match t.leader with
  | .gathering decode collector =>
    if collector.isComplete then (.decided collector.finish, t.close)
    else match t.queue with
      | m :: rest =>
        let t := { t with queue := rest }
        match collector.accept decode m with
        | .ok collector => (.took, { t with leader := .gathering decode collector })
        | .error e => (.decided (.error e), t.close)
      | [] =>
        if t.senders.any id then (.waits, t)
        else (.decided (.error (.protocol .participantsLeft)), t.close)
  | _ => (.waits, t)

/-- At most a number of turns, until the gather has ended or has to wait. -/
def turns : Nat → Team α → Option (Except Failure (List α)) × Team α
  | 0, t => (none, t)
  | n + 1, t => match t.turn with
    | (.decided result, t) => (some result, t)
    | (.took, t) => turns n t
    | (.waits, t) => (none, t)

/-- All turns that the coordinator can take now. Each but the last takes a message. -/
def settle (t : Team α) : Option (Except Failure (List α)) × Team α :=
  turns (t.queue.length + 1) t

/-! ## Giving up and leaving -/

/-- Gives up: the coordinator takes no more messages, and another member sends its reason. -/
def abort (t : Team α) (rank : UInt32) (reason : String) : Except Failure Unit × Team α :=
  if rank = 0 then (.ok (), t.close) else t.send rank (.abort reason)

def leave (t : Team α) (rank : UInt32) : Team α :=
  if rank = 0 then t.close else t.spend rank

end Team

end JobBinding.Gather
