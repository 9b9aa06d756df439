import Mathlib.Logic.Function.Basic
import JobBinding.Gather.Worker
import JobBinding.Proofs.Files.Content
import JobBinding.Proofs.Gather.Coordinator

/-!
# Several jobs that meet in one directory

Any number of jobs gather at the same time, each in a group of its own, for the same action in the
same directory. Their keys differ, but their rendezvous files may be one file, so a job can
overwrite and remove the record of another one.

A state says where each process is and what is in the files. A step is one thing that one process
does, and it is made of the functions that this process runs: `Rendezvous.publish`, `read` and
`remove` for the files, `Worker.consider` for what a worker does about what it read, `contribution`
for what it sends, and `Coordinator.serve` for the connections that a coordinator has taken. Between
two steps of a process the others can do any number of theirs, so `Meeting.Reachable` covers every
interleaving.

What the surroundings do is assumed where it enters: a listener's address is no address of another
job (`Step.publish`), a connection is made by a worker and brings the bytes that it sent, in
whatever pieces (`Step.receive`), and publishing is one step.
-/

namespace JobBinding.Gather

variable {ι α : Type}

/-- A job whose processes gather: its key, the number of processes, and by rank the host of each
process, the time when it started and the value that it contributes. -/
structure Job (α : Type) where
  key : String
  size : UInt32
  two_le_size : 2 ≤ size.toNat
  host : UInt32 → String
  started : UInt32 → Instant
  value : UInt32 → α

/-- Jobs with different keys that meet in a directory for an action. The files are those that the
first process finds; earlier runs may have left records in them. -/
structure Meeting (ι α : Type) where
  job : ι → Job α
  key_injective : Function.Injective fun j => (job j).key
  directory : String
  action : String
  codec : Codec α
  files : FileTree

/-- A process, by its job and its rank. -/
abbrev Process (ι : Type) := ι × UInt32

abbrev Address := String × UInt16

/-- Where a coordinator is. -/
inductive CoordinatorStage (ι α : Type) where
  /-- It has not published its record. -/
  | ready
  /-- It has taken some connections, and waits for the next one or is about to leave. -/
  | listening (taken : List Connection)
  /-- It has taken a process's connection after some others, and waits for its message. -/
  | receiving (taken : List Connection) (sender : Process ι)
  /-- Its gather has ended. -/
  | returned (result : Except Failure (List α))

/-- Where another process is. -/
inductive WorkerStage where
  /-- It has not encoded its value. -/
  | ready
  /-- It is about to look at the rendezvous file. -/
  | looking
  /-- It has found an address in a record and is about to connect. -/
  | found (address : Address)
  /-- It is connected and has not sent anything. -/
  | connected
  /-- It has sent its message and closed its connection. -/
  | sent
  /-- It has given up without a connection. -/
  | stopped

namespace Meeting

/-- Where all processes are. -/
structure State (ι α : Type) where
  files : FileTree
  coordinator : ι → CoordinatorStage ι α
  /-- Where the listener of each job is, or was. -/
  listener : ι → Option Address
  /-- The processes whose connections wait at the listener of a job. -/
  queue : ι → List (Process ι)
  worker : Process ι → WorkerStage

def start (m : Meeting ι α) : State ι α :=
  ⟨m.files, fun _ => .ready, fun _ => none, fun _ => [], fun _ => .ready⟩

/-! ## What the processes run -/

/-- A process with its place in its job and the meeting point. -/
def participant (m : Meeting ι α) (w : Process ι) : Participant :=
  ⟨⟨w.2, (m.job w.1).size⟩, ⟨m.directory, m.action, (m.job w.1).key⟩, (m.job w.1).host w.2,
    (m.job w.1).started w.2⟩

def publish (m : Meeting ι α) (j : ι) (port : UInt16) (now : Instant) : Files Unit :=
  (m.participant (j, 0)).rendezvous.publish ((m.participant (j, 0)).record port now none)

/-- Where a coordinator is after publishing: a coordinator that cannot publish returns. -/
def afterPublishing : Except Failure Unit → CoordinatorStage ι α
  | .ok _ => .listening []
  | .error e => .returned (.error e)

/-- The account of a job's coordinator after some connections. -/
def account (m : Meeting ι α) (j : ι) (taken : List Connection) : Except Failure (Collector α) :=
  Coordinator.serve m.codec.deserialize (.start (m.job j).size ((m.job j).value 0)) taken

/-- Where a worker is after encoding its value: a value that is too large ends it. -/
def afterEncoding : Except Failure (List UInt8) → WorkerStage
  | .ok _ => .looking
  | .error _ => .stopped

def afterReading : Worker.Decision → WorkerStage
  | .lookAgain => .looking
  | .giveUp _ => .stopped
  | .connect host port => .found (host, port)

/-- What a worker puts on its connection. -/
def message (m : Meeting ι α) (w : Process ι) : List UInt8 :=
  contribution m.codec w.2 ((m.job w.1).value w.2)

/-! ## Addresses -/

/-- Whether an earlier run of a job has left a record that names an address. -/
def IsLeftover (m : Meeting ι α) (j : ι) (address : Address) : Prop :=
  ∃ place content record, m.files.get? place = some (.file content) ∧
    Record.ofBytes content = .ok record ∧ record.job = (m.job j).key ∧ record.aborted = none ∧
      (record.host, record.port) = address

/-- Whether an address belongs to a listener of a job, of this run or of an earlier one. -/
def Owns (m : Meeting ι α) (s : State ι α) (j : ι) (address : Address) : Prop :=
  s.listener j = some address ∨ m.IsLeftover j address

def Listens (s : State ι α) (j : ι) (address : Address) : Prop :=
  s.listener j = some address ∧ s.coordinator j ≠ .ready ∧
    ∀ result, s.coordinator j ≠ .returned result

/-! ## Steps -/

variable [DecidableEq ι]

/-- One step of one process. -/
inductive Step (m : Meeting ι α) : State ι α → State ι α → Prop where
  /-- A coordinator opens its listener and publishes its record. No other job has or had a listener
  with the address. -/
  | publish {s : State ι α} {j : ι} {port : UInt16} {now : Instant}
      (hready : s.coordinator j = .ready)
      (hfree : ∀ i, m.Owns s i ((m.job j).host 0, port) → i = j) :
      Step m s { s with
        files := (m.publish j port now).after s.files
        coordinator := Function.update s.coordinator j
          (afterPublishing ((m.publish j port now).result s.files))
        listener := Function.update s.listener j (some ((m.job j).host 0, port)) }
  /-- A coordinator whose account is not complete takes a connection that waits. -/
  | accept {s : State ι α} {j : ι} {taken : List Connection} {c : Collector α}
      {before after : List (Process ι)} {w : Process ι}
      (hlistening : s.coordinator j = .listening taken)
      (haccount : m.account j taken = .ok c) (hopen : c.isComplete = false)
      (hqueue : s.queue j = before ++ w :: after) :
      Step m s { s with
        coordinator := Function.update s.coordinator j (.receiving taken w)
        queue := Function.update s.queue j (before ++ after) }
  /-- A coordinator has received what a worker has sent, in some pieces. -/
  | receive {s : State ι α} {j : ι} {taken : List Connection} {w : Process ι}
      {connection : Connection} (hreceiving : s.coordinator j = .receiving taken w)
      (hsent : s.worker w = .sent) (hbytes : connection.flatten = m.message w) :
      Step m s { s with
        coordinator := Function.update s.coordinator j (.listening (taken ++ [connection])) }
  /-- A coordinator with a complete account, or with a connection that did not fit, removes the
  rendezvous file and returns. -/
  | leave {s : State ι α} {j : ι} {taken : List Connection}
      (hlistening : s.coordinator j = .listening taken)
      (hover : ∀ c, m.account j taken = .ok c → c.isComplete = true) :
      Step m s { s with
        files := (m.participant (j, 0)).rendezvous.remove.after s.files
        coordinator := Function.update s.coordinator j
          (.returned (m.account j taken >>= Collector.finish)) }
  /-- A worker encodes its value. -/
  | encode {s : State ι α} {w : Process ι} (hready : s.worker w = .ready)
      (hrank : w.2 ≠ 0 ∧ w.2 < (m.job w.1).size) :
      Step m s { s with
        worker := Function.update s.worker w
          (afterEncoding (m.codec.serialize ((m.job w.1).value w.2))) }
  /-- A worker looks at the rendezvous file. -/
  | read {s : State ι α} {w : Process ι} (hlooking : s.worker w = .looking) :
      Step m s { s with
        worker := Function.update s.worker w
          (afterReading (Worker.consider (m.participant w)
            ((m.participant w).rendezvous.read.result s.files))) }
  /-- A worker connects to the job that listens at the address it has found. -/
  | connect {s : State ι α} {w : Process ι} {address : Address} {k : ι}
      (hfound : s.worker w = .found address) (hlistens : Listens s k address) :
      Step m s { s with
        worker := Function.update s.worker w .connected
        queue := Function.update s.queue k (s.queue k ++ [w]) }
  /-- A worker cannot connect, and is going to look again. -/
  | refuse {s : State ι α} {w : Process ι} {address : Address}
      (hfound : s.worker w = .found address) :
      Step m s { s with worker := Function.update s.worker w .looking }
  /-- A worker connects to a program that is no process of the jobs. -/
  | stray {s : State ι α} {w : Process ι} {address : Address}
      (hfound : s.worker w = .found address) (hnone : ∀ k, ¬ Listens s k address) :
      Step m s { s with worker := Function.update s.worker w .connected }
  /-- A worker sends its message and closes the connection. -/
  | send {s : State ι α} {w : Process ι} (hconnected : s.worker w = .connected) :
      Step m s { s with worker := Function.update s.worker w .sent }

/-- The states that some steps lead to. -/
inductive Reachable (m : Meeting ι α) : State ι α → Prop where
  | start : Reachable m m.start
  | step {s s' : State ι α} (h : Reachable m s) (hstep : Step m s s') : Reachable m s'

end Meeting

end JobBinding.Gather
