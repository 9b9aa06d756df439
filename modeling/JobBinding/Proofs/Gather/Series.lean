import JobBinding.Proofs.Gather.Meeting

/-!
# A group that gathers several times

The processes of one group make the same number of calls through one rendezvous file, one after the
other, as they do when one directory is validated again. In each round a process contributes a value
or gives up. The coordinator is in the round that its results tell; every other process counts its
own rounds, since it goes on as soon as it has sent its message.

As for several jobs (`Meeting`), a step is one thing that one process does and is made of the
functions that this process runs, so the states that are reached cover every interleaving. A
connection to a listener that is closed before the coordinator takes it stays in `State.waiting` of
its round: nobody reads it any more. Publishing, with the opening of the listener before it, is one
step, and so is removing the file, with the closing of the listener after it.
-/

namespace JobBinding.Gather

variable {α : Type}

/-- A group and its calls. The rounds are counted from zero. -/
structure Series (α : Type) where
  directory : String
  action : String
  key : String
  size : UInt32
  two_le_size : 2 ≤ size.toNat
  rounds : Nat
  host : UInt32 → String
  /-- When a process of a rank started into a round. -/
  started : Nat → UInt32 → Instant
  /-- What a process of a rank contributes to a round unless it gives up. -/
  value : Nat → UInt32 → α
  /-- Why a process of a rank gives up in a round. -/
  reason : Nat → UInt32 → Option String
  codec : Codec α
  /-- The files before the first call. -/
  files : FileTree

namespace Series

/-- What a process sends in a round. -/
@[ext]
structure Contribution where
  rank : UInt32
  round : Nat
  deriving DecidableEq, Repr

/-- Where the coordinator is. Its listener is open while it has an address. -/
inductive LeadStage where
  /-- It is about to make its next call, if there is one. -/
  | ready
  /-- It has taken some connections, and waits for the next one or is about to leave. -/
  | listening (address : Address) (taken : List (Contribution × Connection))
  /-- It has taken a connection after some others, and waits for its message. -/
  | receiving (address : Address) (taken : List (Contribution × Connection))
      (sender : Contribution)
  /-- It has published why it gives up. -/
  | gaveUp (now : Instant)
  /-- One of its calls has failed. -/
  | failed (failure : Failure)

/-- Where another process is, in its round. -/
inductive WorkStage where
  /-- It has not encoded its message. -/
  | ready
  /-- It is about to look at the rendezvous file. -/
  | looking
  /-- It has found an address in a record and is about to connect. -/
  | found (address : Address)
  /-- It is connected and has not sent anything. -/
  | connected
  /-- It has sent its message, and its call has returned. -/
  | sent
  /-- Its call has failed. -/
  | failed (failure : Failure)

/-- Where all processes are. -/
structure State (α : Type) where
  files : FileTree
  lead : LeadStage
  /-- What the calls of the coordinator have returned so far. -/
  results : List (List α)
  /-- The contributions whose connections wait at the listener of a round. -/
  waiting : Nat → List Contribution
  /-- The round of each process but the coordinator. -/
  round : UInt32 → Nat
  work : UInt32 → WorkStage

def start (m : Series α) : State α :=
  ⟨m.files, .ready, [], fun _ => [], fun _ => 0, fun _ => .ready⟩

/-! ## What the processes run -/

variable (m : Series α)

def rendezvous : Rendezvous :=
  ⟨m.directory, m.action, m.key⟩

def participant (round : Nat) (rank : UInt32) : Participant :=
  ⟨⟨rank, m.size⟩, m.rendezvous, m.host rank, m.started round rank⟩

def record (port : UInt16) (now : Instant) (aborted : Option String) : Record :=
  (m.participant 0 0).record port now aborted

/-- What a process sends in a round, or why it cannot. -/
def payload (c : Contribution) : Except Failure Payload :=
  match m.reason c.round c.rank with
  | some reason => .ok (.abort reason)
  | none => (m.codec.serialize (m.value c.round c.rank)).map .value

/-- What a process puts on its connection. It is nothing if its message is too large. -/
def message (c : Contribution) : List UInt8 :=
  match m.payload c >>= fun payload => Message.toConnection ⟨c.rank, payload⟩ with
  | .ok bytes => bytes
  | .error _ => []

/-- The account of a round after some connections. -/
def account (round : Nat) (taken : List (Contribution × Connection)) :
    Except Failure (Collector α) :=
  Coordinator.serve m.codec.deserialize (.start m.size (m.value round 0)) (taken.map (·.2))

def afterPublishing (address : Address) : Except Failure Unit → LeadStage
  | .ok _ => .listening address []
  | .error e => .failed e

def afterGivingUp (now : Instant) : Except Failure Unit → LeadStage
  | .ok _ => .gaveUp now
  | .error e => .failed e

def afterLeaving : Except Failure (List α) → LeadStage
  | .ok _ => .ready
  | .error e => .failed e

/-- What a gather adds to the results. -/
def resultsOf : Except Failure (List α) → List (List α)
  | .ok values => [values]
  | .error _ => []

def afterEncoding : Except Failure Payload → WorkStage
  | .ok _ => .looking
  | .error e => .failed e

def afterReading : Worker.Decision → WorkStage
  | .lookAgain => .looking
  | .giveUp e => .failed e
  | .connect host port => .found (host, port)

/-! ## The listener -/

def LeadStage.address? : LeadStage → Option Address
  | .listening address _ => some address
  | .receiving address _ _ => some address
  | _ => none

/-- The connections that the coordinator has read in its round. -/
def LeadStage.taken : LeadStage → List (Contribution × Connection)
  | .listening _ taken => taken
  | .receiving _ taken _ => taken
  | _ => []

def LeadStage.reading : LeadStage → List Contribution
  | .receiving _ _ sender => [sender]
  | _ => []

/-- Whether a process is one of the group, but not the coordinator. -/
def IsMember (rank : UInt32) : Prop :=
  rank ≠ 0 ∧ rank < m.size

instance (rank : UInt32) : Decidable (m.IsMember rank) :=
  inferInstanceAs (Decidable (_ ∧ _))

/-- Whether a process has sent its message of a round. -/
def State.HasSent (s : State α) (c : Contribution) : Prop :=
  s.round c.rank = c.round ∧ s.work c.rank = .sent ∨ c.round < s.round c.rank

/-! ## Steps -/

/-- One step of one process. -/
inductive Step : State α → State α → Prop where
  /-- The coordinator opens its listener and publishes its record. -/
  | publish {s : State α} {port : UInt16} {now : Instant} (hready : s.lead = .ready)
      (hround : s.results.length < m.rounds) (hgathers : m.reason s.results.length 0 = none) :
      Step s { s with
        files := (m.rendezvous.publish (m.record port now none)).after s.files
        lead := afterPublishing (m.host 0, port)
          ((m.rendezvous.publish (m.record port now none)).result s.files) }
  /-- The coordinator publishes why it gives up. -/
  | giveUp {s : State α} {reason : String} {now : Instant} (hready : s.lead = .ready)
      (hround : s.results.length < m.rounds)
      (hgivesUp : m.reason s.results.length 0 = some reason) :
      Step s { s with
        files := (m.rendezvous.publish (m.record 0 now (some reason))).after s.files
        lead := afterGivingUp now
          ((m.rendezvous.publish (m.record 0 now (some reason))).result s.files) }
  /-- The coordinator, if its account is not complete, takes a connection that waits. -/
  | accept {s : State α} {address : Address} {taken : List (Contribution × Connection)}
      {account : Collector α} {before after : List Contribution} {c : Contribution}
      (hlistening : s.lead = .listening address taken)
      (haccount : m.account s.results.length taken = .ok account)
      (hopen : account.isComplete = false)
      (hwaiting : s.waiting s.results.length = before ++ c :: after) :
      Step s { s with
        lead := .receiving address taken c
        waiting := Function.update s.waiting s.results.length (before ++ after) }
  /-- The coordinator has received what a process has sent, in some pieces. -/
  | receive {s : State α} {address : Address} {taken : List (Contribution × Connection)}
      {c : Contribution} {connection : Connection}
      (hreceiving : s.lead = .receiving address taken c) (hsent : s.HasSent c)
      (hbytes : connection.flatten = m.message c) :
      Step s { s with lead := .listening address (taken ++ [(c, connection)]) }
  /-- The coordinator, with a complete account or with a connection that did not fit, removes the
  rendezvous file and returns. -/
  | leave {s : State α} {address : Address} {taken : List (Contribution × Connection)}
      {result : Except Failure (List α)} (hlistening : s.lead = .listening address taken)
      (hover : ∀ account, m.account s.results.length taken = .ok account →
        account.isComplete = true)
      (hresult : (m.account s.results.length taken >>= Collector.finish) = result) :
      Step s { s with
        files := m.rendezvous.remove.after s.files
        lead := afterLeaving result
        results := s.results ++ resultsOf result }
  /-- Another process encodes its message. -/
  | encode {s : State α} {rank : UInt32} (hready : s.work rank = .ready) (hrank : m.IsMember rank)
      (hround : s.round rank < m.rounds) :
      Step s { s with
        work := Function.update s.work rank (afterEncoding (m.payload ⟨rank, s.round rank⟩)) }
  /-- It looks at the rendezvous file. -/
  | read {s : State α} {rank : UInt32} (hlooking : s.work rank = .looking) :
      Step s { s with
        work := Function.update s.work rank
          (afterReading (Worker.consider (m.participant (s.round rank) rank)
            (m.rendezvous.read.result s.files))) }
  /-- It connects to the listener at the address that it has found. -/
  | connect {s : State α} {rank : UInt32} {address : Address}
      (hfound : s.work rank = .found address) (hlistens : s.lead.address? = some address) :
      Step s { s with
        work := Function.update s.work rank .connected
        waiting := Function.update s.waiting s.results.length
          (s.waiting s.results.length ++ [⟨rank, s.round rank⟩]) }
  /-- It cannot connect, and is going to look again. -/
  | refuse {s : State α} {rank : UInt32} {address : Address}
      (hfound : s.work rank = .found address) :
      Step s { s with work := Function.update s.work rank .looking }
  /-- It connects to a program that is no process of the group. -/
  | stray {s : State α} {rank : UInt32} {address : Address} (hfound : s.work rank = .found address)
      (hnone : s.lead.address? ≠ some address) :
      Step s { s with work := Function.update s.work rank .connected }
  /-- It sends its message, and its call returns. -/
  | send {s : State α} {rank : UInt32} (hconnected : s.work rank = .connected) :
      Step s { s with work := Function.update s.work rank .sent }
  /-- It goes on to its next call. A process that has given up does not. -/
  | next {s : State α} {rank : UInt32} (hsent : s.work rank = .sent)
      (hgathered : m.reason (s.round rank) rank = none) (hround : s.round rank + 1 < m.rounds) :
      Step s { s with
        round := Function.update s.round rank (s.round rank + 1)
        work := Function.update s.work rank .ready }

/-- The states that are reached through states of a kind. -/
inductive ReachableWithin (P : State α → Prop) : State α → Prop where
  | start (h : P m.start) : ReachableWithin P m.start
  | step {s s' : State α} (h : ReachableWithin P s) (hstep : m.Step s s') (hP : P s') :
      ReachableWithin P s'

def Reachable : State α → Prop :=
  m.ReachableWithin fun _ => True

/-- Whether no process is in a round that the coordinator has not come to. -/
def State.InTurn (s : State α) : Prop :=
  ∀ rank, s.round rank ≤ s.results.length

/-- Whether the coordinator makes no more calls: all have returned, or one has given up or has
failed. -/
def IsOver (s : State α) : Prop :=
  match s.lead with
  | .ready => m.rounds ≤ s.results.length
  | .gaveUp _ => True
  | .failed _ => True
  | _ => False

variable {m}

lemma size_pos (m : Series α) : 0 < m.size.toNat :=
  Nat.lt_of_lt_of_le Nat.zero_lt_two m.two_le_size

lemma ReachableWithin.of {P : State α → Prop} {s : State α} (h : m.ReachableWithin P s) : P s := by
  cases h with
  | start h => exact h
  | step _ _ h => exact h

end Series

end JobBinding.Gather
