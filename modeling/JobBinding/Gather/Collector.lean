import JobBinding.Gather.Message

/-!
# Collecting contributions

The coordinator's account of a gather: one slot for each process of the group, its own filled from
the start. Each message fills the slot of its sender, and a message that does not fit ends the
gather.
-/

namespace JobBinding.Gather

/-- How the coordinator reads a contribution. -/
abbrev Decoder (α : Type) := List UInt8 → Except Failure α

/-- The contributions of a group by rank, and how many are missing. -/
structure Collector (α : Type) where
  slots : List (Option α)
  missing : Nat
  deriving DecidableEq, Repr

namespace Collector

variable {α : Type}

/-- The account of a group of a size in which only the coordinator has contributed. -/
def start (size : UInt32) (own : α) : Collector α :=
  ⟨some own :: List.replicate (size.toNat - 1) none, size.toNat - 1⟩

/-- Whether every process has contributed. -/
def isComplete (c : Collector α) : Bool :=
  c.missing = 0

/-- The account after the value of a rank. -/
def fill (c : Collector α) (rank : UInt32) (value : α) : Collector α :=
  ⟨c.slots.set rank.toNat (some value), c.missing - 1⟩

/-- The account after a message. The rank must be one of the other processes and must not have
contributed; only then does the payload matter. -/
def accept (decode : Decoder α) (c : Collector α) (m : Message) : Except Failure (Collector α) :=
  match c.slots[m.rank.toNat]? with
  | none => .error (.protocol (.invalidRank m.rank))
  | some slot =>
    if m.rank = 0 then .error (.protocol (.invalidRank m.rank))
    else if slot.isSome then .error (.protocol (.repeatedRank m.rank))
    else match m.payload with
      | .abort reason => .error (.aborted m.rank reason)
      | .value encoded => do return c.fill m.rank (← decode encoded)

/-- Takes a message into the account in place: first the sender's slot is filled, then one value
less is missing. What was done before a failure stays. -/
def receive (decode : Decoder α) (m : Message) : EStateM Failure (Collector α) Unit := do
  match (← get).slots[m.rank.toNat]? with
  | none => throw (.protocol (.invalidRank m.rank))
  | some slot =>
    if m.rank = 0 then throw (.protocol (.invalidRank m.rank))
    else if slot.isSome then throw (.protocol (.repeatedRank m.rank))
    else match m.payload with
      | .abort reason => throw (.aborted m.rank reason)
      | .value encoded => match decode encoded with
        | .error e => throw e
        | .ok value => do
          modify fun c => { c with slots := c.slots.set m.rank.toNat (some value) }
          modify fun c => { c with missing := c.missing - 1 }

/-- The account that a message leaves, whether it is taken or refused. -/
def next (decode : Decoder α) (c : Collector α) (m : Message) : Collector α :=
  match (receive decode m).run c with
  | .ok _ c => c
  | .error _ c => c

/-- The account that some messages leave, one after the other. -/
def reached (decode : Decoder α) (c : Collector α) (ms : List Message) : Collector α :=
  ms.foldl (next decode) c

/-- Those of some messages that are taken, one after the other. -/
def taken (decode : Decoder α) (c : Collector α) : List Message → List Message
  | [] => []
  | m :: ms => match (receive decode m).run c with
    | .ok _ c => m :: taken decode c ms
    | .error _ c => taken decode c ms

/-- The values in some slots, the first of which belongs to a rank. -/
def valuesFrom (rank : Nat) : List (Option α) → Except Failure (List α)
  | [] => .ok []
  | none :: _ => .error (.protocol (.missingRank rank))
  | some value :: rest => do return value :: (← valuesFrom (rank + 1) rest)

/-- The values in the order of the ranks. -/
def finish (c : Collector α) : Except Failure (List α) :=
  valuesFrom 0 c.slots

end Collector

end JobBinding.Gather
