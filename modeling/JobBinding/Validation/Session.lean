import JobBinding.Gather.Team
import JobBinding.Verdict.Classify
import JobBinding.Verdict.ReportFile

/-!
# Validation by a team

All members of a team observe their bindings, the coordinator gathers them, classifies them and
writes the report. A member that cannot observe its binding tells the others. The members take their
steps in any order; a session is the state between two steps.
-/

namespace JobBinding.Validation

open Gather

/-- How far a member has come. -/
inductive Stage where
  /-- It has not begun. -/
  | fresh
  /-- It has observed its binding, or failed to. -/
  | observed (observation : Except Failure Binding)
  /-- It is the coordinator and waits for the others. -/
  | gathering
  /-- It has returned: the coordinator with a verdict, the others without. -/
  | returned (result : Except Failure (Option Verdict))

/-- The state of a validation by a team. -/
structure Session where
  shape : Shape
  file : ReportFile
  /-- The members' probes, by rank. -/
  probes : List Probe
  team : Team Binding
  /-- The members' stages, by rank. -/
  stages : List Stage
  files : FileTree

namespace Session

/-- The members of a team before their first step, one for each probe. -/
def start (shape : Shape) (file : ReportFile) (probes : List Probe) (files : FileTree) : Session :=
  ⟨shape, file, probes, .ofSize probes.length.toUInt32, probes.map fun _ => .fresh, files⟩

def setStage (s : Session) (rank : UInt32) (stage : Stage) : Session :=
  { s with stages := s.stages.set rank.toNat stage }

/-- The session after a member has returned, which makes it leave the team. -/
def returns (s : Session) (rank : UInt32) (result : Except Failure (Option Verdict)) : Session :=
  { s.setStage rank (.returned result) with team := s.team.leave rank }

/-- The session after the coordinator's gather has ended. -/
def conclude (s : Session) (result : Except Failure (List Binding)) : Session :=
  match result with
  | .error e => s.returns 0 (.error e)
  | .ok bindings =>
    let verdict := Verdict.classify bindings s.shape
    match (s.file.write verdict).run s.files with
    | .ok _ files => { s with files }.returns 0 (.ok (some verdict))
    | .error e files => { s with files }.returns 0 (.error e)

/-- One step of a member. A member that has to wait or has returned makes none. -/
def step (s : Session) (rank : UInt32) : Session :=
  match s.stages[rank.toNat]?, s.probes[rank.toNat]? with
  | some .fresh, some probe =>
    if s.team.size ≠ s.shape.processes then
      s.returns rank (.error (.processCount s.shape.processes s.team.size))
    else s.setStage rank (.observed (probe.observe s.shape.probedVendor?))
  | some (.observed (.error e)), _ =>
    { s with team := (s.team.abort rank e.message).2 }.returns rank (.error e)
  | some (.observed (.ok binding)), _ =>
    if rank = 0 then
      match s.team.begins Binding.codec binding with
      | (.ok _, team) => { s with team }.setStage rank .gathering
      | (.error e, team) => { s with team }.returns rank (.error e)
    else
      match s.team.contribute Binding.codec rank binding with
      | (.ok _, team) => { s with team }.returns rank (.ok none)
      | (.error e, team) => { s with team }.returns rank (.error e)
  | some .gathering, _ =>
    match s.team.turn with
    | (.decided result, team) => { s with team }.conclude result
    | (.took, team) => { s with team }
    | (.waits, _) => s
  | _, _ => s

/-- The steps of some members, in this order. -/
def run (s : Session) (ranks : List UInt32) : Session :=
  ranks.foldl step s

/-- An order in which every member comes to its end: the coordinator until it waits, each other
member, and the coordinator again, which then takes every message. -/
def roundOrder (size : Nat) : List UInt32 :=
  let others := (List.range size).drop 1 |>.map (·.toUInt32)
  [0, 0, 0] ++ others.flatMap (fun rank => [rank, rank]) ++ List.replicate (size + 1) 0

/-- What a member has returned with. -/
def result? (s : Session) (rank : Nat) : Option (Except Failure (Option Verdict)) :=
  match s.stages[rank]? with
  | some (.returned result) => some result
  | _ => none

end Session

end JobBinding.Validation
