import JobBinding.Failure
import JobBinding.Text.Blank
import JobBinding.Text.Decimal

/-!
# The environment of a process

Environment variables, and what is read from those that the launcher and the batch system set: the
place of the process within its group, and the key of its job.
-/

namespace JobBinding

/-- Environment variables by name; a name without a value is not set. -/
abbrev Environment := String → Option String

namespace Environment

/-- The value of a variable that must be set. -/
def required (env : Environment) (name : String) : Except Failure String :=
  match env name with
  | some value => .ok value
  | none => .error (.missingVariable name)

/-- Reads the value of a variable as a number of 32 bits. White space around the number is
ignored, but the failure shows the value as it is. -/
def parseNumber (name value : String) : Except Failure UInt32 :=
  match Text.Decimal.readBelow? UInt32.size (Text.trim value) with
  | some n => .ok n.toUInt32
  | none => .error (.invalidVariable name value)

/-- The key of the batch job, `local` outside of one. -/
def jobKey (env : Environment) : String :=
  (["SLURM_JOB_ID", "PBS_JOBID"].findSome? env).getD "local"

end Environment

/-- The place of a process within its group. -/
structure Placement where
  rank : UInt32
  size : UInt32
  deriving DecidableEq, Repr

namespace Placement

/-- The place of a process that is alone. -/
def single : Placement :=
  ⟨0, 1⟩

/-- Rank 0 coordinates its group. -/
def isCoordinator (p : Placement) : Bool :=
  p.rank == 0

/-- The variables of the known launchers for rank and size, in order of precedence. -/
def launchers : List (String × String) :=
  [("BINDCHECK_RANK", "BINDCHECK_SIZE"), ("OMPI_COMM_WORLD_RANK", "OMPI_COMM_WORLD_SIZE"),
    ("PMI_RANK", "PMI_SIZE"), ("SLURM_PROCID", "SLURM_NTASKS")]

/-- The placement that one launcher announces, given the value of its rank variable. The rank must
lie below the size. -/
def ofPair (env : Environment) (rankName sizeName rankValue : String) :
    Except Failure Placement := do
  let rank ← Environment.parseNumber rankName rankValue
  let size ← env.required sizeName >>= Environment.parseNumber sizeName
  if rank < size then return ⟨rank, size⟩
  else throw (.invalidVariable rankName (toString rank.toNat))

/-- The placement that the first launcher whose rank variable is set announces. -/
def ofFirst (env : Environment) : List (String × String) → Except Failure Placement
  | [] => .ok single
  | (rankName, sizeName) :: rest => match env rankName with
    | some rankValue => ofPair env rankName sizeName rankValue
    | none => ofFirst env rest

/-- The placement that the environment announces. Without a launcher the process is alone. -/
def ofEnvironment (env : Environment) : Except Failure Placement :=
  ofFirst env launchers

end Placement

end JobBinding
