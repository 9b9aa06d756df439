import JobBinding.Files.Tree
import JobBinding.Rendezvous.Record

/-!
# Rendezvous files

The file in which the coordinator of a job publishes its record, in a directory that all processes
of the job share. The name is made of the action and of the job's key. Characters that a file name
should not have are replaced in it, so two jobs can share a file; each reads only its own record.
-/

namespace JobBinding

/-- The meeting point of the processes that run an action of a job. -/
structure Rendezvous where
  directory : String
  action : String
  job : String
  deriving DecidableEq, Repr

namespace Rendezvous

/-- Whether a character of a job's key may stand in a file name. -/
def isPlain (c : Char) : Bool :=
  c.isAlphanum || c = '-' || c = '_' || c = '.'

/-- A job's key with replaced characters. -/
def sanitize (job : String) : String :=
  String.ofList (job.toList.map fun c => if isPlain c then c else '_')

def fileName (r : Rendezvous) : String :=
  "." ++ r.action ++ "." ++ sanitize r.job ++ ".rendezvous.json"

def path (r : Rendezvous) : String :=
  Path.join r.directory r.fileName

/-- The path where a record is written before it takes its place. -/
def draft (r : Rendezvous) : String :=
  r.path ++ ".tmp"

/-- Publishes a record. It is written aside and then moved, so that no reader finds a part. -/
def publish (r : Rendezvous) (record : Record) : Files Unit := do
  Files.makeParents r.path
  Files.write r.draft record.render
  Files.rename r.draft r.path

/-- What the bytes in the file mean to a process of the job: a record of another job is none. -/
def interpret (r : Rendezvous) (bytes : List UInt8) : Except Failure (Option Record) := do
  let record ← Record.ofBytes bytes
  return if record.job = r.job then some record else none

/-- The record of the job, if it was published. -/
def read (r : Rendezvous) : Files (Option Record) := do
  match (← get).locate r.path with
  | .error .notFound => return none
  | .error f => Files.fault f
  | .ok place => match (← get).get? place with
    | none => return none
    | some .directory => throw (.undecodable "a directory")
    | some (.file content) => Files.ofExcept (r.interpret content)

/-- Removes the file. It does not matter whether there is one. -/
def remove (r : Rendezvous) : Files Unit :=
  tryCatch (Files.remove r.path) fun _ => pure ()

end Rendezvous

end JobBinding
