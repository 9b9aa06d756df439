import JobBinding.Failure
import JobBinding.Instant
import JobBinding.Json.Reading

/-!
# Rendezvous records

What the coordinator of a job tells the other processes: where it listens, how many processes it
expects and since when, or why it gave up. A record is an object of JSON. Fields that are not known
are skipped, so that a later version may have more of them; the values may also stand in an array,
in the order of the fields.
-/

namespace JobBinding

/-- What a coordinator publishes. -/
structure Record where
  job : String
  host : String
  port : UInt16
  /-- The number of processes that the coordinator expects, itself included. -/
  size : UInt32
  /-- When the record was published. It tells apart the records of runs with the same job key. -/
  created : Instant
  /-- Why the coordinator gave up, if it did so before it collected anything. -/
  aborted : Option String
  deriving DecidableEq, Repr

namespace Record

open Json

/-! ## Writing -/

def toJson (r : Record) : Json.Plain :=
  .object
    [("job", .text r.job), ("host", .text r.host), ("port", .number r.port.toNat),
      ("size", .number r.size.toNat),
      ("created", .object
        [("secs_since_epoch", .number r.created.seconds),
          ("nanos_since_epoch", .number r.created.nanos)]),
      ("aborted", match r.aborted with
        | some reason => .text reason
        | none => .null)]

def render (r : Record) : String :=
  Json.render r.toJson

/-! ## Reading -/

def instantOfParts? (seconds nanos : Json.Found) : Option Instant := do
  Instant.ofParts? (← below? UInt64.size seconds) (← below? UInt32.size nanos)

/-- An instant, as an object without further fields or as an array. -/
def instant? : Json.Found → Option Instant
  | .array [seconds, nanos] => instantOfParts? seconds nanos
  | .array _ => none
  | value => do
    let fields ← fields? value
    if fields.all fun (name, _) => name == "secs_since_epoch" || name == "nanos_since_epoch" then
      instantOfParts? (← field? "secs_since_epoch" fields) (← field? "nanos_since_epoch" fields)
    else none

/-- The reason of a coordinator that gave up, or nothing. -/
def reason? : Json.Found → Option (Option String)
  | .null => some none
  | value => (text? value).map some

def ofValues? (job host port size created aborted : Json.Found) : Option Record := do
  return ⟨← text? job, ← text? host, (← below? UInt16.size port).toUInt16,
    (← below? UInt32.size size).toUInt32, ← instant? created, ← reason? aborted⟩

/-- A record, as an object or as an array. Only the reason may be missing. -/
def ofJson? : Json.Found → Option Record
  | .array [job, host, port, size, created] => ofValues? job host port size created .null
  | .array [job, host, port, size, created, aborted] =>
    ofValues? job host port size created aborted
  | .array _ => none
  | value => do
    let fields ← fields? value
    let aborted ← match occurrence "aborted" fields with
      | .absent => some .null
      | .once value => some value
      | .repeated => none
    ofValues? (← field? "job" fields) (← field? "host" fields) (← field? "port" fields)
      (← field? "size" fields) (← field? "created" fields) aborted

def ofBytes (bytes : List UInt8) : Except Failure Record :=
  match Json.ofBytes? bytes >>= ofJson? with
  | some r => .ok r
  | none => .error (.undecodable "no rendezvous record")

end Record

end JobBinding
