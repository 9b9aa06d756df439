import JobBinding.Binding
import JobBinding.Instant
import JobBinding.Text.Blank
import JobBinding.Text.Decimal
import JobBinding.Text.Lines
import JobBinding.Text.Scan

/-!
# What the system tells about a process

The files in which a Linux system describes a process and itself: the cores that the process may run
on, as a list of ranges, and the current time, as the time of the start and the time since then.
-/

namespace JobBinding.System

open Text

def number? (cs : List Char) : Option Nat :=
  Decimal.readBelow? UInt64.size (trim (String.ofList cs))

def betweenCommas (cs : List Char) : List (List Char) :=
  cs.foldr (fun c parts => match c, parts with
    | ',', parts => [] :: parts
    | c, part :: rest => (c :: part) :: rest
    | c, [] => [[c]]) [[]]

/-- The numbers of a range `a-b`, or the single number. -/
def range? (cs : List Char) : Option (List Nat) :=
  match splitAtMarker? ['-'] cs with
  | none => (number? cs).map fun n => [n]
  | some (low, high) => do
    let a ← number? low
    let b ← number? high
    return (List.range (b + 1 - a)).map (a + ·)

/-- What follows a marker at the beginning of a line. -/
def entry? (marker : String) (text : String) : Option (List Char) :=
  (lines text.toList).findSome? (afterPrefix? marker.toList)

/-- The cores of a process, from its status. -/
def cores? (status : String) : Option (SortedSet CoreId) := do
  let ranges ← (betweenCommas (← entry? "Cpus_allowed_list:" status)).mapM range?
  return .ofList (ranges.flatten.map (·.toUInt64))

/-- The current time, from the time of the start and the seconds since then. -/
def now? (statistics uptime : String) : Option Instant := do
  let start ← number? (← entry? "btime " statistics)
  let seconds ← number? (uptime.toList.takeWhile (· ≠ '.'))
  Instant.ofParts? (start + seconds) 0

end JobBinding.System
