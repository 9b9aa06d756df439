/-!
# Instants

Points in time since the epoch. The range is that of the system clock, so an instant that a file
names may be out of range.
-/

namespace JobBinding

/-- The seconds that the system clock can count. -/
def Instant.secondsLimit : Nat := 9223372036854775808

/-- A point in time, as seconds and nanoseconds since the epoch. -/
structure Instant where
  seconds : Nat
  nanos : Nat
  seconds_lt : seconds < Instant.secondsLimit
  nanos_lt : nanos < 1000000000
  deriving DecidableEq, Repr

namespace Instant

/-- The instant of some seconds and nanoseconds. Nanoseconds that make whole seconds carry. -/
def ofParts? (seconds nanos : Nat) : Option Instant :=
  if h : seconds + nanos / 1000000000 < Instant.secondsLimit then
    some ⟨seconds + nanos / 1000000000, nanos % 1000000000, h, Nat.mod_lt _ (by decide)⟩
  else none

def isBefore (a b : Instant) : Bool :=
  a.seconds < b.seconds || (a.seconds == b.seconds && a.nanos < b.nanos)

end Instant

end JobBinding
