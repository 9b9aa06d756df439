import JobBinding.Text.Decimal

/-!
# Durations

A duration in whole seconds, shown the way batch systems write a time limit.
-/

namespace JobBinding

/-- A span of time in whole seconds. -/
structure Duration where
  seconds : Nat
  deriving DecidableEq, Repr

/-- Hours, minutes and seconds, each with at least two digits. The hours are not bounded. -/
def Duration.clock (d : Duration) : String :=
  ":".intercalate
    [Text.Decimal.twoDigits (d.seconds / 3600), Text.Decimal.twoDigits (d.seconds % 3600 / 60),
      Text.Decimal.twoDigits (d.seconds % 60)]

end JobBinding
