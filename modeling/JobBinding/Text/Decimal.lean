/-!
# Unsigned decimal numbers

Reading is for numbers below a bound: an optional plus sign and at least one ASCII digit.
-/

namespace JobBinding.Text.Decimal

/-- The value of some decimal digits, from the digits read so far. -/
def value (digits : List Char) : Nat :=
  digits.foldl (fun n d => n * 10 + (d.toNat - '0'.toNat)) 0

/-- Reads a number below `bound`. There is no minus sign, so `-0` is refused like `-1`. -/
def readBelow? (bound : Nat) (text : String) : Option Nat :=
  let digits := match text.toList with
    | '+' :: rest => rest
    | cs => cs
  if digits ≠ [] ∧ digits.all Char.isDigit ∧ value digits < bound then some (value digits)
  else none

/-- A number with at least two digits. -/
def twoDigits (n : Nat) : String :=
  if n < 10 then "0" ++ toString n else toString n

end JobBinding.Text.Decimal
