/-
The floating point number nearest to a decimal.
-/
import GrammarExplorer.Decimal.Shortest

namespace GrammarExplorer.Decimal

/-- The number nearest to `coefficient * 10 ^ exponent`. Where the exponent
alone decides, the power of ten is not worked out. -/
def toFloat (coefficient : Nat) (exponent : Int) : Float :=
  let magnitude := (digitCount coefficient : Int) + exponent
  if coefficient == 0 || magnitude < -330 then 0.0
  else if 310 < magnitude then 1.0 / 0.0
  else if 0 ≤ exponent then Float.ofScientific coefficient false exponent.toNat
  else Float.ofScientific coefficient true exponent.natAbs

end GrammarExplorer.Decimal
