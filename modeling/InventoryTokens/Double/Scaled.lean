import InventoryTokens.Double.Decimal

/-!
# Scaling by powers of ten

A decimal number taken to a double in two steps: its digits and a power of ten are each rounded to
the nearest double, and so is their product or quotient.  Each step is off by at most half of the
last place, so the result may be a neighbour of the double nearest to the number.
-/

namespace InventoryTokens.Double

/-- The exponent of the largest power of ten that a finite double comes near to. -/
def topPower : Nat := 308

/-- The units in the double nearest to a whole number. -/
def wholeUnits (n : Nat) : Nat :=
  units (nearestRank (n <<< 1074) 1)

/-- The units in the double nearest to a power of ten, up to the largest. -/
def powerUnits (n : Nat) : Nat :=
  wholeUnits (tenTo n)

/-- The double nearest to the product of two counts of units. -/
def ofProduct (negative : Bool) (a b : Nat) : Double :=
  ofUnits negative (a * b) (1 <<< 1074)

/-- The double nearest to the quotient of two counts of units. -/
def ofQuotient (negative : Bool) (a b : Nat) : Double :=
  ofUnits negative (a <<< 1074) b

/-- Plus or minus a decimal number, its digits scaled by its power of ten.  A power beyond
`10 ^ 308` leaves every number but zero infinite.  A power below `10 ^ -308` is divided off in two
steps, and one below `10 ^ -616` leaves zero. -/
def ofScaled (negative : Bool) (d : Decimal) : Double :=
  let digits := wholeUnits d.digits
  if d.digits = 0 then zero negative
  else if 0 ≤ d.exponent then
    if topPower < d.exponent.toNat then .infinite negative
    else ofProduct negative digits (powerUnits d.exponent.toNat)
  else
    let divisor := (-d.exponent).toNat
    if divisor ≤ topPower then ofQuotient negative digits (powerUnits divisor)
    else if divisor ≤ 2 * topPower then
      let part := units (nearestRank (digits <<< 1074) (powerUnits topPower))
      ofQuotient negative part (powerUnits (divisor - topPower))
    else zero negative

end InventoryTokens.Double
