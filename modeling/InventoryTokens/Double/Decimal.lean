import InventoryTokens.Double.Basic

/-!
# Doubles and decimal numbers

A decimal number is a count of a power of ten.  `Double.ofDecimal` rounds it to the nearest double,
and `Double.shortest` chooses, for a finite double, the decimal with the fewest digits that rounds
back to it and, of those, the nearest.  What is chosen always rounds back: the exact value stands in
where no short one does.
-/

namespace InventoryTokens

/-- The number `digits * 10 ^ exponent`. -/
structure Decimal where
  digits : Nat
  exponent : Int
  deriving DecidableEq, Repr

namespace Decimal

/-- The same number with no zero at the end of its digits. -/
def trimZeros (d : Decimal) : Decimal :=
  if h : d.digits ≠ 0 ∧ d.digits % 10 = 0 then trimZeros ⟨d.digits / 10, d.exponent + 1⟩ else d
  termination_by d.digits
  decreasing_by omega

end Decimal

namespace Double

def tenTo (n : Nat) : Nat :=
  Nat.pow 10 n

/-- The double nearest to plus or minus a decimal number, a half to the even rank.  A number of at
least `10 ^ 400` is beyond every double and one below `10 ^ -400` is nearer to zero than to any
other, so their powers of ten are not computed. -/
def ofDecimal (negative : Bool) (d : Decimal) : Double :=
  if d.digits = 0 then zero negative
  else if 400 ≤ d.exponent then .infinite negative
  else if d.exponent + d.digits.log2 + 1 ≤ -400 then zero negative
  else if 0 ≤ d.exponent then ofUnits negative ((d.digits * tenTo d.exponent.toNat) <<< 1074) 1
  else ofUnits negative (d.digits <<< 1074) (tenTo (-d.exponent).toNat)

/-- The exact value of a finite double: one unit is `5 ^ 1074 * 10 ^ -1074`. -/
def exactDecimal (rank : Rank) : Decimal :=
  ⟨units rank * Nat.pow 5 1074, -1074⟩

/-- The two neighbours of a decimal on the grid of `count` digits, the nearer first; of two equally
near, the upper first if `tieUp`, else the one with an even last digit. -/
def neighbours (tieUp : Bool) (exact : Decimal) (length count : Nat) : List Decimal :=
  let dropped := length - count
  let grid := tenTo dropped
  let below := exact.digits / grid
  let twice := 2 * (exact.digits % grid)
  let exponent := exact.exponent + dropped
  let upFirst := grid < twice ∨ (twice = grid ∧ (tieUp ∨ below % 2 = 1))
  if upFirst then [⟨below + 1, exponent⟩, ⟨below, exponent⟩]
  else [⟨below, exponent⟩, ⟨below + 1, exponent⟩]

/-- The decimals tried for a finite double, from one digit to seventeen. -/
def candidates (tieUp : Bool) (rank : Rank) : List Decimal :=
  let exact := exactDecimal rank
  let length := (Nat.toDigits 10 exact.digits).length
  (List.range' 1 17).flatMap (neighbours tieUp exact length)

/-- The decimal with the fewest digits that rounds back to the double of this rank. -/
def shortest (tieUp : Bool) (rank : Rank) : Decimal :=
  if rank.val = 0 then ⟨0, 0⟩
  else
    let found := (candidates tieUp rank).find? fun d => ofDecimal false d = .finite false rank
    (found.getD (exactDecimal rank)).trimZeros

end Double

end InventoryTokens
