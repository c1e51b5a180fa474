/-!
# Double-precision numbers

A finite double is a sign and a rank.  The rank counts the non-negative finite doubles in ascending
order from zero, so the order of ranks is the order of values, and every value is a whole number of
units of `2 ^ -1074`.  All arithmetic here is exact, in natural numbers and integers.
-/

namespace InventoryTokens

namespace Double

/-- The number of doubles of one sign and exponent, which is `2 ^ 52`. -/
abbrev binade : Nat := 0x10000000000000

/-- The number of non-negative finite doubles: 2047 exponents of `binade` doubles each. -/
abbrev rankLimit : Nat := 2047 * binade

/-- Position of a non-negative finite double among all of them. -/
abbrev Rank := Fin rankLimit

end Double

/-- A double-precision number.  Zero has a sign; there is one value that is not a number. -/
inductive Double where
  | finite (negative : Bool) (rank : Double.Rank)
  | infinite (negative : Bool)
  | nan
  deriving DecidableEq, Repr

namespace Double

/-- The value at a rank in units of `2 ^ -1074`.  In the first binade the rank itself; above,
each further exponent doubles the distance between neighbours. -/
def units (rank : Nat) : Nat :=
  if rank < binade then rank else (binade + rank % binade) <<< (rank / binade - 1)

/-- The rank nearest to `num / den` units, a half to the even rank.  The shift is the binary
exponent at which the quotient keeps 53 digits. -/
def nearestRank (num den : Nat) : Nat :=
  let shift := (num / den).log2 - 52
  let step := den <<< shift
  let quotient := num / step
  let twice := 2 * (num % step)
  let up := step < twice ∨ (twice = step ∧ quotient % 2 = 1)
  shift * binade + quotient + (if up then 1 else 0)

/-- The double nearest to plus or minus `num / den` units; infinite beyond the last rank. -/
def ofUnits (negative : Bool) (num den : Nat) : Double :=
  let rank := nearestRank num den
  if h : rank < rankLimit then .finite negative ⟨rank, h⟩ else .infinite negative

def ofInt (n : Int) : Double :=
  ofUnits (n < 0) (n.natAbs <<< 1074) 1

def zero (negative : Bool) : Double := .finite negative ⟨0, by decide⟩

/-- A number whose order is that of the values: the signed rank.  The two zeros agree, and there is
none for a value that is not a number. -/
def order? : Double → Option Int
  | .finite negative rank => some (if negative then -(rank.val : Int) else rank.val)
  | .infinite negative => some (if negative then -(rankLimit : Int) else rankLimit)
  | .nan => none

/-- Whether the first value is at most the second; false if either is not a number. -/
def atMost (x y : Double) : Bool :=
  match x.order?, y.order? with
  | some a, some b => a ≤ b
  | _, _ => false

/-- Whether the values are equal; false if either is not a number. -/
def equal (x y : Double) : Bool :=
  match x.order?, y.order? with
  | some a, some b => a = b
  | _, _ => false

/-- Whether the value is neither infinite nor `nan`. -/
def isFinite : Double → Bool
  | .finite _ _ => true
  | _ => false

end Double

end InventoryTokens
