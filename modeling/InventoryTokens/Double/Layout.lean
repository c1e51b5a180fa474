import InventoryTokens.Double.Decimal
import InventoryTokens.Text.Whole

/-!
# The text of a double

Two layouts.  The plain one is always positional and shows a whole number without a point.  The
tagged one keeps a point in every positional number, so that it is told from an integer, and writes
very small and very large numbers with an exponent.
-/

namespace InventoryTokens.Double

open Text (natDigits intDigits)

/-- The digits of a decimal with the point where it belongs, and no point after a whole number. -/
def positional (d : Decimal) : List Char :=
  let digits := natDigits d.digits
  let point := digits.length + d.exponent
  if point ≤ 0 then '0' :: '.' :: (List.replicate (-point).toNat '0' ++ digits)
  else if 0 ≤ d.exponent then digits ++ List.replicate d.exponent.toNat '0'
  else digits.take point.toNat ++ '.' :: digits.drop point.toNat

/-- One digit, a point and the other digits if there are any, and the exponent with its sign. -/
def scientific (d : Decimal) : List Char :=
  let digits := natDigits d.digits
  let exponent : Int := d.exponent + digits.length - 1
  let fraction := if digits.length ≤ 1 then [] else '.' :: digits.drop 1
  let sign := if exponent < 0 then [] else ['+']
  digits.take 1 ++ fraction ++ 'e' :: (sign ++ intDigits exponent)

def signChars (negative : Bool) : List Char :=
  if negative then ['-'] else []

/-- The plain layout: the shortest digits, of two equally near the upper. -/
def plain : Double → List Char
  | .finite negative rank =>
    let d := shortest true rank
    signChars negative ++ (if d.digits = 0 then ['0'] else positional d)
  | .infinite negative => signChars negative ++ ['i', 'n', 'f']
  | .nan => ['N', 'a', 'N']

def plainText (x : Double) : String :=
  String.ofList x.plain

/-- The tagged layout: the shortest digits, of two equally near the even one; positional from
`10 ^ -5` up to but not including `10 ^ 16`.  Only finite numbers have one. -/
def tagged? : Double → Option (List Char)
  | .finite negative rank =>
    let d := shortest false rank
    let magnitude : Int := d.exponent + (natDigits d.digits).length - 1
    let body :=
      if d.digits = 0 then ['0', '.', '0']
      else if magnitude < -5 ∨ 16 ≤ magnitude then scientific d
      else if 0 ≤ d.exponent then positional d ++ ['.', '0']
      else positional d
    some (signChars negative ++ body)
  | _ => none

end InventoryTokens.Double
