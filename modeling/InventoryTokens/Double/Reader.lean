import InventoryTokens.Double.Decimal
import InventoryTokens.Text.Blank

/-!
# Reading a double

Scanners for the parts of a decimal number, and the reader for free text: an optional sign, then
either digits with an optional point and exponent or a name for an infinite or undefined value.
-/

namespace InventoryTokens.Double

def scanDigits (cs : List Char) : List Char × List Char :=
  (cs.takeWhile Char.isDigit, cs.dropWhile Char.isDigit)

/-- The number whose digits stand before and after a point, times a power of ten. -/
def assemble (whole fraction : List Char) (exponent : Int) : Decimal :=
  ⟨Nat.ofDigitChars 10 (whole ++ fraction) 0, exponent - fraction.length⟩

/-- An exponent after its mark: an optional sign and at least one digit. -/
def scanExponent : List Char → Option (Int × List Char)
  | '+' :: cs => unsigned cs
  | '-' :: cs => (unsigned cs).map fun (n, rest) => (-n, rest)
  | cs => unsigned cs
where
  unsigned (cs : List Char) : Option (Int × List Char) :=
    let (digits, rest) := scanDigits cs
    if digits = [] then none else some ((Nat.ofDigitChars 10 digits 0 : Nat), rest)

/-- The exponent at the end of a number: none at the end of the text, else `e` or `E` and nothing
after its digits. -/
def endExponent? : List Char → Option Int
  | [] => some 0
  | c :: cs =>
    if c = 'e' ∨ c = 'E' then
      match scanExponent cs with
      | some (n, []) => some n
      | _ => none
    else none

/-- Digits with at most one point and at least one digit, and an optional exponent. -/
def readDecimal? (cs : List Char) : Option Decimal :=
  let (whole, rest) := scanDigits cs
  let (fraction, rest) :=
    match rest with
    | '.' :: after => scanDigits after
    | _ => ([], rest)
  if whole = [] ∧ fraction = [] then none
  else (endExponent? rest).map (assemble whole fraction)

/-- The value of an unsigned text: a decimal number, or `inf`, `infinity` or `nan` in letters of
either case. -/
def readUnsigned? (negative : Bool) (cs : List Char) : Option Double :=
  let word := cs.map Text.asciiLower
  if word = ['i', 'n', 'f'] ∨ word = ['i', 'n', 'f', 'i', 'n', 'i', 't', 'y'] then
    some (.infinite negative)
  else if word = ['n', 'a', 'n'] then some .nan
  else (readDecimal? cs).map (ofDecimal negative)

/-- The double nearest to the number that a text spells. -/
def read? : List Char → Option Double
  | '+' :: cs => readUnsigned? false cs
  | '-' :: cs => readUnsigned? true cs
  | cs => readUnsigned? false cs

end InventoryTokens.Double
