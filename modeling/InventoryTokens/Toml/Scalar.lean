import InventoryTokens.Datum
import InventoryTokens.Double.Reader
import InventoryTokens.Text.Digit

/-!
# TOML scalars

Numbers, truth values and date-times are each one run of characters, except that a blank may stand
between a date and a time.  A run is read as a whole: it must match one of the forms to its end.
-/

namespace InventoryTokens.Toml

open Double (scanDigits)

def isGap (c : Char) : Bool :=
  c = ' ' || c = '\t'

/-- A character of a number, a truth value or a date-time. -/
def isScalarChar (c : Char) : Bool :=
  c.isAlphanum || c = '+' || c = '-' || c = '_' || c = '.' || c = ':'

/-- Digits in groups: underscores stand between two digits only.  Gives the digits alone. -/
def joinGroups? (isDigit : Char → Bool) : List Char → Option (List Char)
  | [] => none
  | [c] => if isDigit c then some [c] else none
  | c :: '_' :: rest =>
    if isDigit c then (joinGroups? isDigit rest).map (c :: ·) else none
  | c :: rest => if isDigit c then (joinGroups? isDigit rest).map (c :: ·) else none

/-- Removes a sign: whether it was `-`, and what follows. -/
def splitSign : List Char → Bool × List Char
  | '-' :: cs => (true, cs)
  | '+' :: cs => (false, cs)
  | cs => (false, cs)

/-- Decimal digits in groups with no zero before others. -/
def wholeDigits? (cs : List Char) : Option (List Char) :=
  match joinGroups? Char.isDigit cs with
  | some ('0' :: _ :: _) => none
  | digits => digits

def decimalInteger? (cs : List Char) : Option Int :=
  let (negative, cs) := splitSign cs
  (wholeDigits? cs).map fun digits =>
    let n : Int := Nat.ofDigitChars 10 digits 0
    if negative then -n else n

/-- An unsigned integer after a mark for base sixteen, eight or two. -/
def markedInteger? : List Char → Option Int
  | '0' :: 'x' :: cs => inBase 16 cs
  | '0' :: 'o' :: cs => inBase 8 cs
  | '0' :: 'b' :: cs => inBase 2 cs
  | _ => none
where
  inBase (base : Nat) (cs : List Char) : Option Int :=
    ((joinGroups? (fun c => (Text.digitValue? base c).isSome) cs).bind (Text.readBase? base)).map
      fun n => (n : Int)

/-- An integer that fits in 64 signed bits. -/
def integer? (cs : List Char) : Option Datum :=
  match (markedInteger? cs).or (decimalInteger? cs) with
  | some n => if Text.FitsInt64 n then some (.whole n) else none
  | none => none

/-- The part before the first of some marks, and the part from that mark on. -/
def splitAtMark (isMark : Char → Bool) (cs : List Char) : List Char × List Char :=
  (cs.takeWhile (fun c => !isMark c), cs.dropWhile (fun c => !isMark c))

/-- The exponent from its mark on, or none at all. -/
def power? : List Char → Option Int
  | [] => some 0
  | _ :: cs =>
    let (negative, cs) := splitSign cs
    (joinGroups? Char.isDigit cs).map fun digits =>
      let n : Int := Nat.ofDigitChars 10 digits 0
      if negative then -n else n

/-- A number with a point, an exponent or both, or a named value.  One too large for a double is
refused if it is positive. -/
def float? (cs : List Char) : Option Datum :=
  let (negative, body) := splitSign cs
  if body = ['i', 'n', 'f'] then some (.number (.infinite negative))
  else if body = ['n', 'a', 'n'] then some (.number .nan)
  else
    let (mantissa, power) := splitAtMark (fun c => c = 'e' || c = 'E') body
    let (whole, fraction) := splitAtMark (· = '.') mantissa
    if power = [] ∧ fraction = [] then none
    else
      let fraction? := if fraction = [] then some [] else joinGroups? Char.isDigit (fraction.drop 1)
      match wholeDigits? whole, fraction?, power? power with
      | some whole, some fraction, some power =>
        let x := Double.ofDecimal negative (Double.assemble whole fraction power)
        if x = .infinite false then none else some (.number x)
      | _, _, _ => none

/-- A number of exactly two digits within bounds. -/
def twoDigits? (low high : Nat) : List Char → Option (Nat × List Char)
  | a :: b :: rest =>
    match Text.readNat? [a, b] with
    | some n => if low ≤ n ∧ n ≤ high then some (n, rest) else none
    | none => none
  | _ => none

/-- The rest after one given character. -/
def after? (c : Char) : List Char → Option (List Char)
  | d :: rest => if c = d then some rest else none
  | [] => none

def monthLength (year month : Nat) : Nat :=
  if month = 2 then
    if year % 4 = 0 ∧ (year % 100 ≠ 0 ∨ year % 400 = 0) then 29 else 28
  else if month = 4 ∨ month = 6 ∨ month = 9 ∨ month = 11 then 30
  else 31

/-- The rest after a date of the calendar. -/
def afterDate? (cs : List Char) : Option (List Char) := do
  let (century, rest) ← twoDigits? 0 99 cs
  let (year, rest) ← twoDigits? 0 99 rest
  let rest ← after? '-' rest
  let (month, rest) ← twoDigits? 1 12 rest
  let rest ← after? '-' rest
  let (_, rest) ← twoDigits? 1 (monthLength (century * 100 + year) month) rest
  return rest

/-- The rest after a time of day, with a fraction of a second or without. -/
def afterTime? (cs : List Char) : Option (List Char) := do
  let (_, rest) ← twoDigits? 0 23 cs
  let rest ← after? ':' rest
  let (_, rest) ← twoDigits? 0 59 rest
  let rest ← after? ':' rest
  let (_, rest) ← twoDigits? 0 60 rest
  match rest with
  | '.' :: fraction =>
    let (digits, after) := scanDigits fraction
    if digits = [] then none else some after
  | _ => some rest

/-- Whether a text is a time of day with an optional offset from universal time. -/
def isOffsetTime (cs : List Char) : Bool :=
  match afterTime? cs with
  | none => false
  | some [] => true
  | some [c] => c = 'Z' || c = 'z'
  | some (c :: rest) =>
    (c = '+' || c = '-') &&
      (match twoDigits? 0 23 rest with
        | some (_, ':' :: rest) =>
          match twoDigits? 0 59 rest with
          | some (_, []) => true
          | _ => false
        | _ => false)

/-- Whether a run is a date, a time, or both around a `T`. -/
def isDateTime (cs : List Char) : Bool :=
  match afterDate? cs with
  | some [] => true
  | some (c :: rest) => (c = 'T' || c = 't') && isOffsetTime rest
  | none => afterTime? cs = some []

/-- A date-time as a datum: a record whose one member is no field of ours. -/
def dateTime (cs : List Char) : Datum :=
  .record [("date-time", .text (String.ofList cs))]

/-- The datum that a whole run spells. -/
def scalar? (cs : List Char) : Option Datum :=
  if cs = ['t', 'r', 'u', 'e'] then some (.flag true)
  else if cs = ['f', 'a', 'l', 's', 'e'] then some (.flag false)
  else if isDateTime cs then some (dateTime cs)
  else (float? cs).or (integer? cs)

/-- The scalar at the start of a text.  After a date alone, one blank and a time belong to it. -/
def scanScalar (cs : List Char) : Option (Datum × List Char) :=
  let run := cs.takeWhile isScalarChar
  let rest := cs.dropWhile isScalarChar
  match rest with
  | ' ' :: more =>
    let second := more.takeWhile isScalarChar
    if afterDate? run = some [] ∧ isOffsetTime second then
      some (dateTime (run ++ ' ' :: second), more.dropWhile isScalarChar)
    else (scalar? run).map fun d => (d, rest)
  | _ => (scalar? run).map fun d => (d, rest)

end InventoryTokens.Toml
