import InventoryTokens.Decode
import InventoryTokens.Double.Reader
import InventoryTokens.Double.Scaled
import InventoryTokens.Text.Digit

/-!
# Reading JSON

Strict: one value with blanks around it and nothing else.  Scanners take the remaining characters
and return what they read with the rest.  A number with neither point nor exponent is whole when it
fits in 64 bits, with or without a sign, and is not a negative zero.  Every other number is a
double, made from the leading digits that fit in 64 bits and a power of ten; it may be a neighbour
of the nearest double, and is infinite if it is too large for one.
-/

namespace InventoryTokens.Json

/-- The four characters that may stand between tokens. -/
def isSpace (c : Char) : Bool :=
  c = ' ' || c = '\t' || c = '\n' || c = '\r'

def skipSpace (cs : List Char) : List Char :=
  cs.dropWhile isSpace

/-- What one escape or character of a string contributes: a character or half of a surrogate pair.
-/
inductive Piece where
  | char (c : Char)
  | half (n : Nat)

/-- The piece that a code unit stands for. -/
def Piece.ofUnit (n : Nat) : Piece :=
  if 0xD800 ≤ n ∧ n < 0xE000 then .half n else .char (Char.ofNat n)

/-- The character after a backslash, other than `u`. -/
def unescape? (c : Char) : Option Char :=
  if c = '"' ∨ c = '\\' ∨ c = '/' then some c
  else if c = 'b' then some '\x08'
  else if c = 'f' then some '\x0c'
  else if c = 'n' then some '\n'
  else if c = 'r' then some '\r'
  else if c = 't' then some '\t'
  else none

/-- The pieces up to the closing quote, and the text after it. -/
def scanPieces : List Char → Option (List Piece × List Char)
  | [] => none
  | '"' :: rest => some ([], rest)
  | '\\' :: 'u' :: a :: b :: c :: d :: rest =>
    match Text.readBase? 16 [a, b, c, d] with
    | some n => (scanPieces rest).map fun (pieces, rest) => (.ofUnit n :: pieces, rest)
    | none => none
  | '\\' :: c :: rest =>
    match unescape? c with
    | some c => (scanPieces rest).map fun (pieces, rest) => (.char c :: pieces, rest)
    | none => none
  | c :: rest =>
    if c.toNat < 0x20 ∨ c = '\\' then none
    else (scanPieces rest).map fun (pieces, rest) => (.char c :: pieces, rest)

/-- The characters of the pieces: a high half joins the low half after it, and a half that stands
alone is no text. -/
def joinPieces? : List Piece → Option (List Char)
  | [] => some []
  | .char c :: pieces => (joinPieces? pieces).map (c :: ·)
  | .half high :: .half low :: pieces =>
    if high < 0xDC00 ∧ 0xDC00 ≤ low then
      (joinPieces? pieces).map
        (Char.ofNat (0x10000 + (high - 0xD800) * 0x400 + (low - 0xDC00)) :: ·)
    else none
  | .half _ :: _ => none

/-- The text of a string after its opening quote, if it is text, and what follows it. -/
def scanString (cs : List Char) : Option (Option String × List Char) :=
  (scanPieces cs).map fun (pieces, rest) => ((joinPieces? pieces).map String.ofList, rest)

/-- The digits of the whole part: a zero alone, or digits that do not start with one. -/
def scanWhole : List Char → Option (List Char × List Char)
  | '0' :: rest => some (['0'], rest)
  | cs =>
    let (digits, rest) := Double.scanDigits cs
    if digits = [] then none else some (digits, rest)

/-- The digits after a point, if there is one; a point needs at least one digit. -/
def scanFraction : List Char → Option (Option (List Char) × List Char)
  | '.' :: cs =>
    let (digits, rest) := Double.scanDigits cs
    if digits = [] then none else some (some digits, rest)
  | cs => some (none, cs)

/-- The exponent after `e` or `E`, if there is one. -/
def scanPower (cs : List Char) : Option (Option Int × List Char) :=
  match cs with
  | 'e' :: rest => (Double.scanExponent rest).map fun (n, rest) => (some n, rest)
  | 'E' :: rest => (Double.scanExponent rest).map fun (n, rest) => (some n, rest)
  | _ => some (none, cs)

def wordLimit : Nat := 0x10000000000000000

/-- Appends digits to a number as long as it fits in 64 bits.  Gives the number and how many digits
are left over. -/
def appendDigits (n : Nat) : List Char → Nat × Nat
  | [] => (n, 0)
  | c :: cs =>
    let next := Nat.ofDigitChars 10 [c] n
    if next < wordLimit then appendDigits next cs else (n, cs.length + 1)

/-- The decimal of the digits before and after a point that fit in 64 bits.  Digits left over before
the point keep their places; those left over after it are dropped. -/
def leadingDecimal (whole fraction : List Char) (power : Int) : Decimal :=
  let (n, places) := appendDigits 0 whole
  let (n, dropped) := appendDigits n fraction
  ⟨n, power + places - (fraction.length - dropped : Nat)⟩

/-- The double that the digits of a number and its exponent spell. -/
def numberDatum (negative : Bool) (whole fraction : List Char) (power : Int) : Datum :=
  .number (Double.ofScaled negative (leadingDecimal whole fraction power))

/-- The datum of a number with neither point nor exponent. -/
def wholeDatum (negative : Bool) (whole : List Char) : Datum :=
  let n := Nat.ofDigitChars 10 whole 0
  if negative then
    if n ≠ 0 ∧ n ≤ 0x8000000000000000 then .whole (-n) else numberDatum true whole [] 0
  else if n < wordLimit then .whole n
  else numberDatum false whole [] 0

/-- An unsigned number; `negative` tells whether a sign stood before it. -/
def scanNumber (negative : Bool) (cs : List Char) : Option (Datum × List Char) := do
  let (whole, rest) ← scanWhole cs
  let (fraction, rest) ← scanFraction rest
  let (power, rest) ← scanPower rest
  match fraction, power with
  | none, none => return (wholeDatum negative whole, rest)
  | _, _ => return (numberDatum negative whole (fraction.getD []) (power.getD 0), rest)

def afterWord (word cs : List Char) : Option (List Char) :=
  if word.isPrefixOf cs then some (cs.drop word.length) else none

def scanPlain : List Char → Option (Datum × List Char)
  | '"' :: rest =>
    (scanString rest).map fun (text?, rest) =>
      (match text? with
        | some s => .text s
        | none => .unreadable, rest)
  | 'n' :: rest => (afterWord ['u', 'l', 'l'] rest).map fun rest => (.absent, rest)
  | 't' :: rest => (afterWord ['r', 'u', 'e'] rest).map fun rest => (.flag true, rest)
  | 'f' :: rest => (afterWord ['a', 'l', 's', 'e'] rest).map fun rest => (.flag false, rest)
  | '-' :: rest => scanNumber true rest
  | cs => scanNumber false cs

/-- A record whose names were read; without them it is unreadable as a whole. -/
def recordOf (members : Option (List (String × Datum))) : Datum :=
  match members with
  | some members => .record members
  | none => .unreadable

mutual

/-- A value after leading blanks.  The first argument bounds the steps; the number of characters
left is enough, since each step takes one. -/
def scanValue : Nat → List Char → Option (Datum × List Char)
  | 0, _ => none
  | steps + 1, cs =>
    match skipSpace cs with
    | '[' :: rest =>
      match skipSpace rest with
      | ']' :: rest => some (.list [], rest)
      | rest => (scanItems steps rest).map fun (items, rest) => (.list items, rest)
    | '\x7b' :: rest =>
      match skipSpace rest with
      | '\x7d' :: rest => some (.record [], rest)
      | rest => (scanMembers steps rest).map fun (members, rest) => (recordOf members, rest)
    | cs => scanPlain cs

/-- One or more items and the closing bracket. -/
def scanItems : Nat → List Char → Option (List Datum × List Char)
  | 0, _ => none
  | steps + 1, cs => do
    let (item, rest) ← scanValue steps cs
    match skipSpace rest with
    | ',' :: rest => (scanItems steps rest).map fun (items, rest) => (item :: items, rest)
    | ']' :: rest => some ([item], rest)
    | _ => none

/-- One or more members and the closing brace; no members if some name is not text. -/
def scanMembers : Nat → List Char → Option (Option (List (String × Datum)) × List Char)
  | 0, _ => none
  | steps + 1, cs =>
    match skipSpace cs with
    | '"' :: rest => do
      let (name, rest) ← scanString rest
      match skipSpace rest with
      | ':' :: rest => do
        let (value, rest) ← scanValue steps rest
        let first := name.map fun name => (name, value)
        match skipSpace rest with
        | ',' :: rest =>
          (scanMembers steps rest).map fun (members, rest) =>
            (match first, members with
              | some m, some ms => some (m :: ms)
              | _, _ => none, rest)
        | '\x7d' :: rest => some (first.map fun m => [m], rest)
        | _ => none
      | _ => none
    | _ => none

end

/-- The datum that a text spells, if it spells exactly one. -/
def read? (s : String) : Option Datum :=
  match scanValue (s.toList.length + 1) s.toList with
  | some (d, rest) => if skipSpace rest = [] then some d else none
  | none => none

/-- Reads a value from a text that spells it and nothing else. -/
def readAs {α : Type} (decode : Datum → Decoded α) (text : String) : Decoded α :=
  match read? text with
  | some d => decode d
  | none => .error .shape

end InventoryTokens.Json
