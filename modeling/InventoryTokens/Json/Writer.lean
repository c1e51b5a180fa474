import InventoryTokens.Datum
import InventoryTokens.Double.Layout
import InventoryTokens.Text.Digit

/-!
# Writing JSON

The compact form: no blank between tokens, members in their order, and in a string an escape for the
quote, the backslash and the control characters below U+0020, for nothing else.
-/

namespace InventoryTokens.Json

open Text (intDigits hexDigit)

/-- A character as it stands in a string. -/
def escape (c : Char) : List Char :=
  if c = '"' then ['\\', '"']
  else if c = '\\' then ['\\', '\\']
  else if c = '\x08' then ['\\', 'b']
  else if c = '\t' then ['\\', 't']
  else if c = '\n' then ['\\', 'n']
  else if c = '\x0c' then ['\\', 'f']
  else if c = '\r' then ['\\', 'r']
  else if c.toNat < 0x20 then ['\\', 'u', '0', '0', hexDigit (c.toNat / 16), hexDigit c.toNat]
  else [c]

def quote (s : String) : List Char :=
  '"' :: (s.toList.flatMap escape ++ ['"'])

mutual

/-- The compact text of a datum.  A number that is not finite, and a value that nobody can read, is
written as `null`. -/
def chars : Datum → List Char
  | .absent => ['n', 'u', 'l', 'l']
  | .flag true => ['t', 'r', 'u', 'e']
  | .flag false => ['f', 'a', 'l', 's', 'e']
  | .whole n => intDigits n
  | .number x => (x.tagged?).getD ['n', 'u', 'l', 'l']
  | .text s => quote s
  | .list [] => ['[', ']']
  | .list (item :: items) => '[' :: (chars item ++ charsItems items)
  | .record [] => ['\x7b', '\x7d']
  | .record (m :: ms) => '\x7b' :: (charsMember m ++ charsMembers ms)
  | .unreadable => ['n', 'u', 'l', 'l']

/-- The items after the first and the closing bracket. -/
def charsItems : List Datum → List Char
  | [] => [']']
  | item :: items => ',' :: (chars item ++ charsItems items)

def charsMember : String × Datum → List Char
  | (name, value) => quote name ++ ':' :: chars value

/-- The members after the first and the closing brace. -/
def charsMembers : List (String × Datum) → List Char
  | [] => ['\x7d']
  | m :: ms => ',' :: (charsMember m ++ charsMembers ms)

end

def write (d : Datum) : String :=
  String.ofList (chars d)

end InventoryTokens.Json
