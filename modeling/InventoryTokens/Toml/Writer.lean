import InventoryTokens.Datum
import InventoryTokens.Toml.Reader

/-!
# Writing TOML

A record is written as its plain members, one to a line, and then its tables and arrays of tables
under headers, depth first.  A blank line stands before each header but the first line of all.  Each
string takes the first of five quoting styles that can hold it.
-/

namespace InventoryTokens.Toml

open Text (intDigits)

def longestRun (c : Char) (cs : List Char) : Nat :=
  go 0 0 cs
where
  go (longest current : Nat) : List Char → Nat
    | [] => max longest current
    | d :: rest => if d = c then go longest (current + 1) rest else go (max longest current) 0 rest

/-- A control character that no literal string holds: all but the tab and the newline. -/
def isControl (c : Char) : Bool :=
  (c.toNat < 0x20 && c ≠ '\t' && c ≠ '\n') || c.toNat = 0x7F

def upperHexDigit (n : Nat) : Char :=
  (Text.hexDigit n).toUpper

inductive Style where
  | basic
  | literal
  | longBasic
  | longLiteral
  deriving DecidableEq, Repr

/-- The style of a string: basic if it needs no escape, literal if it holds no apostrophe, then the
forms over several lines, and with escapes if nothing else will do. -/
def Style.of (cs : List Char) : Style :=
  let control := cs.any isControl
  let backslash := cs.contains '\\'
  let newline := cs.contains '\n'
  let quotes := longestRun '"' cs
  let apostrophes := longestRun '\'' cs
  if !control && !backslash && quotes = 0 && !newline then .basic
  else if !control && apostrophes = 0 && !newline then .literal
  else if !control && !backslash && quotes ≤ 2 then .longBasic
  else if !control && apostrophes ≤ 2 then .longLiteral
  else if newline then .longBasic
  else .basic

/-- The escape of a character other than a quote or a newline, if it needs one. -/
def escape? (c : Char) : Option (List Char) :=
  if c = '\\' then some ['\\', '\\']
  else if c = '\x08' then some ['\\', 'b']
  else if c = '\t' then some ['\\', 't']
  else if c = '\x0c' then some ['\\', 'f']
  else if c = '\r' then some ['\\', 'r']
  else if c.toNat < 0x20 ∨ c.toNat = 0x7F then
    some ['\\', 'u', '0', '0', upperHexDigit (c.toNat / 16), upperHexDigit c.toNat]
  else none

/-- A character of a basic string within one line. -/
def basicChar (c : Char) : List Char :=
  if c = '"' then ['\\', '"']
  else if c = '\n' then ['\\', 'n']
  else (escape? c).getD [c]

/-- The body of a basic string over several lines: of quotes in a row every third is escaped. -/
def longBasicBody : Nat → List Char → List Char
  | _, [] => []
  | quotes, c :: rest =>
    if c = '"' then
      if quotes = 2 then '\\' :: '"' :: longBasicBody 0 rest
      else '"' :: longBasicBody (quotes + 1) rest
    else if c = '\n' then '\n' :: longBasicBody 0 rest
    else (escape? c).getD [c] ++ longBasicBody 0 rest

/-- The newline after the opening quotes of a string that holds one itself. -/
def leadingNewline (cs : List Char) : List Char :=
  if cs.contains '\n' then ['\n'] else []

def quote (s : String) : List Char :=
  let cs := s.toList
  match Style.of cs with
  | .basic => '"' :: (cs.flatMap basicChar ++ ['"'])
  | .literal => '\'' :: (cs ++ ['\''])
  | .longBasic =>
    ['"', '"', '"'] ++ leadingNewline cs ++ longBasicBody 0 cs ++ ['"', '"', '"']
  | .longLiteral => ['\'', '\'', '\''] ++ leadingNewline cs ++ cs ++ ['\'', '\'', '\'']

/-- A key: bare if its characters allow it, else a basic string. -/
def keyChars (key : String) : List Char :=
  let cs := key.toList
  if cs ≠ [] ∧ cs.all isBareChar then cs else '"' :: (cs.flatMap basicChar ++ ['"'])

def pathChars : List String → List Char
  | [] => []
  | [key] => keyChars key
  | key :: path => keyChars key ++ '.' :: pathChars path

/-- The text of a value that stands on one line.  An integer must fit in 64 signed bits. -/
def plainChars? : Datum → Option (List Char)
  | .flag true => some ['t', 'r', 'u', 'e']
  | .flag false => some ['f', 'a', 'l', 's', 'e']
  | .whole n => if Text.FitsInt64 n then some (intDigits n) else none
  | .text s => some (quote s)
  | _ => none

/-- The text of an array of plain values: on one line if it has at most one. -/
def arrayChars? (items : List Datum) : Option (List Char) :=
  match items with
  | [] => some ['[', ']']
  | [item] => (plainChars? item).map fun cs => '[' :: (cs ++ [']'])
  | items =>
    (items.mapM fun item => (plainChars? item).map fun cs =>
      [' ', ' ', ' ', ' '] ++ cs ++ [',', '\n']).map fun lines =>
        '[' :: '\n' :: (lines.flatten ++ [']'])

/-- The blank line before a header, unless nothing was written before it. -/
def headerGap (started : Bool) : List Char :=
  if started then ['\n'] else []

/-- Whether a datum is written under headers of its own. -/
def isTabular : Datum → Bool
  | .record _ => true
  | .list (.record _ :: _) => true
  | _ => false

/-- The line of one plain member; an absent one has none. -/
def memberLine? : String × Datum → Option (List Char)
  | (_, .absent) => some []
  | (key, .list items) =>
    if isTabular (.list items) then some []
    else (arrayChars? items).map fun cs => keyChars key ++ [' ', '=', ' '] ++ cs ++ ['\n']
  | (_, .record _) => some []
  | (key, d) => (plainChars? d).map fun cs => keyChars key ++ [' ', '=', ' '] ++ cs ++ ['\n']

/-- The lines of the plain members, in their order. -/
def plainLines? (members : List (String × Datum)) : Option (List Char) :=
  (members.mapM memberLine?).map List.flatten

mutual

/-- The lines under the headers that a member needs.  `started` tells whether a line was written
before them. -/
def tableLines? (path : List String) (started : Bool) : Datum → Option (List Char)
  | .record members => do
    let plain ← plainLines? members
    let nested ← nestedLines? path true members
    return headerGap started ++ '[' :: (pathChars path ++ [']', '\n']) ++ plain ++ nested
  | .list items => elementLines? path started items
  | _ => some []

/-- The lines of the elements of an array of tables. -/
def elementLines? (path : List String) (started : Bool) : List Datum → Option (List Char)
  | [] => some []
  | .record members :: items => do
    let plain ← plainLines? members
    let nested ← nestedLines? path true members
    let rest ← elementLines? path true items
    return headerGap started ++ '[' :: '[' :: (pathChars path ++ [']', ']', '\n']) ++ plain ++
      nested ++ rest
  | _ :: _ => none

/-- The lines of the members that need headers. -/
def nestedLines? (path : List String) (started : Bool) :
    List (String × Datum) → Option (List Char)
  | [] => some []
  | m :: members => do
    let first ← nestedLine? path started m
    let rest ← nestedLines? path (started || !first.isEmpty) members
    return first ++ rest

/-- The lines of one member, if it needs headers. -/
def nestedLine? (path : List String) (started : Bool) :
    String × Datum → Option (List Char)
  | (key, d) => if isTabular d then tableLines? (path ++ [key]) started d else some []

end

/-- The text of a record, unless it holds a value that has no written form. -/
def write? : Datum → Option String
  | .record members => do
    let plain ← plainLines? members
    let nested ← nestedLines? [] (!plain.isEmpty) members
    return String.ofList (plain ++ nested)
  | _ => none

end InventoryTokens.Toml
