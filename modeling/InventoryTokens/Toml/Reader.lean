import InventoryTokens.Toml.Quoted
import InventoryTokens.Toml.Scalar
import InventoryTokens.Toml.Table

/-!
# Reading TOML

A text is first scanned into statements, which are then carried out.  Keys and values are scanned by
functions that take the remaining characters and return the rest; the first argument of those that
call themselves bounds their steps, and the length of the text is always enough.
-/

namespace InventoryTokens.Toml

/-- Arrays and inline tables nest at most this deep, and a key has at most this many parts. -/
def depthLimit : Nat := 79

/-- The text after blanks within a line. -/
def skipGap (cs : List Char) : List Char :=
  cs.dropWhile isGap

/-- The text after a comment, up to the end of its line. -/
def skipComment : List Char → List Char
  | '#' :: cs => cs.dropWhile isPrintable
  | cs => cs

/-- The text after the rest of a line, on which only a comment may stand. -/
def endLine? (cs : List Char) : Option (List Char) :=
  match skipComment (skipGap cs) with
  | [] => some []
  | cs => afterNewline? cs

def isBareChar (c : Char) : Bool :=
  c.isAlphanum || c = '-' || c = '_'

def scanPart : List Char → Option (String × List Char)
  | '"' :: rest => (scanBasic rest).map fun (text, rest) => (String.ofList text, rest)
  | '\'' :: rest => (scanLiteral rest).map fun (text, rest) => (String.ofList text, rest)
  | cs =>
    let part := cs.takeWhile isBareChar
    if part = [] then none else some (String.ofList part, cs.dropWhile isBareChar)

/-- The parts of a key, between which stand points, with the last part apart. -/
def scanParts : Nat → List Char → Option ((List String × String) × List Char)
  | 0, _ => none
  | steps + 1, cs => do
    let (part, rest) ← scanPart (skipGap cs)
    match skipGap rest with
    | '.' :: rest =>
      (scanParts steps rest).map fun ((path, last), rest) => ((part :: path, last), rest)
    | rest => some (([], part), rest)

def scanKey (steps : Nat) (cs : List Char) : Option ((List String × String) × List Char) :=
  match scanParts steps cs with
  | some ((path, last), rest) =>
    if path.length + 1 ≤ depthLimit then some ((path, last), rest) else none
  | none => none

/-- The text after blanks, line ends and comments within an array. -/
def skipLoose : Nat → List Char → Option (List Char)
  | 0, _ => none
  | steps + 1, cs =>
    match skipGap cs with
    | '#' :: rest => (afterNewline? (rest.dropWhile isPrintable)).bind (skipLoose steps)
    | cs =>
      match afterNewline? cs with
      | some rest => skipLoose steps rest
      | none => some cs

mutual

/-- A value.  `depth` counts the arrays and inline tables around it. -/
def scanValue : Nat → Nat → List Char → Option (Datum × List Char)
  | 0, _, _ => none
  | steps + 1, depth, cs =>
    match cs with
    | '[' :: rest =>
      if depth < depthLimit then
        (scanItems steps (depth + 1) rest).map fun (items, rest) => (.list items, rest)
      else none
    | '\x7b' :: rest =>
      if depth < depthLimit then
        match skipGap rest with
        | '\x7d' :: rest => some (.record [], rest)
        | rest => do
          let (pairs, rest) ← scanPairs steps (depth + 1) rest
          let record ← inlineRecord? pairs
          return (record, rest)
      else none
    | '"' :: _ => (scanText cs).map fun (text, rest) => (.text (String.ofList text), rest)
    | '\'' :: _ => (scanText cs).map fun (text, rest) => (.text (String.ofList text), rest)
    | cs => scanScalar cs

/-- The items of an array up to its closing bracket; a comma may stand after the last. -/
def scanItems : Nat → Nat → List Char → Option (List Datum × List Char)
  | 0, _, _ => none
  | steps + 1, depth, cs => do
    match ← skipLoose (steps + 1) cs with
    | ']' :: rest => some ([], rest)
    | rest =>
      let (item, rest) ← scanValue steps depth rest
      match ← skipLoose (steps + 1) rest with
      | ',' :: rest => (scanItems steps depth rest).map fun (items, rest) => (item :: items, rest)
      | ']' :: rest => some ([item], rest)
      | _ => none

/-- The pairs of an inline table up to its closing brace. -/
def scanPairs : Nat → Nat → List Char →
    Option (List (List String × String × Datum) × List Char)
  | 0, _, _ => none
  | steps + 1, depth, cs => do
    let ((path, key), rest) ← scanKey (steps + 1) cs
    match rest with
    | '=' :: rest =>
      let (datum, rest) ← scanValue steps depth (skipGap rest)
      match skipGap rest with
      | ',' :: rest =>
        (scanPairs steps depth rest).map fun (pairs, rest) => ((path, key, datum) :: pairs, rest)
      | '\x7d' :: rest => some ([(path, key, datum)], rest)
      | _ => none
    | _ => none

end

/-- A header after its opening brackets, with the closing ones and the rest of its line. -/
def scanHeader (steps : Nat) (closing : List Char) (cs : List Char) :
    Option ((List String × String) × List Char) := do
  let (key, rest) ← scanKey steps cs
  if closing.isPrefixOf rest then
    let rest ← endLine? (rest.drop closing.length)
    return (key, rest)
  else none

def scanStatements : Nat → List Char → Option (List Statement)
  | 0, _ => none
  | steps + 1, cs =>
    match skipGap cs with
    | [] => some []
    | '[' :: '[' :: rest => do
      let ((path, key), rest) ← scanHeader (steps + 1) [']', ']'] rest
      (scanStatements steps rest).map (.element path key :: ·)
    | '[' :: rest => do
      let ((path, key), rest) ← scanHeader (steps + 1) [']'] rest
      (scanStatements steps rest).map (.table path key :: ·)
    | '#' :: rest => do
      let rest ← endLine? ('#' :: rest)
      scanStatements steps rest
    | cs =>
      match afterNewline? cs with
      | some rest => scanStatements steps rest
      | none => do
        let ((path, key), rest) ← scanKey (steps + 1) cs
        match rest with
        | '=' :: rest =>
          let (datum, rest) ← scanValue (steps + 1) 0 (skipGap rest)
          let rest ← endLine? rest
          (scanStatements steps rest).map (.assign path key datum :: ·)
        | _ => none

/-- The first words on any text that is no document of the wanted shape. -/
def errorHeading : String := "TOML parse error"

/-- The text without a byte order mark at its start. -/
def dropMark : List Char → List Char
  | '\uFEFF' :: cs => cs
  | cs => cs

/-- The record that a text spells. -/
def read? (s : String) : Option Datum :=
  let cs := dropMark s.toList
  ((scanStatements (cs.length + 1) cs).bind assemble?).map .record

end InventoryTokens.Toml
