import InventoryTokens.Double.Reader
import InventoryTokens.Log
import InventoryTokens.Log.Pattern.Support

/-!
# Log filters

A filter lists directives between commas.  A directive is a level for every event, a target at every
level, or `target[span{field}]=level`, where each part may be missing.  Of the directives that cover
an event the most specific decides whether it is shown.
-/

namespace InventoryTokens

/-- Why a filter could not be read: a directive is not well formed, or one of its parts would begin
or end within a character. -/
inductive FilterError where
  | malformed
  | brokenCharacter
  deriving DecidableEq, Repr

/-- A field that a directive asks for, with a pattern for its value if there is one. -/
structure FieldMatch where
  name : String
  value : Option String
  deriving DecidableEq, Repr

namespace FieldMatch

/-- Whether a value is a number, or else a usable pattern. -/
def isValue (cs : List Char) : Bool :=
  (Double.read? cs).isSome || Pattern.isUsable cs

/-- Reads `name` or `name=value`; what follows a second equals sign is dropped. -/
def parse (cs : List Char) : Except FilterError FieldMatch :=
  if cs = [] then .error .malformed
  else
    match Text.cut '=' cs with
    | (name, []) => .ok ⟨String.ofList name, none⟩
    | (name, value :: _) =>
      if isValue value then .ok ⟨String.ofList name, some (String.ofList value)⟩
      else .error .malformed

end FieldMatch

/-- One part of a filter: the highest rank shown, for events in a span, with a field, and with a
target that starts with a text.  A part that is missing asks for nothing. -/
structure Directive where
  target : Option String := none
  span : Option String := none
  field : Option FieldMatch := none
  rank : Nat := Level.trace.rank
  deriving DecidableEq, Repr

namespace Directive

/-- The rank that a number or a name stands for: a number up to five, with or without a plus sign,
or a level or `off` in letters of either case. -/
def rank? (cs : List Char) : Option Nat :=
  let digits := if cs.head? = some '+' then cs.drop 1 else cs
  if digits ≠ [] ∧ digits.all Char.isDigit then
    some (Nat.ofDigitChars 10 digits 0) |>.filter (· ≤ Level.trace.rank)
  else
    match cs.map Text.asciiLower with
    | ['o', 'f', 'f'] => some 0
    | ['e', 'r', 'r', 'o', 'r'] => some 1
    | ['w', 'a', 'r', 'n'] => some 2
    | ['i', 'n', 'f', 'o'] => some 3
    | ['d', 'e', 'b', 'u', 'g'] => some 4
    | ['t', 'r', 'a', 'c', 'e'] => some 5
    | _ => none

/-- A character that a target may start with. -/
def isTargetStart (c : Char) : Bool :=
  c = '_' || c = '-' || c = ':' || Text.isLetterOrNumber c

/-- A text less its first bytes. -/
def dropBytes (count : Nat) : List Char → Except FilterError (List Char)
  | [] => if count = 0 then .ok [] else .error .brokenCharacter
  | c :: cs =>
    if count = 0 then .ok (c :: cs)
    else if count < c.utf8Size then .error .brokenCharacter
    else dropBytes (count - c.utf8Size) cs

/-- The first bytes of a text. -/
def takeBytes (count : Nat) : List Char → Except FilterError (List Char)
  | [] => if count = 0 then .ok [] else .error .brokenCharacter
  | c :: cs =>
    if count = 0 then .ok []
    else if count < c.utf8Size then .error .brokenCharacter
    else (takeBytes (count - c.utf8Size) cs).map (c :: ·)

/-- The text between two positions in bytes, which must be those of characters. -/
def slice (cs : List Char) (start stop : Nat) : Except FilterError (List Char) :=
  (dropBytes start cs).bind (takeBytes (stop - start))

/-- How far the reading of a directive has come.  A number is the position in bytes at which the
part that is being read starts. -/
inductive Stage where
  | start
  | target
  | span (start : Nat)
  | field (start : Nat)
  | afterField
  | afterSpan
  | level (start : Nat)
  deriving DecidableEq, Repr

/-- Reads one character of a directive at a position.  Parts are taken from `piece`. -/
def step (piece : List Char) (position : Nat) (c : Char) (d : Directive) :
    Stage → Except FilterError (Stage × Directive)
  | .start =>
    if c = '[' then .ok (.span (position + 1), d)
    else if isTargetStart c then .ok (.target, d)
    else .error .malformed
  | .target =>
    let ended := (slice piece 0 position).map fun target =>
      { d with target := some (String.ofList target) }
    if c = '=' then ended.map fun d => (.level (position + 1), d)
    else if c = '[' then ended.map fun d => (.span (position + 1), d)
    else .ok (.target, d)
  | .span start =>
    if c = ']' then
      (slice piece start position).map fun span =>
        (.afterSpan, { d with span := some (String.ofList span) })
    else if c = '\x7b' then
      (slice piece start position).map fun span =>
        let named := if span = [] then none else some (String.ofList span)
        (.field (position + 1), { d with span := named })
    else .ok (.span start, d)
  | .field start =>
    if c = '\x7d' then
      ((slice piece start position).bind FieldMatch.parse).map fun field =>
        (.afterField, { d with field := some field })
    else .ok (.field start, d)
  | .afterField => if c = ']' then .ok (.afterSpan, d) else .error .malformed
  | .afterSpan => if c = '=' then .ok (.level (position + 1), d) else .error .malformed
  | .level start => .ok (.level start, d)

/-- Reads the characters of a directive from a position on. -/
def scan (piece : List Char) (position : Nat) (stage : Stage) (d : Directive) :
    List Char → Except FilterError (Stage × Directive)
  | [] => .ok (stage, d)
  | c :: cs =>
    match step piece position c d stage with
    | .ok (stage, d) => scan piece (position + c.utf8Size) stage d cs
    | .error cause => .error cause

/-- The directive at the end of a piece.  A piece that is one word is a level, or else a target. -/
def finish (piece : List Char) (d : Directive) : Stage → Except FilterError Directive
  | .target =>
    match rank? piece with
    | some rank => .ok { d with rank }
    | none => .ok { d with target := some (String.ofList piece) }
  | .level start =>
    match dropBytes start piece with
    | .error cause => .error cause
    | .ok [] => .ok d
    | .ok level =>
      match rank? level with
      | some rank => .ok { d with rank }
      | none => .error .malformed
  | .afterSpan => .ok d
  | _ => .error .malformed

/-- Reads one directive.  Blanks at both ends are not looked at, but the parts are taken from the
piece with its blanks, so blanks in front shift every part and blanks at the end belong to the last.
-/
def parse (piece : List Char) : Except FilterError Directive :=
  match scan piece 0 .start {} (Text.trim piece) with
  | .ok (stage, d) => finish piece d stage
  | .error cause => .error cause

/-- Whether the target of an event starts with what a directive asks for. -/
def coversTarget (d : Directive) (e : Event) : Bool :=
  match d.target with
  | none => true
  | some start => start.toList.isPrefixOf e.target.toList

/-- Whether an event has the field that a directive asks for.  Values are those of spans. -/
def coversField (d : Directive) (e : Event) : Bool :=
  match d.field with
  | none => true
  | some field => field.value.isNone && e.fieldNames.contains field.name

/-- Whether a directive speaks about an event.  No event is in a span. -/
def covers (d : Directive) (e : Event) : Bool :=
  d.span.isNone && d.coversTarget e && d.coversField e

/-- The bytes of the target and one more, or nothing without a target. -/
def reach (d : Directive) : Nat :=
  match d.target with
  | none => 0
  | some start => start.utf8ByteSize + 1

/-- The name of the field, or no text without a field. -/
def fieldName (d : Directive) : String :=
  (d.field.map (·.name)).getD ""

/-- Whether one of two directives that cover an event gives way to the other, which comes later: to
a longer target, and for the same target to a field whose name is not smaller. -/
def yieldsTo (d later : Directive) : Bool :=
  d.reach < later.reach || (d.reach = later.reach && !(later.fieldName < d.fieldName))

end Directive

abbrev Filter := List Directive

namespace Filter

/-- The pieces that a text has between commas, other than empty ones. -/
def pieces (s : String) : List (List Char) :=
  let (first, rest) := Text.cut ',' s.toList
  (first :: rest).filter (· ≠ [])

/-- The directives of pieces that are all well formed. -/
def readAll : List (List Char) → Except FilterError Filter
  | [] => .ok []
  | piece :: rest =>
    match Directive.parse piece with
    | .ok d => (readAll rest).map (d :: ·)
    | .error cause => .error cause

/-- The directives of those pieces that are well formed.  A broken character is not passed over. -/
def readKnown : List (List Char) → Except FilterError Filter
  | [] => .ok []
  | piece :: rest =>
    match Directive.parse piece with
    | .ok d => (readKnown rest).map (d :: ·)
    | .error .malformed => readKnown rest
    | .error .brokenCharacter => .error .brokenCharacter

/-- The filter that a text spells; the first directive that cannot be read decides why it is
none. -/
def parse (s : String) : Except FilterError Filter :=
  readAll (pieces s)

/-- The filter of the well-formed directives in a text. -/
def parseLenient (s : String) : Except FilterError Filter :=
  readKnown (pieces s)

/-- The more specific of two directives, either of which may be missing. -/
def prefer (best : Option Directive) (d : Directive) : Option Directive :=
  match best with
  | none => some d
  | some b => if b.yieldsTo d then some d else some b

/-- The directive that decides about an event. -/
def deciding? (filter : Filter) (e : Event) : Option Directive :=
  (filter.filter (·.covers e)).foldl prefer none

/-- Whether an event is shown: the most specific directive that covers it decides, and no directive
shows nothing. -/
def admits (filter : Filter) (e : Event) : Bool :=
  match filter.deciding? e with
  | none => false
  | some d => e.level.rank ≤ d.rank

end Filter

end InventoryTokens
