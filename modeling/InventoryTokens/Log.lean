/-!
# Log events

An event has a level, a target, a message and named fields.  Computations that log return their
events, in order, beside their value.
-/

namespace InventoryTokens

/-- How much an event matters, from most to least. -/
inductive Level where
  | error
  | warn
  | info
  | debug
  | trace
  deriving DecidableEq, Repr

namespace Level

/-- The rank of a level: the higher, the less it matters. -/
def rank : Level → Nat
  | .error => 1
  | .warn => 2
  | .info => 3
  | .debug => 4
  | .trace => 5

def label : Level → String
  | .error => "ERROR"
  | .warn => "WARN"
  | .info => "INFO"
  | .debug => "DEBUG"
  | .trace => "TRACE"

end Level

structure Event where
  level : Level
  target : String
  message : String
  fields : List (String × String) := []
  deriving DecidableEq, Repr

namespace Event

/-- A character of a message as it is shown: the controls that a terminal acts on are escaped. -/
def shownChar (c : Char) : List Char :=
  if c = '\x07' ∨ c = '\x08' ∨ c = '\x0c' ∨ c = '\x1b' ∨ c = '\x7f' then
    ['\\', 'x', Nat.digitChar (c.toNat / 16), Nat.digitChar (c.toNat % 16)]
  else if 0x80 ≤ c.toNat ∧ c.toNat < 0xA0 then
    '\\' :: 'u' :: '\x7b' :: (Nat.toDigits 16 c.toNat ++ ['\x7d'])
  else [c]

def shownMessage (e : Event) : String :=
  String.ofList (e.message.toList.flatMap shownChar)

/-- A field as it is shown after the message. -/
def shownField (field : String × String) : String :=
  " " ++ field.1 ++ "=" ++ field.2

def line (e : Event) : String :=
  e.level.label ++ " " ++ e.target ++ ": " ++ e.shownMessage ++
    String.join (e.fields.map shownField)

/-- The names of the fields; the message is one of them. -/
def fieldNames (e : Event) : List String :=
  "message" :: e.fields.map (·.1)

end Event

/-- A value with the events logged on the way to it. -/
structure Logged (α : Type) where
  value : α
  events : List Event := []
  deriving DecidableEq, Repr

namespace Logged

instance : Monad Logged where
  pure a := ⟨a, []⟩
  bind x f := ⟨(f x.value).value, x.events ++ (f x.value).events⟩

def log (level : Level) (target message : String) (fields : List (String × String)) :
    Logged Unit :=
  ⟨(), [⟨level, target, message, fields⟩]⟩

@[simp] theorem value_pure {α : Type} (a : α) : (pure a : Logged α).value = a := rfl

@[simp] theorem value_bind {α β : Type} (x : Logged α) (f : α → Logged β) :
    (x >>= f).value = (f x.value).value := rfl

@[simp] theorem events_pure {α : Type} (a : α) : (pure a : Logged α).events = [] := rfl

@[simp] theorem events_bind {α β : Type} (x : Logged α) (f : α → Logged β) :
    (x >>= f).events = x.events ++ (f x.value).events := rfl

end Logged

end InventoryTokens
