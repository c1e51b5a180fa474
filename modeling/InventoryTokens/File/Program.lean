import InventoryTokens.File.System

/-!
# Programs that use files

A program reads and saves files in some order that may depend on what it finds, and ends with a
value.  It says what is done, not on what: it can be run on a file system given as a value.
-/

namespace InventoryTokens.File

inductive Program (α : Type) where
  | done (value : α)
  | read (path : String) (next : Except FileError ByteArray → Program α)
  | save (path content : String) (next : Except FileError Unit → Program α)

namespace Program

/-- The value of a program on a file system, and the file system after it. -/
def run {α : Type} : Program α → FileSystem → α × FileSystem
  | .done value, fs => (value, fs)
  | .read path next, fs => (next (fs.read path)).run fs
  | .save path content next, fs =>
    let (result, fs) := fs.save path content
    (next result).run fs

def map {α β : Type} (f : α → β) : Program α → Program β
  | .done value => .done (f value)
  | .read path next => .read path fun content => (next content).map f
  | .save path content next => .save path content fun saved => (next saved).map f

/-- Mapping the value changes nothing that is done to files. -/
theorem run_map {α β : Type} (f : α → β) (program : Program α) (fs : FileSystem) :
    (program.map f).run fs = (f (program.run fs).1, (program.run fs).2) := by
  induction program generalizing fs with
  | done value => rfl
  | read path next ih => exact ih _ _
  | save path content next ih => exact ih _ _

end Program

/-- The text that bytes encode, or why there is none. -/
def asText : Except FileError ByteArray → Except FileError String
  | .error cause => .error cause
  | .ok bytes =>
    match String.fromUTF8? bytes with
    | some s => .ok s
    | none => .error .notText

end InventoryTokens.File
