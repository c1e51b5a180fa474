import InventoryTokens.Command

/-!
# The program on a machine

Runs the command with the files, the environment and the standard streams of the machine.  What is
done with them is for the command to say.
-/

namespace InventoryTokens.Main

open File (FileError Path Program)

/-- The system's number for an error, which may come negated. -/
def number (code : UInt32) : UInt32 :=
  if code < 0x80000000 then code else 0 - code

/-- The error of a file operation that the system reports. -/
def fileError : IO.Error → FileError
  | .noFileOrDirectory _ _ _ => .notFound
  | .alreadyExists _ _ _ => .exists
  | .inappropriateType _ code _ => if number code = 20 then .notDirectory else .isDirectory
  | .invalidArgument _ code _ => if number code = 36 then .nameTooLong else .nulByte
  | .permissionDenied _ _ _ => .other "Permission denied (os error 13)"
  | e => .other (toString e)

def readFile (path : String) : IO (Except FileError ByteArray) := do
  try
    return .ok (← IO.FS.readBinFile path)
  catch e =>
    return .error (fileError e)

/-- Writes a file and makes the directories that it lies in. -/
def saveFile (path content : String) : IO (Except FileError Unit) := do
  try
    match Path.parent? (Path.parse path).components with
    | none | some [] => pure ()
    | some directory => IO.FS.createDirAll (Path.render directory)
    return .ok (← IO.FS.writeBinFile path content.toUTF8)
  catch e =>
    return .error (fileError e)

/-- Carries out a program over files. -/
def perform {α : Type} : Program α → IO α
  | .done value => return value
  | .read path next => do perform (next (← readFile path))
  | .save path content next => do perform (next (← saveFile path content))

/-- Runs the command and prints what it leaves behind. -/
def run (options : Options) : IO UInt32 := do
  let environment ← IO.getEnv "RUST_LOG"
  let outcome ← perform (Command.program options environment)
  IO.eprint outcome.stderr
  IO.print outcome.stdout
  return UInt32.ofNat outcome.exitCode

end InventoryTokens.Main

open InventoryTokens in
/-- Does what the arguments ask for; arguments that are wrong end with code 2. -/
def main (arguments : List String) : IO UInt32 := do
  match CommandLine.parse? arguments with
  | none =>
    IO.eprint ("error: the arguments are not understood\n\n" ++ Command.usageLine)
    return 2
  | some .version =>
    IO.print Command.versionLine
    return 0
  | some .help =>
    IO.print Command.helpText
    return 0
  | some (.run options) => Main.run options
