import InventoryTokens.File.Program
import InventoryTokens.Fixture

/-!
# Loading fixtures

A fixture is kept in a file.  That it was loaded is logged with the number of its players; a file
that cannot be read, or holds no fixture, is reported with its path.
-/

namespace InventoryTokens

inductive LoadError where
  | unreadable (path : String) (cause : File.FileError)
  | malformed (path : String) (cause : TextError)
  deriving DecidableEq, Repr

namespace LoadError

/-- What is said about the error, from the outermost context to the cause. -/
def chain : LoadError → List String
  | .unreadable path cause => ["failed to read inventory fixture " ++ path, cause.message]
  | .malformed path cause => ("in " ++ path) :: cause.chain

end LoadError

namespace Fixture

def logTarget : String := "playerinv_testkit::fixture"

/-- Reads a fixture from what was found at a path. -/
def ofFile (path : String) (content : Except File.FileError ByteArray) :
    Logged (Except LoadError Fixture) := do
  match File.asText content with
  | .error cause => return .error (.unreadable path cause)
  | .ok text =>
    match Fixture.ofToml text with
    | .error cause => return .error (.malformed path cause)
    | .ok fixture =>
      Logged.log .debug logTarget "loaded inventory fixture"
        [("path", path), ("players", Text.natText fixture.players.length)]
      return .ok fixture

def load (fs : File.FileSystem) (path : String) : Logged (Except LoadError Fixture) :=
  ofFile path (fs.read path)

end Fixture

end InventoryTokens
