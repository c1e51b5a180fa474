import InventoryTokens.Decode
import InventoryTokens.File.Program
import InventoryTokens.Toml.Writer

/-!
# Settings

Settings are kept in a file.  A file that cannot be used is replaced by the defaults as a whole,
never in part, and what was wrong with it is reported, unless the default file is merely missing.
-/

namespace InventoryTokens

structure Settings where
  logFilter : String := "warn"
  inventoryFixture : String := "config/inventories.toml"
  defaultPlayer : Option String := none
  deriving DecidableEq, Repr

namespace Settings

/-- Where settings are looked for if no path is given. -/
def defaultPath : String := "config/playerinv.toml"

/-- Whether two settings are the same, the fixture's path compared by components. -/
def same (a b : Settings) : Bool :=
  a.logFilter = b.logFilter && File.Path.same a.inventoryFixture b.inventoryFixture &&
    a.defaultPlayer = b.defaultPlayer

def encode (s : Settings) : Datum :=
  .record [("log_filter", .text s.logFilter), ("inventory_fixture", .text s.inventoryFixture),
    ("default_player", Datum.ofOption .text s.defaultPlayer)]

/-- Reads settings; each has a default. -/
def decode (surplus : Surplus) (d : Datum) : Decoded Settings := do
  let fields ← d.fields surplus ["log_filter", "inventory_fixture", "default_player"]
  let defaults : Settings := {}
  let logFilter ← fields.withDefault "log_filter" defaults.logFilter Datum.asText
  let inventoryFixture ←
    fields.withDefault "inventory_fixture" defaults.inventoryFixture Datum.asText
  let defaultPlayer ← fields.optional "default_player" Datum.asText
  return { logFilter, inventoryFixture, defaultPlayer }

def ofToml? (s : String) : Option Settings :=
  match Toml.read? s with
  | some d => (decode .ignored d).toOption
  | none => none

def toToml (s : Settings) : String :=
  (Toml.write? s.encode).getD ""

end Settings

inductive SettingsProblem where
  | unparsable (path : String)
  | unreadable (path : String) (cause : File.FileError)
  deriving DecidableEq, Repr

namespace SettingsProblem

/-- What went wrong, with the path, and what is done about it. -/
def message (problem : SettingsProblem) : String :=
  let cause :=
    match problem with
    | .unparsable path => "Failed to parse " ++ path ++ ": " ++ Toml.errorHeading
    | .unreadable path cause => "Failed to read " ++ path ++ ": " ++ cause.message
  cause ++ ". Using defaults"

end SettingsProblem

namespace Settings

/-- The settings to use, given what was found at a path, and what was wrong with it. -/
def ofFile (path : String) (content : Except File.FileError ByteArray) :
    Settings × Option SettingsProblem :=
  match File.asText content with
  | .ok s =>
    match ofToml? s with
    | some settings => (settings, none)
    | none => ({}, some (.unparsable path))
  | .error cause =>
    if File.Path.same path defaultPath ∧ cause = .notFound then ({}, none)
    else ({}, some (.unreadable path cause))

def load (fs : File.FileSystem) (path : String) : Settings × Option SettingsProblem :=
  ofFile path (fs.read path)

def save (s : Settings) (fs : File.FileSystem) (path : String) :
    Except File.FileError Unit × File.FileSystem :=
  fs.save path s.toToml

end Settings

end InventoryTokens
