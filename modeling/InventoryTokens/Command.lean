import InventoryTokens.CommandLine
import InventoryTokens.Fixture.Load
import InventoryTokens.Json.Writer
import InventoryTokens.Log.Filter
import InventoryTokens.Registry

/-!
# The command

Resolves one token against a fixture, or lists the placeholders, or writes the settings in effect.
The command is a program over files, so what it does on any file system is a value.  Nothing is
printed unless it succeeds.
-/

namespace InventoryTokens

inductive CommandError where
  | brokenFilter
  | tokenRequired
  | unwritable (path : String) (cause : File.FileError)
  | fixtureNotLoaded (cause : LoadError)
  | fixtureInvalid (path : String) (cause : FixtureError)
  | playerUnknown (name path : String)
  | unresolved (token : String) (cause : PlaceholderError)
  deriving DecidableEq, Repr

namespace CommandError

/-- What is said about the error, from the outermost context to the cause.  About a broken filter
nothing can be logged. -/
def chain : CommandError → List String
  | .brokenFilter => []
  | .tokenRequired => ["a placeholder token is required"]
  | .unwritable path cause => ["failed to write " ++ path, cause.message]
  | .fixtureNotLoaded cause => cause.chain
  | .fixtureInvalid path cause => ["invalid inventory fixture " ++ path, cause.message]
  | .playerUnknown name path => ["player " ++ name ++ " is not in " ++ path]
  | .unresolved token cause => ["failed to resolve " ++ token, cause.message]

end CommandError

/-- What the command leaves behind, files apart. -/
structure Outcome where
  result : Except CommandError String
  events : List Event

namespace Outcome

/-- The exit code: a broken filter ends the command before it does anything. -/
def exitCode (o : Outcome) : Nat :=
  match o.result with
  | .ok _ => 0
  | .error .brokenFilter => 101
  | .error _ => 1

def stdout (o : Outcome) : String :=
  match o.result with
  | .ok text => text
  | .error _ => ""

def errorChain (o : Outcome) : List String :=
  match o.result with
  | .ok _ => []
  | .error cause => cause.chain

def causeLines (causes : List String) : List String :=
  match causes with
  | [cause] => ["    " ++ cause]
  | causes => causes.mapIdx fun i cause => "    " ++ Text.natText i ++ ": " ++ cause

/-- What is printed on standard error: the events, and what is said about a failure with its causes
below it. -/
def stderr (o : Outcome) : String :=
  let failure :=
    match o.errorChain with
    | [] => []
    | [message] => ["Error: " ++ message]
    | message :: causes => ["Error: " ++ message, "", "Caused by:"] ++ causeLines causes
  String.join ((o.events.map Event.line ++ failure).map (· ++ "\n"))

end Outcome

namespace Command

def version : String := "0.1.0"

def versionLine : String := "playerinv " ++ version ++ "\n"

def usageLine : String := "Usage: playerinv [OPTIONS] [TOKEN]\n"

def helpText : String :=
  "Resolve $playerinv placeholders\n\n" ++ usageLine ++
  "\nArguments:\n" ++
  "  [TOKEN]  Placeholder token, e.g. `$playerinv:13`\n" ++
  "\nOptions:\n" ++
  "      --config <CONFIG>    Host configuration file [default: " ++ Settings.defaultPath ++
  "]\n" ++
  "      --fixture <FIXTURE>  Inventory fixture (overrides the configured one)\n" ++
  "      --player <PLAYER>    Invoking player's name; omit to resolve with no player\n" ++
  "      --format <FORMAT>    Output format [default: text] [possible values: text, json]\n" ++
  "      --list               List registered placeholders and their usage, then exit\n" ++
  "      --init-config        Write the effective configuration to `--config`, then exit\n" ++
  "  -h, --help               Print help\n" ++
  "  -V, --version            Print version\n"

/-- The target of the command's own log events. -/
def logTarget : String := "playerinv"

def render (result : Option Stack) (format : Format) : String :=
  match result, format with
  | none, _ => "null"
  | some stack, .text => stack.text
  | some stack, .json => Json.write stack.encode

/-- One line for each placeholder of a registry. -/
def listing (registry : Registry) : String :=
  String.join ((registry.names.filterMap fun name =>
    (registry.get? name).map fun placeholder => placeholder.schema.usage name ++ "\n"))

/-- The player to resolve for: none if no name is chosen. -/
def choosePlayer (host : Host) (path : String) : Option String → Except CommandError (Option Player)
  | none => .ok none
  | some name =>
    match host.playerNamed? name with
    | some player => .ok (some player)
    | none => .error (.playerUnknown name path)

/-- The player's name as shown in the log. -/
def playerShown (player : Option Player) : String :=
  match player with
  | some p => "Some(" ++ Text.shown p.name ++ ")"
  | none => "None"

/-- Resolves a token against a fixture and renders the answer on one line. -/
def resolve (token path : String) (fixture : Fixture) (chosen : Option String) (format : Format) :
    Logged (Except CommandError String) := do
  match fixture.build with
  | .error cause => return .error (.fixtureInvalid path cause)
  | .ok host =>
    match choosePlayer host path chosen with
    | .error cause => return .error cause
    | .ok player =>
      Logged.log .debug logTarget "resolving"
        [("token", Text.shown token), ("player", playerShown player)]
      match ← Registry.withDefaults.resolveToken token player host.provider with
      | .error cause => return .error (.unresolved token cause)
      | .ok result => return .ok (render result format ++ "\n")

/-- The events before anything is done: what was wrong with the settings, and a greeting. -/
def opening (problem : Option SettingsProblem) : List Event :=
  (problem.map fun p => ⟨.warn, "playerinv::config", p.message, []⟩).toList ++
    [⟨.info, logTarget, "Starting playerinv v" ++ version, []⟩]

def resolveProgram (options : Options) (settings : Settings) (before : List Event) :
    File.Program Outcome :=
  match options.token with
  | none => .done ⟨.error .tokenRequired, before⟩
  | some token =>
    let path := options.fixture.getD settings.inventoryFixture
    .read path fun content =>
      let answer : Logged (Except CommandError String) := do
        match ← Fixture.ofFile path content with
        | .error cause => return .error (.fixtureNotLoaded cause)
        | .ok fixture =>
          resolve token path fixture (options.player.or settings.defaultPlayer) options.format
      .done ⟨answer.value, before ++ answer.events⟩

def body (options : Options) (settings : Settings) (before : List Event) : File.Program Outcome :=
  if options.initConfig then
    .save options.config settings.toToml fun saved =>
      match saved with
      | .ok () =>
        .done ⟨.ok "", before ++ [⟨.info, logTarget, "wrote " ++ options.config, []⟩]⟩
      | .error cause => .done ⟨.error (.unwritable options.config cause), before⟩
  else if options.list then .done ⟨.ok (listing .withDefaults), before⟩
  else resolveProgram options settings before

/-- The filter of the log: the one of the environment, if it is given and well formed, else that of
the settings. -/
def logFilter (environment : Option String) (settings : Settings) : Except FilterError Filter :=
  match environment with
  | none => Filter.parseLenient settings.logFilter
  | some text =>
    match Filter.parse text with
    | .error .malformed => Filter.parseLenient settings.logFilter
    | result => result

/-- The outcome with only those events that a filter admits. -/
def filtered (filter : Filter) (o : Outcome) : Outcome :=
  { o with events := o.events.filter filter.admits }

/-- The command with options, under a filter that the environment may give. -/
def program (options : Options) (environment : Option String) : File.Program Outcome :=
  .read options.config fun content =>
    let (settings, problem) := Settings.ofFile options.config content
    match logFilter environment settings with
    | .ok filter => (body options settings (opening problem)).map (filtered filter)
    | .error _ => .done ⟨.error .brokenFilter, []⟩

/-- What the command leaves behind on a file system, and the file system after it. -/
def run (options : Options) (environment : Option String) (fs : File.FileSystem) :
    Outcome × File.FileSystem :=
  (program options environment).run fs

end Command

end InventoryTokens
