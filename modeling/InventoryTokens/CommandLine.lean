import InventoryTokens.Settings

/-!
# Command lines

Options are spelled `--name value` or `--name=value`, each at most once, and `--` ends them.  One
argument may stand alone: the token.  It is needed unless the command is to list placeholders or to
write its settings.  Arguments are taken in order, and the first that is wrong decides.
-/

namespace InventoryTokens

inductive Format where
  | text
  | json
  deriving DecidableEq, Repr

/-- What a command line asks for. -/
structure Options where
  token : Option String := none
  config : String := Settings.defaultPath
  fixture : Option String := none
  player : Option String := none
  format : Format := .text
  list : Bool := false
  initConfig : Bool := false
  deriving DecidableEq, Repr

/-- What to do: run with options, or only say what the command is. -/
inductive Request where
  | run (options : Options)
  | version
  | help
  deriving DecidableEq, Repr

namespace CommandLine

/-- An option that takes a value. -/
inductive Setting where
  | config
  | fixture
  | player
  | format
  deriving DecidableEq, Repr

/-- An option that takes none. -/
inductive Switch where
  | list
  | initConfig
  deriving DecidableEq, Repr

/-- The options and the token as far as they have been given. -/
structure Draft where
  token : Option String := none
  config : Option String := none
  fixture : Option String := none
  player : Option String := none
  format : Option Format := none
  list : Bool := false
  initConfig : Bool := false

/-- What one argument that starts with a dash means. -/
inductive Word where
  | setting (setting : Setting) (value : Option String)
  | switch (switch : Switch)
  | version
  | help
  | unknown

/-- The option with a name, without its dashes, and the value attached to it. -/
def longWord (name : String) (value : Option String) : Word :=
  match name, value with
  | "config", value => .setting .config value
  | "fixture", value => .setting .fixture value
  | "player", value => .setting .player value
  | "format", value => .setting .format value
  | "list", none => .switch .list
  | "init-config", none => .switch .initConfig
  | "version", none => .version
  | "help", none => .help
  | _, _ => .unknown

/-- What an argument means that starts with a dash and is neither one nor two dashes alone. -/
def word (cs : List Char) : Word :=
  match cs with
  | '-' :: '-' :: body =>
    match Text.cutOnce '=' body with
    | some (name, value) => longWord (String.ofList name) (some (String.ofList value))
    | none => longWord (String.ofList body) none
  | '-' :: 'V' :: _ => .version
  | '-' :: 'h' :: _ => .help
  | _ => .unknown

/-- Whether an argument can be the value of the option before it, or the token. -/
def isPlain (argument : String) : Bool :=
  match argument.toList with
  | '-' :: _ :: _ => false
  | _ => true

def format? (name : String) : Option Format :=
  if name = "text" then some .text else if name = "json" then some .json else none

namespace Draft

/-- Gives an option its value, unless it has one or the value will not do.  A path is not empty. -/
def set? (draft : Draft) (setting : Setting) (value : String) : Option Draft :=
  match setting with
  | .config =>
    if draft.config.isSome ∨ value = "" then none else some { draft with config := some value }
  | .fixture =>
    if draft.fixture.isSome ∨ value = "" then none else some { draft with fixture := some value }
  | .player => if draft.player.isSome then none else some { draft with player := some value }
  | .format =>
    if draft.format.isSome then none
    else (format? value).map fun format => { draft with format := some format }

/-- Turns a switch on, unless it is on. -/
def turn? (draft : Draft) : Switch → Option Draft
  | .list => if draft.list then none else some { draft with list := true }
  | .initConfig => if draft.initConfig then none else some { draft with initConfig := true }

/-- Takes the token, unless there is one. -/
def take? (draft : Draft) (token : String) : Option Draft :=
  if draft.token.isSome then none else some { draft with token := some token }

/-- The options of a complete command line, if it has what it needs. -/
def finish? (draft : Draft) : Option Request :=
  if draft.token.isNone && !draft.list && !draft.initConfig then none
  else some (.run {
    token := draft.token
    config := draft.config.getD Settings.defaultPath
    fixture := draft.fixture
    player := draft.player
    format := draft.format.getD .text
    list := draft.list
    initConfig := draft.initConfig })

end Draft

/-- Takes the arguments after those that a draft was made from. -/
def continue? (draft : Draft) : List String → Option Request
  | [] => draft.finish?
  | "--" :: rest => (rest.foldlM Draft.take? draft).bind Draft.finish?
  | argument :: rest =>
    if isPlain argument then (draft.take? argument).bind fun draft => continue? draft rest
    else
      match word argument.toList with
      | .version => some .version
      | .help => some .help
      | .unknown => none
      | .switch switch => (draft.turn? switch).bind fun draft => continue? draft rest
      | .setting setting (some value) =>
        (draft.set? setting value).bind fun draft => continue? draft rest
      | .setting setting none =>
        match rest with
        | [] => none
        | value :: rest =>
          if isPlain value then (draft.set? setting value).bind fun draft => continue? draft rest
          else none

/-- What a command line asks for, if it is well formed. -/
def parse? (arguments : List String) : Option Request :=
  continue? {} arguments

end CommandLine

end InventoryTokens
