import InventoryTokens.Command
import InventoryTokens.Proofs.Settings

/-!
# Runs of the command

What a run needs to succeed, what it prints and which files it touches.  A run that writes its
settings leaves settings that are loaded as they were in effect; no other run changes a file.  A
settings file that cannot be used counts as none, but a log filter that breaks a character ends the
run before it does anything.
-/

namespace InventoryTokens

namespace CommandLine

variable {options : Options}

/-- The options of a command line are those of a draft that had what it needs. -/
theorem exists_finish? {draft : Draft} {arguments : List String}
    (h : continue? draft arguments = some (.run options)) :
    ∃ last : Draft, last.finish? = some (.run options) := by
  have hnext : ∀ {next : Option Draft} {rest : List String},
      (∀ draft, continue? draft rest = some (.run options) →
        ∃ last : Draft, last.finish? = some (.run options)) →
      next.bind (continue? · rest) = some (.run options) →
        ∃ last : Draft, last.finish? = some (.run options) := by
    intro next rest ih hrest
    obtain ⟨draft, -, hdraft⟩ := Option.bind_eq_some_iff.mp hrest
    exact ih draft hdraft
  fun_induction continue? draft arguments with
  | case1 draft => exact ⟨draft, h⟩
  | case2 draft rest =>
    obtain ⟨last, -, hlast⟩ := Option.bind_eq_some_iff.mp h
    exact ⟨last, hlast⟩
  | case3 draft argument rest _ _ ih => exact hnext ih h
  | case7 draft argument rest _ _ switch _ ih => exact hnext ih h
  | case8 draft argument rest _ _ setting value _ ih => exact hnext ih h
  | case10 draft argument _ _ setting _ value rest _ ih => exact hnext ih h
  | _ => cases h

/-- A command line that asks for an answer has a token. -/
theorem exists_token {arguments : List String} (h : parse? arguments = some (.run options))
    (hinit : options.initConfig = false) (hlist : options.list = false) :
    ∃ token, options.token = some token := by
  obtain ⟨last, hlast⟩ := exists_finish? h
  rw [Draft.finish?] at hlast
  split at hlast
  · cases hlast
  · rename_i hneeds
    obtain rfl := Request.run.inj (Option.some.inj hlast)
    cases htoken : last.token with
    | some token => exact ⟨token, rfl⟩
    | none =>
      have hnothing : (last.token.isNone && !last.list && !last.initConfig) = true := by
        rw [htoken, show last.list = false from hlist, show last.initConfig = false from hinit]
        rfl
      exact absurd hnothing hneeds

end CommandLine

namespace Outcome

variable {o : Outcome}

theorem exitCode_eq_zero : o.exitCode = 0 ↔ ∃ text, o.result = .ok text := by
  rw [exitCode]
  split <;> simp_all

/-- Nothing is printed unless the run succeeds. -/
theorem exitCode_of_stdout (h : o.stdout ≠ "") : o.exitCode = 0 := by
  cases hresult : o.result with
  | ok text => exact exitCode_eq_zero.mpr ⟨text, hresult⟩
  | error cause => simp [stdout, hresult] at h

end Outcome

namespace Command

open File (FileSystem Program)

variable {options : Options} {environment : Option String} {settings : Settings}
  {problem : Option SettingsProblem} {fs after : FileSystem} {before : List Event}

/-- The command once its settings have been read. -/
def proceed (options : Options) (environment : Option String) (settings : Settings)
    (problem : Option SettingsProblem) : Program Outcome :=
  match logFilter environment settings with
  | .ok filter => (body options settings (opening problem)).map (filtered filter)
  | .error _ => .done ⟨.error .brokenFilter, []⟩

theorem run_eq (options : Options) (environment : Option String) (fs : FileSystem) :
    run options environment fs =
      (proceed options environment (Settings.load fs options.config).1
        (Settings.load fs options.config).2).run fs :=
  rfl

theorem run_proceed {filter : Filter} (h : logFilter environment settings = .ok filter) :
    (proceed options environment settings problem).run fs =
      (filtered filter ((body options settings (opening problem)).run fs).1,
        ((body options settings (opening problem)).run fs).2) := by
  rw [proceed, h]
  exact Program.run_map ..

theorem run_proceed_broken {cause : FilterError}
    (h : logFilter environment settings = .error cause) :
    (proceed options environment settings problem).run fs =
      (⟨.error .brokenFilter, []⟩, fs) := by
  rw [proceed, h]
  rfl

/-- A run succeeds if its filter can be read and what it does under the filter succeeds. -/
theorem result_proceed {text : String} :
    ((proceed options environment settings problem).run fs).1.result = .ok text ↔
      (∃ filter, logFilter environment settings = .ok filter) ∧
        ((body options settings (opening problem)).run fs).1.result = .ok text := by
  cases hfilter : logFilter environment settings with
  | ok filter => simp [run_proceed hfilter, filtered]
  | error cause => simp [run_proceed_broken hfilter]

/-- What a run does to files has nothing to do with what it says. -/
theorem files_proceed {filter : Filter} (h : logFilter environment settings = .ok filter) :
    ((proceed options environment settings problem).run fs).2 =
      ((body options settings (opening problem)).run fs).2 := by
  rw [run_proceed h]

section Init

variable (hinit : options.initConfig = true)
include hinit

theorem body_init :
    (body options settings before).run fs =
      match settings.save fs options.config with
      | (.ok (), after) =>
        (⟨.ok "", before ++ [⟨.info, logTarget, "wrote " ++ options.config, []⟩]⟩, after)
      | (.error cause, after) => (⟨.error (.unwritable options.config cause), before⟩, after) := by
  rw [body, if_pos hinit, Program.run, Settings.save]
  cases fs.save options.config settings.toToml with
  | mk result after => cases result <;> rfl

/-- Writing the settings succeeds if saving them does. -/
theorem result_init {text : String} :
    ((body options settings before).run fs).1.result = .ok text ↔
      (settings.save fs options.config).1 = .ok () ∧ text = "" := by
  rw [body_init hinit]
  cases settings.save fs options.config with
  | mk result after => cases result <;> simp [eq_comm]

theorem files_init :
    ((body options settings before).run fs).2 = (settings.save fs options.config).2 := by
  rw [body_init hinit]
  cases settings.save fs options.config with
  | mk result after => cases result <;> rfl

end Init

/-- A run that writes no settings changes no file. -/
theorem files_body (hinit : options.initConfig = false) :
    ((body options settings before).run fs).2 = fs := by
  rw [body, if_neg (by simp [hinit])]
  cases options.list with
  | true => rfl
  | false =>
    simp only [Bool.false_eq_true, if_false, resolveProgram]
    cases options.token <;> rfl

theorem choosePlayer_eq_ok {host : Host} {path : String} {chosen : Option String}
    {player : Option Player} :
    choosePlayer host path chosen = .ok player ↔
      (∀ name, chosen = some name → (host.playerNamed? name).isSome = true) ∧
        chosen.bind host.playerNamed? = player := by
  cases chosen with
  | none => simp [choosePlayer]
  | some name =>
    rw [choosePlayer]
    cases hname : host.playerNamed? name <;> simp [hname]

theorem value_resolve_eq_ok {token path text : String} {fixture : Fixture}
    {chosen : Option String} {format : Format} :
    (resolve token path fixture chosen format).value = .ok text ↔
      ∃ host player result, fixture.build = .ok host ∧ choosePlayer host path chosen = .ok player ∧
        (Registry.withDefaults.resolveToken token player host.provider).value = .ok result ∧
        render result format ++ "\n" = text := by
  rw [resolve]
  cases hbuild : fixture.build with
  | error cause => simp
  | ok host =>
    cases hplayer : choosePlayer host path chosen with
    | error cause => simp [hplayer]
    | ok player =>
      cases hresult : (Registry.withDefaults.resolveToken token player host.provider).value with
      | error cause => simp [hplayer, hresult]
      | ok result => simp [hplayer, hresult]

/-- The answer to a token: the fixture loads and builds, the chosen name, if there is one, is that
of a player, and the token resolves for that player, or for none. -/
def Answers (options : Options) (settings : Settings) (fs : FileSystem) (token : String)
    (result : Option Stack) : Prop :=
  ∃ fixture host,
    (Fixture.load fs (options.fixture.getD settings.inventoryFixture)).value = .ok fixture ∧
      fixture.build = .ok host ∧
      (∀ name, options.player.or settings.defaultPlayer = some name →
        (host.playerNamed? name).isSome = true) ∧
      (Registry.withDefaults.resolveToken token
        ((options.player.or settings.defaultPlayer).bind host.playerNamed?) host.provider).value =
          .ok result

theorem result_resolveProgram {token : String} (htoken : options.token = some token) :
    ((resolveProgram options settings before).run fs).1.result =
      match (Fixture.load fs (options.fixture.getD settings.inventoryFixture)).value with
      | .error cause => .error (.fixtureNotLoaded cause)
      | .ok fixture =>
        (resolve token (options.fixture.getD settings.inventoryFixture) fixture
          (options.player.or settings.defaultPlayer) options.format).value := by
  rw [resolveProgram, htoken]
  simp only [Program.run, Logged.value_bind, Fixture.load]
  cases (Fixture.ofFile (options.fixture.getD settings.inventoryFixture)
    (fs.read (options.fixture.getD settings.inventoryFixture))).value <;> rfl

/-- What is printed is the answer. -/
theorem result_body (hinit : options.initConfig = false) (hlist : options.list = false)
    {text : String} :
    ((body options settings before).run fs).1.result = .ok text ↔
      ∃ token result, options.token = some token ∧ Answers options settings fs token result ∧
        render result options.format ++ "\n" = text := by
  rw [body, if_neg (by simp [hinit]), if_neg (by simp [hlist])]
  cases htoken : options.token with
  | none => simp [resolveProgram, htoken, Program.run]
  | some token =>
    rw [result_resolveProgram htoken]
    simp only [Answers]
    cases (Fixture.load fs (options.fixture.getD settings.inventoryFixture)).value with
    | error cause => simp
    | ok fixture =>
      simp only [value_resolve_eq_ok, choosePlayer_eq_ok]
      constructor
      · intro ⟨host, player, result, hbuild, ⟨hnamed, hplayer⟩, hresult, htext⟩
        rw [← hplayer] at hresult
        exact ⟨token, result, rfl, ⟨fixture, host, rfl, hbuild, hnamed, hresult⟩, htext⟩
      · intro ⟨_, result, htoken, ⟨loaded, host, hload, hbuild, hnamed, hresult⟩, htext⟩
        obtain rfl := Option.some.inj htoken
        obtain rfl := Except.ok.inj hload
        exact ⟨host, _, result, hbuild, ⟨hnamed, rfl⟩, hresult, htext⟩

/-- What was logged before has no part in the result. -/
theorem result_body_events (before later : List Event) :
    ((body options settings before).run fs).1.result =
      ((body options settings later).run fs).1.result := by
  rw [body, body]
  cases hinit : options.initConfig with
  | true =>
    simp only [if_true, Program.run]
    cases fs.save options.config settings.toToml with
    | mk saved after => cases saved <;> rfl
  | false =>
    simp only [Bool.false_eq_true, if_false]
    cases options.list with
    | true => rfl
    | false =>
      simp only [Bool.false_eq_true, if_false]
      cases htoken : options.token with
      | none => simp [resolveProgram, htoken, Program.run]
      | some token => rw [result_resolveProgram htoken, result_resolveProgram htoken]

theorem files_body_events (before later : List Event) :
    ((body options settings before).run fs).2 = ((body options settings later).run fs).2 := by
  cases hinit : options.initConfig with
  | true => rw [files_init hinit, files_init hinit]
  | false => rw [files_body hinit, files_body hinit]

/-- What was wrong with the settings file is logged and has no other effect. -/
theorem proceed_problem (options : Options) (environment : Option String) (settings : Settings)
    (problem other : Option SettingsProblem) (fs : FileSystem) :
    ((proceed options environment settings problem).run fs).1.result =
      ((proceed options environment settings other).run fs).1.result ∧
    ((proceed options environment settings problem).run fs).2 =
      ((proceed options environment settings other).run fs).2 := by
  cases hfilter : logFilter environment settings with
  | error cause =>
    rw [run_proceed_broken hfilter, run_proceed_broken hfilter]
    exact ⟨rfl, rfl⟩
  | ok filter =>
    rw [run_proceed hfilter, run_proceed hfilter]
    exact ⟨result_body_events _ _, files_body_events _ _⟩

/-- A run that does not write its settings changes no file. -/
theorem files_run (hinit : options.initConfig = false) : (run options environment fs).2 = fs := by
  rw [run_eq]
  cases hfilter : logFilter environment (Settings.load fs options.config).1 with
  | error cause => rw [run_proceed_broken hfilter]
  | ok filter => rw [files_proceed hfilter, files_body hinit]

/-- A run for a token prints the answer, if its filter can be read and there is one. -/
theorem result_run (hinit : options.initConfig = false) (hlist : options.list = false)
    {text : String} :
    (run options environment fs).1.result = .ok text ↔
      (∃ filter, logFilter environment (Settings.load fs options.config).1 = .ok filter) ∧
        ∃ token result, options.token = some token ∧
          Answers options (Settings.load fs options.config).1 fs token result ∧
          render result options.format ++ "\n" = text := by
  rw [run_eq, result_proceed, result_body hinit hlist]

/-- The filter of the default settings can be read, so only a text of the environment can break. -/
theorem logFilter_default {cause : FilterError} (h : logFilter environment {} = .error cause) :
    ∃ text, environment = some text ∧ Filter.parse text = .error .brokenCharacter := by
  have hdefault : Filter.parseLenient ({} : Settings).logFilter = .ok [{ rank := 2 }] := by
    decide +kernel
  cases environment with
  | none => rw [logFilter, hdefault] at h; cases h
  | some text =>
    refine ⟨text, rfl, ?_⟩
    cases hparse : Filter.parse text with
    | ok filter => simp [logFilter, hparse] at h
    | error cause =>
      cases cause with
      | malformed => simp [logFilter, hparse, hdefault] at h
      | brokenCharacter => rfl

/-- Settings that were saved are loaded.  So a run that writes its settings and succeeds leaves a
file from which those in effect are loaded, and a further such run changes no file. -/
theorem saved_settings_settle :
    (∀ (s : Settings) (fs after : FileSystem) (path : String),
      s.save fs path = (.ok (), after) → Settings.load after path = (s, none)) ∧
    ∀ (options : Options) (environment : Option String) (fs after : FileSystem),
      options.initConfig = true → (run options environment fs).1.exitCode = 0 →
        (run options environment fs).2 = after →
          Settings.load after options.config = ((Settings.load fs options.config).1, none) ∧
          ∀ (again : Options) (environment : Option String),
            again.initConfig = true → again.config = options.config →
              (run again environment after).2 = after := by
  refine ⟨fun s fs after path => Settings.load_of_save, ?_⟩
  intro options environment fs after hinit hexit hafter
  obtain ⟨text, hresult⟩ := Outcome.exitCode_eq_zero.mp hexit
  rw [run_eq, result_proceed, result_init hinit] at hresult
  obtain ⟨⟨filter, hfilter⟩, hsaved, -⟩ := hresult
  rw [run_eq, files_proceed hfilter, files_init hinit] at hafter
  have hsave : (Settings.load fs options.config).1.save fs options.config = (.ok (), after) :=
    Prod.ext hsaved hafter
  have hload := Settings.load_of_save hsave
  refine ⟨hload, ?_⟩
  -- The later run loads what the first has saved, so it saves the same text.
  intro again environment hagain hconfig
  rw [run_eq, hconfig, hload]
  cases hfilter : logFilter environment (Settings.load fs options.config).1 with
  | error cause => rw [run_proceed_broken hfilter]
  | ok filter =>
    have hagainsaved := FileSystem.save_of_save hsave
    rw [files_proceed hfilter, files_init hagain, hconfig]
    exact congrArg Prod.snd hagainsaved

/-- A working directory with one file that holds no settings. -/
def malformedTree : FileSystem :=
  ⟨.directory [("c.toml", .file "log_filter".toUTF8)], []⟩

theorem saved_over_malformed :
    Settings.load (Settings.save ⟨"\u3000", "a\"b'\n", some ""⟩ malformedTree "new/s.toml").2
        "new/s.toml" = (⟨"\u3000", "a\"b'\n", some ""⟩, none) ∧
      Settings.load (run { config := "c.toml", initConfig := true } none malformedTree).2 "c.toml" =
        ((Settings.load malformedTree "c.toml").1, none) ∧
      (run { config := "c.toml", initConfig := true } (some "debug")
        (run { config := "c.toml", initConfig := true } none malformedTree).2).2 =
          (run { config := "c.toml", initConfig := true } none malformedTree).2 := by
  have hsaved : (Settings.save ⟨"\u3000", "a\"b'\n", some ""⟩ malformedTree "new/s.toml").1 =
      .ok () := by decide +kernel
  have hexit :
      (run { config := "c.toml", initConfig := true } none malformedTree).1.exitCode = 0 := by
    decide +kernel
  obtain ⟨hload, hagain⟩ := saved_settings_settle.2 _ _ _ _ rfl hexit rfl
  exact ⟨saved_settings_settle.1 _ _ _ _ (Prod.ext hsaved rfl), hload, hagain _ _ rfl rfl⟩

/-- What a run does, for every command line that is understood: without the switch for it no file is
changed, what is printed is the output of a success, a token is answered exactly if the log filter
can be read and there is an answer, and settings that cannot be used are the defaults. -/
theorem run_answers {arguments : List String} {options : Options}
    (h : CommandLine.parse? arguments = some (.run options)) (environment : Option String)
    (fs : FileSystem) :
    (options.initConfig = false → (run options environment fs).2 = fs) ∧
    ((run options environment fs).1.stdout ≠ "" → (run options environment fs).1.exitCode = 0) ∧
    (options.initConfig = false → options.list = false →
      ∃ token, options.token = some token ∧
        ((run options environment fs).1.exitCode = 0 ↔
          (∃ filter, logFilter environment (Settings.load fs options.config).1 = .ok filter) ∧
            ∃ result, Answers options (Settings.load fs options.config).1 fs token result) ∧
        ∀ result, (run options environment fs).1.exitCode = 0 →
          Answers options (Settings.load fs options.config).1 fs token result →
            (run options environment fs).1.stdout = render result options.format ++ "\n") ∧
    ((∀ text, File.asText (fs.read options.config) = .ok text → Settings.ofToml? text = none) →
      (Settings.load fs options.config).1 = {} ∧
      (run options environment fs).1.result =
        ((proceed options environment {} none).run fs).1.result ∧
      (run options environment fs).2 = ((proceed options environment {} none).run fs).2 ∧
      ∀ cause, logFilter environment {} = .error cause →
        ∃ text, environment = some text ∧ Filter.parse text = .error .brokenCharacter) := by
  refine ⟨files_run, Outcome.exitCode_of_stdout, ?_, ?_⟩
  · intro hinit hlist
    obtain ⟨token, htoken⟩ := CommandLine.exists_token h hinit hlist
    refine ⟨token, htoken, ?_, ?_⟩
    · rw [Outcome.exitCode_eq_zero]
      simp only [result_run hinit hlist, htoken]
      constructor
      · intro ⟨_, hfilter, _, result, hsame, hanswer, _⟩
        obtain rfl := Option.some.inj hsame
        exact ⟨hfilter, result, hanswer⟩
      · intro ⟨hfilter, result, hanswer⟩
        exact ⟨_, hfilter, token, result, rfl, hanswer, rfl⟩
    · intro result hexit hanswer
      obtain ⟨text, htext⟩ := Outcome.exitCode_eq_zero.mp hexit
      have hfilter := ((result_run hinit hlist).mp htext).1
      have hresult := (result_run hinit hlist).mpr ⟨hfilter, token, result, htoken, hanswer, rfl⟩
      rw [Outcome.stdout, hresult]
  · intro hunusable
    have hsettings := Settings.load_of_unusable hunusable
    obtain ⟨hresult, hfiles⟩ := proceed_problem options environment {}
      (Settings.load fs options.config).2 none fs
    rw [run_eq, hsettings]
    exact ⟨rfl, hresult, hfiles, fun cause => logFilter_default⟩

/-- A fixture with one player and one stack, and no settings. -/
def stoneTree : FileSystem :=
  ⟨.directory [("f.toml", .file (
    "[[players]]\nid = 1\nname = \"Steve\"\n\n" ++
      "[[players.slots]]\nslot = 0\nitem = \"stone\"\n").toUTF8)], []⟩

def stoneOptions : Options :=
  { token := some "$playerinv:0", fixture := some "f.toml", player := some "steve" }

theorem run_answers_stone :
    CommandLine.parse? ["--fixture=f.toml", "--player", "steve", "$playerinv:0"] =
        some (.run stoneOptions) ∧
      (run stoneOptions none stoneTree).2 = stoneTree ∧
      (run stoneOptions none stoneTree).1.exitCode = 0 ∧
      (Settings.load stoneTree stoneOptions.config).1 = {} ∧
      (∃ result, Answers stoneOptions {} stoneTree "$playerinv:0" result ∧
        render result .text ++ "\n" = "1x minecraft:stone\n") := by
  have hparse : CommandLine.parse? ["--fixture=f.toml", "--player", "steve", "$playerinv:0"] =
      some (.run stoneOptions) := by decide +kernel
  have hprinted : (run stoneOptions none stoneTree).1.stdout = "1x minecraft:stone\n" := by
    decide +kernel
  have hmissing : stoneTree.read stoneOptions.config = .error .notFound := by decide +kernel
  obtain ⟨hfiles, hsuccess, hanswer, hdefault⟩ := run_answers hparse none stoneTree
  have hexit := hsuccess (by rw [hprinted]; decide)
  obtain ⟨hsettings, -⟩ := hdefault (by rw [hmissing]; intro text htext; cases htext)
  obtain ⟨token, htoken, hanswers, hrendered⟩ := hanswer rfl rfl
  obtain rfl := Option.some.inj htoken
  obtain ⟨-, result, hresult⟩ := hanswers.mp hexit
  have htext := hrendered result hexit hresult
  rw [hprinted] at htext
  rw [hsettings] at hresult
  exact ⟨hparse, hfiles rfl, hexit, hsettings, result, hresult, htext.symm⟩

/-- An empty fixture, and settings whose log filter starts with a wide blank. -/
def wideTree : FileSystem :=
  ⟨.directory [("config", .directory [
    ("playerinv.toml", .file "log_filter = \"\u3000ab=debug\"\n".toUTF8),
    ("inventories.toml", .file "".toUTF8)])], []⟩

/-- There is an answer for no player, but the filter ends the run. -/
theorem run_wideTree :
    CommandLine.parse? ["$playerinv:0"] = some (.run { token := some "$playerinv:0" }) ∧
      Answers { token := some "$playerinv:0" } (Settings.load wideTree Settings.defaultPath).1
        wideTree "$playerinv:0" none ∧
      (run { token := some "$playerinv:0" } none wideTree).1.exitCode = 101 := by
  have hsettings : (Settings.load wideTree Settings.defaultPath).1 =
      { logFilter := "\u3000ab=debug" } := by decide +kernel
  have hloaded : (Fixture.load wideTree "config/inventories.toml").value = .ok {players := []} := by
    decide +kernel
  refine ⟨by decide +kernel, ?_, by decide +kernel⟩
  rw [hsettings]
  refine ⟨_, .empty, hloaded, rfl, by simp, ?_⟩
  decide +kernel

end Command

end InventoryTokens
