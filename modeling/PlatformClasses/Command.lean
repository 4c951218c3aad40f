import PlatformClasses.CommandLine
import PlatformClasses.Log.Journal
import PlatformClasses.Run

/-!
# The command

What the program does with its arguments: it works out the configuration, opens the journal, makes the
output directory and carries out a run.  The outcome is what is printed, the file tree, and an exit
code or a failure of the file system that the program does not handle.
-/

namespace PlatformClasses

/-- How a command ends once it has begun. -/
inductive Ending where
  /-- With an exit code and a text that is printed as an error. -/
  | exit (code : Nat) (errorText : String)
  /-- By a failure of the file system that it does not handle. -/
  | broken (error : FileError)
deriving Repr, DecidableEq

/-- What a command leaves. -/
structure Outcome where
  ending : Ending
  /-- The lines that are logged on the console. -/
  console : List String
  tree : FileTree
deriving Repr

/-- What reads texts for a command. -/
structure Readers where
  sources : SourceReader
  envFiles : EnvReader

/-- The readers that are built in. -/
def Readers.builtIn : Readers where
  sources := .builtIn
  envFiles := .builtIn

namespace Command

/-- The part of the program that the records of a run come from. -/
def source : String := "standardui_codegen"

/-- The records of events. -/
def recordsOf (f : Figures) (events : List LogEvent) : List LogRecord :=
  events.map fun e => ⟨source, e.level, e.message f⟩

/-- The configuration that a command line asks for, and the environment with the variables of the
default file. -/
def plan (reader : EnvReader) (args : Arguments) (env : Environment) (tree : FileTree) :
    Except ConfigError (Config × Environment) := do
  let env ← Config.environmentWith reader tree Config.defaultEnvFile env
  let config ← Config.ofEnvironment env
  return (config.withOverrides
    { inputs := args.inputs
      outputRoot := args.output
      platform := args.platform
      verbose := if args.verbose then some true else none }, env)

/-- The configuration of a command line, if it can be carried out, and the environment. -/
def configure (reader : EnvReader) (args : Arguments) (env : Environment) (tree : FileTree) :
    Except ConfigError (Config × Environment) := do
  let (config, env) ← plan reader args env tree
  config.validate tree
  return (config, env)

/-- The platforms that a command line asks for. -/
def platformsOf (args : Arguments) (config : Config) : List String :=
  if args.allPlatforms then Platform.names else [config.platform]

/-- What is logged and how the command ends after a run. -/
def endOf (config : Config) : Except Failure (List Path) → List LogEvent × Ending
  | .ok paths => ([.runSucceeded paths.length config.outputRoot], .exit 0 "")
  | .error (.fault fault) => ([.runFailed fault.message], .exit 1 (fault.message ++ "\n"))
  | .error (.file e) => ([], .broken e)

/-- Carries out the run of a configuration. -/
def perform (reader : SourceReader) (now : LogMoment) (figures : Figures) (args : Arguments)
    (config : Config) (env : Environment) (tree : FileTree) : Outcome :=
  let opening := Journal.closed.openIn now config.logDirectory config.verbose tree
  match opening.failure with
  | some e => ⟨.broken e, opening.lines, opening.tree⟩
  | none =>
    match opening.tree.makeDirectories config.outputRoot with
    | (tree, .error e) => ⟨.broken e, opening.lines, tree⟩
    | (tree, .ok ()) =>
      let (session, result) :=
        Session.run reader config (Settings.ofEnvironment env) (platformsOf args config)
          { tree := tree }
      let (last, ending) := endOf config result
      let records := recordsOf figures (session.events ++ last)
      let (lines, tree) := opening.journal.logAll now session.tree records
      ⟨ending, opening.lines ++ lines, tree⟩

/-- Carries out a command line in an environment, on a file tree, unless its arguments stop it. -/
def run (readers : Readers) (now : LogMoment) (figures : Figures) (argv : List String)
    (env : Environment) (tree : FileTree) : Except CommandLineStop Outcome :=
  (CommandLine.parse argv).map fun args =>
    match configure readers.envFiles args env tree with
    | .error e => ⟨.exit 1 s!"Configuration error: {e.message}\n", [], tree⟩
    | .ok (config, env) => perform readers.sources now figures args config env tree

end Command

end PlatformClasses
