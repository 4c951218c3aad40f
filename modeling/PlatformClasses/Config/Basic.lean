import PlatformClasses.Config.Collections
import PlatformClasses.Config.EnvFile
import PlatformClasses.Target

/-!
# Configurations

What a run is asked to do: which inputs it reads, where its output goes, for which platform, and under
which namespace.  A configuration comes from the environment, and the arguments of a command line take
the place of its parts.
-/

namespace PlatformClasses

/-- What a run is asked to do. -/
structure Config where
  inputs : List Path
  outputRoot : Path
  platform : String
  rootNamespace : String
  collections : Registry String
  verbose : Bool
  /-- The directory of log files, if logs are written to files. -/
  logDirectory : Option Path
deriving Repr

/-- What can be wrong with a configuration. -/
inductive ConfigError where
  /-- An entry of the registry of collections is not of the form. -/
  | badCollection (entry : String)
  /-- There are no inputs. -/
  | noInputs
  /-- An input does not exist. -/
  | missingInput (path : Path)
  /-- The root namespace is empty, or begins or ends with a dot. -/
  | badRoot (nameSpace : String)
  /-- The variables of a file cannot be had. -/
  | environmentFile (failure : EnvFile.LoadFailure)
deriving Repr, DecidableEq

namespace ConfigError

/-- The text of an error. -/
def message : ConfigError → String
  | badCollection entry => s!"Invalid collection type entry '{entry}', expected Name=ElementType"
  | noInputs => "No input paths given"
  | missingInput path => s!"Input path not found: {path.toString}"
  | badRoot nameSpace => s!"Invalid root namespace: '{nameSpace}'"
  | environmentFile (.encoding m) => ReadFailure.encodingMessage m
  | environmentFile (.refused refusal) => refusal.message

end ConfigError

namespace Config

/-- The file of variables that is read if no other is asked for. -/
def defaultEnvFile : Path := ⟨0, [".env"]⟩

/-- The variables that a configuration and its settings are taken from. -/
def variableNames : List String :=
  ["INPUT_PATHS", "OUTPUT_DIR", "TARGET_PLATFORM", "ROOT_NAMESPACE", "COLLECTION_TYPES", "VERBOSE"] ++
    Settings.keys.map Settings.variableFor

/-- The words that ask for verbose output. -/
def isVerbose (text : String) : Bool := ["true", "1", "yes"].contains (Text.lower text)

/-- The inputs in a list with colons between; blank entries are passed over. -/
def inputsOf (text : String) : List Path :=
  ((Text.pieces ':' text).filter fun p => !Text.isAllBlank p).map Path.ofString

/-- The configuration that an environment asks for. -/
def ofEnvironment (env : Environment) : Except ConfigError Config :=
  let settings := Settings.ofEnvironment env
  let get := fun (key default : String) => (env.get? key).getD default
  match Collections.parse (get "COLLECTION_TYPES" settings.collectionTypes) with
  | .error entry => .error (.badCollection entry)
  | .ok collections =>
    .ok
      { inputs := inputsOf (get "INPUT_PATHS" "")
        outputRoot := Path.ofString (get "OUTPUT_DIR" "src")
        platform := Text.lower (get "TARGET_PLATFORM" "wpf")
        rootNamespace := get "ROOT_NAMESPACE" settings.rootNamespace
        collections := collections
        verbose := isVerbose (get "VERBOSE" "false")
        logDirectory :=
          if settings.logsToFile then some (Path.ofString settings.logDirectory) else none }

/-- The environment with the variables of a file. -/
def environmentWith (reader : EnvReader) (tree : FileTree) (envFile : Path) (env : Environment) :
    Except ConfigError Environment :=
  match EnvFile.load reader tree envFile env with
  | .ok env => .ok env
  | .error failure => .error (.environmentFile failure)

/-- The parts of a configuration that arguments may give. -/
structure Overrides where
  /-- The inputs, if there are any. -/
  inputs : List Path := []
  outputRoot : Option Path := none
  platform : Option String := none
  verbose : Option Bool := none

/-- The configuration with the parts that arguments give. -/
def withOverrides (c : Config) (o : Overrides) : Config :=
  { c with
    inputs := if o.inputs.isEmpty then c.inputs else o.inputs
    outputRoot := o.outputRoot.getD c.outputRoot
    platform := (o.platform.map Text.lower).getD c.platform
    verbose := o.verbose.getD c.verbose }

/-- The first input that does not exist. -/
def missingInput? (tree : FileTree) (inputs : List Path) : Option Path :=
  inputs.find? fun p => !tree.contains p

/-- Whether a namespace can be the root. -/
def isRoot (nameSpace : String) : Bool :=
  nameSpace != "" && !Text.hasLead "." nameSpace && !Text.hasTrail "." nameSpace

/-- Checks that a run can do what the configuration asks for. -/
def validate (tree : FileTree) (c : Config) : Except ConfigError Unit :=
  if c.inputs.isEmpty then .error .noInputs
  else
    match missingInput? tree c.inputs with
    | some path => .error (.missingInput path)
    | none => if isRoot c.rootNamespace then .ok () else .error (.badRoot c.rootNamespace)

/-- The target of a run for a platform, or for the configured one if none is named. -/
def target (c : Config) (settings : Settings) (elements : List ModelElement) (platform : String) :
    Except Fault Target :=
  (Platform.ofName (if platform = "" then c.platform else platform)).map fun p =>
    { platform := p
      outputRoot := c.outputRoot
      rootNamespace := c.rootNamespace
      collections := c.collections
      known := Target.knownOf elements
      rootElement := settings.rootElement
      sharedProject := settings.sharedProject
      generatedDirectory := settings.generatedDirectory
      indentSize := settings.indentSize
      fileExtension := settings.fileExtension }

end Config

end PlatformClasses
