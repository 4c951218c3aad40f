import PlatformClasses.Registry
import PlatformClasses.Text.Case
import PlatformClasses.Text.Cut
import PlatformClasses.Text.Integer

/-!
# Settings

The settings that tune a generation.  Each has a default, and a variable of the environment that takes
its place: the name of the setting after `CODEGEN_`.  A number that cannot be read leaves the default.
-/

namespace PlatformClasses

/-- Variables with their values. -/
abbrev Environment := Registry String

/-- The settings of a generation. -/
structure Settings where
  rootNamespace : String := "Microsoft.StandardUI"
  rootElement : String := "IFrameworkElement"
  sharedProject : String := "StandardUI"
  generatedDirectory : String := "generated"
  indentSize : Int := 4
  fileExtension : String := ".cs"
  collectionTypes : String :=
    "UIElementCollection=UIElement,GradientStopCollection=GradientStop," ++
      "PathFigureCollection=PathFigure,PathSegmentCollection=PathSegment," ++
      "TransformCollection=Transform"
  logDirectory : String := "logs"
  /-- Whether a log is written to a file. -/
  logsToFile : Bool := true
deriving Repr, DecidableEq

namespace Settings

/-- The variable that a setting is taken from. -/
def variableFor (key : String) : String := "CODEGEN_" ++ key

/-- The settings by their names. -/
def keys : List String :=
  ["ROOT_NAMESPACE", "ROOT_ELEMENT_DECLARATION", "SHARED_PROJECT_DIRECTORY", "GENERATED_DIRECTORY",
   "INDENT_SIZE", "FILE_EXTENSION", "COLLECTION_TYPES", "LOG_DIR", "ENABLE_FILE_LOG"]

/-- The text of a setting. -/
def textOf (env : Environment) (key default : String) : String :=
  (env.get? (variableFor key)).getD default

/-- The number of a setting. -/
def numberOf (env : Environment) (key : String) (default : Int) : Int :=
  match env.get? (variableFor key) with
  | some text => (Text.toInt? text).getD default
  | none => default

/-- The words that switch a setting on; every other one switches it off. -/
def isOn (text : String) : Bool := ["true", "1", "yes", "on"].contains (Text.lower text)

/-- The switch of a setting. -/
def switchOf (env : Environment) (key : String) (default : Bool) : Bool :=
  match env.get? (variableFor key) with
  | some text => isOn text
  | none => default

/-- The settings without an environment. -/
def default : Settings := {}

/-- The settings in an environment. -/
def ofEnvironment (env : Environment) : Settings where
  rootNamespace := textOf env "ROOT_NAMESPACE" default.rootNamespace
  rootElement := textOf env "ROOT_ELEMENT_DECLARATION" default.rootElement
  sharedProject := textOf env "SHARED_PROJECT_DIRECTORY" default.sharedProject
  generatedDirectory := textOf env "GENERATED_DIRECTORY" default.generatedDirectory
  indentSize := numberOf env "INDENT_SIZE" default.indentSize
  fileExtension := textOf env "FILE_EXTENSION" default.fileExtension
  collectionTypes := textOf env "COLLECTION_TYPES" default.collectionTypes
  logDirectory := textOf env "LOG_DIR" default.logDirectory
  logsToFile := switchOf env "ENABLE_FILE_LOG" default.logsToFile

end Settings

end PlatformClasses
