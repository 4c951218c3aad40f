import PlatformClasses.ClassFile.Generation
import PlatformClasses.Config.Basic
import PlatformClasses.Log.Progress

/-!
# Runs

A run reads all of its inputs, and then generates and writes the classes of every element for one
platform after the other.  It stops at the first failure; what has been written stays.

A run works on a session: the file tree, the progress and the events that are logged.
-/

namespace PlatformClasses

/-- Why a run stops. -/
inductive Failure where
  /-- Something is wrong with the model or the configuration. -/
  | fault (fault : Fault)
  /-- The file system refuses. -/
  | file (error : FileError)
deriving Repr, DecidableEq

namespace Failure

/-- The text of a failure. -/
def message : Failure → String
  | fault f => f.message
  | file e => e.message

end Failure

/-- What a run works on. -/
structure Session where
  tree : FileTree
  progress : Progress := .start
  /-- The events so far, in order. -/
  events : List LogEvent := []
deriving Repr

/-- The inputs of a run. -/
structure Discovery where
  /-- The source files, each once, in path order. -/
  files : List Path
  /-- The inputs that are neither directories nor source files. -/
  skipped : List Path
deriving Repr, DecidableEq

namespace Discovery

/-- The source files that an input stands for, if it is a directory or a source file. -/
def expand? (tree : FileTree) (input : Path) : Option (List Path) :=
  if tree.isDirectory input then some (tree.sourceFilesBelow input)
  else if input.isSourceFile then some [input]
  else none

/-- A list with a path added in its place, unless it is there. -/
def insertPath (p : Path) : List Path → List Path
  | [] => [p]
  | q :: rest =>
    match p.compare q with
    | .lt => p :: q :: rest
    | .eq => q :: rest
    | .gt => q :: insertPath p rest

/-- The paths in order, each once. -/
def ordered (paths : List Path) : List Path := paths.foldl (fun l p => insertPath p l) []

/-- The source files that inputs stand for. -/
def ofInputs (tree : FileTree) (inputs : List Path) : Discovery where
  files := ordered (inputs.flatMap fun p => (expand? tree p).getD [])
  skipped := inputs.filter fun p => (expand? tree p).isNone

end Discovery

namespace Session

/-- The session with events added. -/
def record (s : Session) (events : List LogEvent) : Session :=
  { s with events := s.events ++ events }

/-- The session after a step of its progress. -/
def step (s : Session) (change : Progress → Progress × List LogEvent) : Session :=
  let (progress, events) := change s.progress
  { s with progress := progress, events := s.events ++ events }

/-- The session after the source files of inputs have been looked for. -/
def discover (s : Session) (inputs : List Path) : Session × List Path :=
  let found := Discovery.ofInputs s.tree inputs
  (s.record (found.skipped.map LogEvent.skipping), found.files)

/-! ## Reading -/

/-- The elements of files, in the order of the files. -/
def elementsOf (reader : SourceReader) (tree : FileTree) :
    List Path → Except Fault (List ModelElement)
  | [] => .ok []
  | path :: rest =>
    match SourceFile.elements reader tree path with
    | .error e => .error e
    | .ok elements => (elementsOf reader tree rest).map (elements ++ ·)

/-- Reads the elements of all inputs. -/
def load (reader : SourceReader) (config : Config) (s : Session) :
    Session × Except Fault (List ModelElement) :=
  let (s, files) := s.discover config.inputs
  let s := (s.record [.loading files.length]).step (Progress.enter "load declarations")
  match elementsOf reader s.tree files with
  | .error e => (s.step (Progress.leave (some e.message)), .error e)
  | .ok elements =>
    ((s.step (Progress.leave none)).record [.loaded elements.length], .ok elements)

/-! ## Writing -/

/-- Writes files one after the other, up to the first that cannot be written; the directories of the
files are made where they are missing. -/
def writeFiles (tree : FileTree) : List GeneratedFile → FileTree × Except FileError (List Path)
  | [] => (tree, .ok [])
  | f :: rest =>
    match tree.store f.path.parent f.path.name f.content with
    | (tree, .error e) => (tree, .error e)
    | (tree, .ok path) =>
      let (tree, result) := writeFiles tree rest
      (tree, result.map (path :: ·))

/-- Generates the files of an element and, if that does not fail, writes them. -/
def generateFiles (t : Target) (e : ModelElement) (tree : FileTree) :
    FileTree × Except Failure (List Path) :=
  match generate t e with
  | .error fault => (tree, .error (.fault fault))
  | .ok files =>
    let (tree, result) := writeFiles tree files
    (tree, match result with
      | .ok paths => .ok paths
      | .error e => .error (.file e))

/-- Generates and writes the files of an element. -/
def generateElement (t : Target) (e : ModelElement) (s : Session) :
    Session × Except Failure (List Path) :=
  let s := s.step (Progress.enterDeclaration e.declaration.name)
  let (tree, result) := generateFiles t e s.tree
  let s := { s with tree := tree }
  match result with
  | .error failure => (s.step (Progress.leave (some failure.message)), .error failure)
  | .ok paths =>
    let s := s.step (Progress.leave none)
    ({ s with progress := s.progress.countFiles paths.length }, .ok paths)

/-- Generates and writes the files of elements, in order, up to the first failure. -/
def generateElements (t : Target) : List ModelElement → Session → Session × Except Failure (List Path)
  | [], s => (s, .ok [])
  | e :: rest, s =>
    match generateElement t e s with
    | (s, .error failure) => (s, .error failure)
    | (s, .ok paths) =>
      let (s, result) := generateElements t rest s
      (s, result.map (paths ++ ·))

/-- Generates and writes the files of elements for one platform after the other, up to the first
failure. -/
def generatePlatforms (config : Config) (settings : Settings) (elements : List ModelElement) :
    List String → Session → Session × Except Failure (List Path)
  | [], s => (s, .ok [])
  | platform :: rest, s =>
    match config.target settings elements platform with
    | .error fault => (s, .error (.fault fault))
    | .ok t =>
      match generateElements t elements (s.record [.generating elements.length t.platform.name]) with
      | (s, .error failure) => (s, .error failure)
      | (s, .ok paths) =>
        let (s, result) := generatePlatforms config settings elements rest s
        (s, result.map (paths ++ ·))

/-- A whole run for the given platforms, or for the configured one if there are none.  Gives the paths
of the written files in the order in which they were written. -/
def run (reader : SourceReader) (config : Config) (settings : Settings) (platforms : List String)
    (s : Session) : Session × Except Failure (List Path) :=
  match load reader config s with
  | (s, .error fault) => (s, .error (.fault fault))
  | (s, .ok elements) =>
    let platforms := if platforms.isEmpty then [config.platform] else platforms
    match generatePlatforms config settings elements platforms s with
    | (s, .error failure) => (s, .error failure)
    | (s, .ok paths) => (s.record [s.progress.summary, .memory], .ok paths)

end Session

end PlatformClasses
