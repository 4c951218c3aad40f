import PlatformClasses.FileTree
import PlatformClasses.Log.Event

/-!
# The journal

Where records go: to the console, from a level on, and to a file if one is asked for.  A journal is
opened once; opening it again changes nothing until it has been closed.

What is asked of a journal is a `Request`, and what comes of it a `Reply`.  A failure does not undo what
was done before it.  Whoever makes several requests and handles no failure comes to an end at the first
one (`handleAll`).
-/

namespace PlatformClasses

/-- A place that records go to. -/
inductive LogSink where
  /-- The console, for records of at least a level. -/
  | console (least : LogLevel)
  /-- A file, for all records. -/
  | file (path : Path)
deriving Repr, DecidableEq

/-- The least level of the records that a place takes. -/
def LogSink.least : LogSink → LogLevel
  | console level => level
  | file _ => .debug

/-- The moment at which something is logged, as file names and as records give it. -/
structure LogMoment where
  fileStamp : String
  recordTime : String
deriving Repr

/-- A record from some part of the program. -/
structure LogRecord where
  source : String
  level : LogLevel
  message : String
deriving Repr, DecidableEq

/-- Where records go. -/
structure Journal where
  sinks : List LogSink := []
  isOpen : Bool := false
  file : Option Path := none
deriving Repr, DecidableEq

namespace Journal

/-- The journal before it is opened, and after it is closed. -/
def closed : Journal := {}

/-- The part of the program that the journal's own records come from. -/
def ownSource : String := "standardui_codegen.infrastructure.logging.logger_setup"

/-- The name of the log file of a moment. -/
def fileName (now : LogMoment) : String := s!"standardui_codegen_{now.fileStamp}.log"

/-- A record as a line of a file. -/
def fileLine (now : LogMoment) (r : LogRecord) : String :=
  s!"{now.recordTime} - {r.source} - {r.level.name} - {r.message}\n"

/-- A tree with a text added at the end of a file, if that can be done. -/
def appendTo (path : Path) (text : String) (tree : FileTree) : FileTree :=
  match tree.placeOf path with
  | .error _ => tree
  | .ok place =>
    match tree.entryAt? place with
    | some (.file bytes) => tree.put place (.file (bytes ++ Text.Utf8.encode text.toList))
    | some .directory => tree
    | none => tree.put place (.file (Text.Utf8.encode text.toList))

/-- The console lines that a record gives, and the tree with the record in the log file. -/
def log (now : LogMoment) (r : LogRecord) (j : Journal) (tree : FileTree) :
    List String × FileTree :=
  j.sinks.foldl
    (fun (lines, tree) sink =>
      if sink.least.rank ≤ r.level.rank then
        match sink with
        | .console _ => (lines ++ [consoleLine r.level r.message], tree)
        | .file path => (lines, appendTo path (fileLine now r) tree)
      else (lines, tree))
    ([], tree)

/-- Records one after the other. -/
def logAll (now : LogMoment) (j : Journal) (tree : FileTree) : List LogRecord → List String × FileTree
  | [] => ([], tree)
  | r :: rest =>
    let (lines, tree) := j.log now r tree
    let (more, tree) := logAll now j tree rest
    (lines ++ more, tree)

/-- What the journal records when it is opened. -/
def openingRecords (file : Option Path) (verbose : Bool) : List LogRecord :=
  let own := fun message => ⟨ownSource, .debug, message⟩
  (match file with
    | some path => [own s!"Logging initialized. Log file: {path.toString}"]
    | none => []) ++
  [own ("Verbose mode: " ++ if verbose then "True" else "False")]

/-- The least level on the console. -/
def consoleLevel (verbose : Bool) : LogLevel := if verbose then .debug else .info

/-- The tree with a log file at a path; one that is there is kept and written on. -/
def prepareFile (path : Path) (tree : FileTree) : Except FileError FileTree := do
  let place ← tree.placeOf path
  match tree.entryAt? place with
  | some .directory => .error (.isDirectory path)
  | some (.file _) => .ok tree
  | none => .ok (tree.put place (.file []))

/-- What comes of a request: the journal and the tree after it, the lines on the console, and the failure
if the directory of a log file or the file itself could not be made. -/
structure Reply where
  journal : Journal
  tree : FileTree
  lines : List String
  failure : Option FileError

/-- Opens the journal with the console and, if a directory is given, a file in it.  The console is set
up first, so a failure leaves the journal with the console but not open.  The path of the log file is
noted before the file is made, and it stays until another one is noted or the journal is closed. -/
def openIn (now : LogMoment) (directory : Option Path) (verbose : Bool) (j : Journal)
    (tree : FileTree) : Reply :=
  if j.isOpen then ⟨j, tree, [], none⟩
  else
    let console := LogSink.console (consoleLevel verbose)
    let opened := fun (journal : Journal) (tree : FileTree) =>
      let (lines, tree) := journal.logAll now tree (openingRecords journal.file verbose)
      (⟨journal, tree, lines, none⟩ : Reply)
    match directory with
    | none => opened ⟨[console], true, j.file⟩ tree
    | some d =>
      match tree.makeDirectories d with
      | (tree, .error e) => ⟨⟨[console], false, j.file⟩, tree, [], some e⟩
      | (tree, .ok ()) =>
        let path := d.join (fileName now)
        match prepareFile path tree with
        | .error e => ⟨⟨[console], false, some path⟩, tree, [], some e⟩
        | .ok tree => opened ⟨[console, .file path], true, some path⟩ tree

/-! ## Requests -/

/-- What is asked of a journal. -/
inductive Request where
  /-- To be opened, with the console and, if a directory is given, a log file in it. -/
  | opening (directory : Option Path) (verbose : Bool)
  /-- To be closed. -/
  | closing
  /-- To take a record. -/
  | recording (r : LogRecord)
deriving Repr, DecidableEq

/-- What comes of a request that is made at some moment, with the files that there are then. -/
def handle (now : LogMoment) (j : Journal) (tree : FileTree) : Request → Reply
  | .opening directory verbose => j.openIn now directory verbose tree
  | .closing => ⟨.closed, tree, [], none⟩
  | .recording r =>
    let (lines, tree) := j.log now r tree
    ⟨j, tree, lines, none⟩

/-- Requests one after the other, by someone who handles no failure: all replies, or the first failure. -/
def handleAll (j : Journal) (tree : FileTree) :
    List (LogMoment × Request) → Except FileError (List Reply)
  | [] => .ok []
  | (now, request) :: rest =>
    let reply := j.handle now tree request
    match reply.failure with
    | some e => .error e
    | none => (handleAll reply.journal reply.tree rest).map (reply :: ·)

end Journal

end PlatformClasses
