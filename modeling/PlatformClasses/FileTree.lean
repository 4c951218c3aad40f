import PlatformClasses.Path
import PlatformClasses.Text.Quoted
import PlatformClasses.Text.Utf8

/-!
# File trees

The part of a file system that a run reads and writes, as a value: an entry for every file and every
directory, at its place.  A path is followed step by step, from the root or from the working directory,
so that `..` leads out of the directory that was really reached, and each operation reports the same
failures as the file system does.

Places are absolute paths without `..`, so that there is one place for everything that paths lead to,
however they are written.  The working directory and the directories on the way to it have no entry.
-/

namespace PlatformClasses

/-- Failures of the file system. -/
inductive FileError where
  /-- A component of the path does not exist. -/
  | missing (path : Path)
  /-- There is already something else at the path. -/
  | alreadyExists (path : Path)
  /-- A component that should lead on is no directory. -/
  | notDirectory (path : Path)
  /-- The path leads to a directory where a file is wanted. -/
  | isDirectory (path : Path)
  /-- There is a null character in the path. -/
  | nullCharacter (path : Path)
deriving Repr, DecidableEq

namespace FileError

/-- The path that was asked for. -/
def path : FileError → Path
  | missing p | alreadyExists p | notDirectory p | isDirectory p | nullCharacter p => p

/-- The error number of the failure, if the file system was asked at all. -/
def number? : FileError → Option Nat
  | missing _ => some 2
  | alreadyExists _ => some 17
  | notDirectory _ => some 20
  | isDirectory _ => some 21
  | nullCharacter _ => none

/-- The failure in words. -/
def description : FileError → String
  | missing _ => "No such file or directory"
  | alreadyExists _ => "File exists"
  | notDirectory _ => "Not a directory"
  | isDirectory _ => "Is a directory"
  | nullCharacter _ => "embedded null byte"

/-- The text of the failure. -/
def message (e : FileError) : String :=
  match e.number? with
  | none => e.description
  | some number => s!"[Errno {Nat.repr number}] {e.description}: {Text.quoted e.path.toString}"

end FileError

/-- What stands at a place: a file with its bytes, or a directory. -/
inductive FileEntry where
  | file (bytes : List UInt8)
  | directory
deriving Repr, DecidableEq

/-- The files and directories a run can see, each place at most once. -/
structure FileTree where
  /-- The names that lead from the root to the working directory. -/
  here : List String
  entries : List (Path × FileEntry)
deriving Repr, Inhabited

namespace FileTree

/-- The tree without entries. -/
def empty (here : List String) : FileTree := ⟨here, []⟩

/-- Whether a place is that of the working directory or of one on the way to it.  These are directories
without an entry. -/
def isOnWayHere (here : List String) (place : Path) : Bool :=
  place.components.isPrefixOf here

/-- The first entry for a place. -/
def findEntry (place : Path) : List (Path × FileEntry) → Option FileEntry
  | [] => none
  | e :: rest => if e.1 = place then some e.2 else findEntry place rest

/-- The entries with the one for a place replaced, or added at the end. -/
def putEntry (place : Path) (entry : FileEntry) :
    List (Path × FileEntry) → List (Path × FileEntry)
  | [] => [(place, entry)]
  | e :: rest => if e.1 = place then (place, entry) :: rest else e :: putEntry place entry rest

/-- What stands at a place. -/
def entryAt? (t : FileTree) (place : Path) : Option FileEntry :=
  if isOnWayHere t.here place then some .directory else findEntry place t.entries

/-- The tree with an entry put at a place, replacing what was there. -/
def put (t : FileTree) (place : Path) (entry : FileEntry) : FileTree :=
  { t with entries := putEntry place entry t.entries }

/-- The place that a path sets out from: the working directory, or the root for an absolute path. -/
def origin (here : List String) (anchor : Nat) : Path :=
  ⟨1, if anchor = 0 then here else []⟩

/-- One step from a directory; from the root, `..` leads nowhere else. -/
def stepFrom (place : Path) (component : String) : Path :=
  if component == ".." then place.parent else ⟨place.anchor, place.components ++ [component]⟩

/-- The place that components lead to from a place. -/
def descend (top : Path) (components : List String) : Path :=
  components.foldl stepFrom top

/-- The place that a path leads to, wherever it leads anywhere. -/
def place (here : List String) (p : Path) : Path :=
  descend (origin here p.anchor) p.components

/-- Follows components from a place; every place but the last must be a directory.  The failure
tells whether a component was missing (`false`) or no directory (`true`). -/
def follow (t : FileTree) (place : Path) : List String → Except Bool Path
  | [] => .ok place
  | component :: rest =>
    match t.entryAt? place with
    | none => .error false
    | some (.file _) => .error true
    | some .directory => t.follow (stepFrom place component) rest

/-- The place that a path leads to, whether or not anything stands there. -/
def placeOf (t : FileTree) (p : Path) : Except FileError Path :=
  match t.follow (origin t.here p.anchor) p.components with
  | .ok place => .ok place
  | .error false => .error (.missing p)
  | .error true => .error (.notDirectory p)

/-- What a path leads to. -/
def lookup? (t : FileTree) (p : Path) : Option FileEntry :=
  match t.placeOf p with
  | .ok place => t.entryAt? place
  | .error _ => none

/-- Whether a path leads to a file or directory. -/
def contains (t : FileTree) (p : Path) : Bool :=
  (t.lookup? p).isSome

/-- Whether a path leads to a directory. -/
def isDirectory (t : FileTree) (p : Path) : Bool :=
  t.lookup? p == some .directory

/-- The bytes of the file at a path. -/
def read (t : FileTree) (p : Path) : Except FileError (List UInt8) := do
  match t.entryAt? (← t.placeOf p) with
  | some (.file bytes) => .ok bytes
  | some .directory => .error (.isDirectory p)
  | none => .error (.missing p)

/-- Makes the one directory at a path, in a directory that must exist. -/
def makeDirectory (t : FileTree) (p : Path) : Except FileError FileTree := do
  let place ← t.placeOf p
  match t.entryAt? place with
  | some _ => .error (.alreadyExists p)
  | none => .ok (t.put place .directory)

/-- The tree with the one directory at a path made.  A directory that is already there is left as it
is. -/
def ensureDirectory (t : FileTree) (p : Path) : FileTree × Except FileError Unit :=
  match t.makeDirectory p with
  | .ok t => (t, .ok ())
  | .error e => (t, if t.isDirectory p then .ok () else .error e)

/-- The tree with the directory at the path of the given components made and, where they are missing,
those above it.  The components are given last first.  The whole path is tried before its parent, so
a file in the way is reported for the path that was tried; the directories made until then stay. -/
def makeDirectoriesFrom (anchor : Nat) : List String → FileTree → FileTree × Except FileError Unit
  | [], t => (t, .ok ())
  | last :: above, t =>
    let p : Path := ⟨anchor, (last :: above).reverse⟩
    match t.makeDirectory p with
    | .error (.missing _) =>
      match makeDirectoriesFrom anchor above t with
      | (t, .error e) => (t, .error e)
      | (t, .ok ()) => t.ensureDirectory p
    | _ => t.ensureDirectory p

/-- The tree with the directory at a path made, together with its missing parents. -/
def makeDirectories (t : FileTree) (p : Path) : FileTree × Except FileError Unit :=
  if p.hasNull then (t, .error (.nullCharacter p))
  else makeDirectoriesFrom p.anchor p.components.reverse t

/-- Puts a file with the given text at a path, in a directory that must exist. -/
def write (t : FileTree) (p : Path) (text : String) : Except FileError FileTree :=
  if p.hasNull then .error (.nullCharacter p)
  else do
    let place ← t.placeOf p
    match t.entryAt? place with
    | some .directory => .error (.isDirectory p)
    | _ => .ok (t.put place (.file (Text.Utf8.encode text.toList)))

/-- The tree with a file of the given name and text put in a directory, which is made if it is missing;
gives the path of the file. -/
def store (t : FileTree) (directory : Path) (name text : String) :
    FileTree × Except FileError Path :=
  match t.makeDirectories directory with
  | (t, .error e) => (t, .error e)
  | (t, .ok ()) =>
    let path := directory.join name
    match t.write path text with
    | .error e => (t, .error e)
    | .ok t => (t, .ok path)

/-- The components that lead from one place down to another. -/
def below? (top place : Path) : Option (List String) :=
  if top.anchor = place.anchor then
    if top.components.isPrefixOf place.components then
      some (place.components.drop top.components.length)
    else none
  else none

/-- The files below a directory whose names end in `.cs`, as paths that go on from the directory's
own path. -/
def sourceFilesBelow (t : FileTree) (p : Path) : List Path :=
  match t.placeOf p with
  | .error _ => []
  | .ok top =>
    t.entries.filterMap fun (place, entry) =>
      match entry, below? top place with
      | .file _, some (step :: steps) =>
        if Text.hasTrail ".cs" place.name then some (p.append ⟨0, step :: steps⟩) else none
      | _, _ => none

/-- Puts a file where a path leads, together with the directories above it. -/
def addFile (t : FileTree) (p : Path) (bytes : List UInt8) : FileTree :=
  (t.makeDirectories p.parent).1.put (place t.here p) (.file bytes)

/-- Puts a directory where a path leads, together with the directories above it. -/
def addDirectory (t : FileTree) (p : Path) : FileTree :=
  (t.makeDirectories p).1

/-- Whether no entry stands below a place. -/
def isBare (t : FileTree) (place : Path) : Bool :=
  !t.entries.any fun e => e.1.parent == place && e.1 != place

/-! ## What stands where after a change -/

theorem findEntry_putEntry_self (place : Path) (entry : FileEntry) (l : List (Path × FileEntry)) :
    findEntry place (putEntry place entry l) = some entry := by
  induction l with
  | nil => simp [putEntry, findEntry]
  | cons e rest ih => by_cases h : e.1 = place <;> simp [putEntry, findEntry, h, ih]

theorem findEntry_putEntry_of_ne {place other : Path} (h : other ≠ place) (entry : FileEntry)
    (l : List (Path × FileEntry)) :
    findEntry other (putEntry place entry l) = findEntry other l := by
  induction l with
  | nil => simp [putEntry, findEntry, Ne.symm h]
  | cons e rest ih =>
    by_cases he : e.1 = place
    · simp [putEntry, findEntry, he, Ne.symm h]
    · simp [putEntry, findEntry, he, ih]

@[simp] theorem here_put (t : FileTree) (place : Path) (entry : FileEntry) :
    (t.put place entry).here = t.here := rfl

theorem entryAt?_put_self (t : FileTree) {place : Path} (h : isOnWayHere t.here place = false)
    (entry : FileEntry) : (t.put place entry).entryAt? place = some entry := by
  simp [entryAt?, put, h, findEntry_putEntry_self]

theorem entryAt?_put_of_ne (t : FileTree) {place other : Path} (h : other ≠ place)
    (entry : FileEntry) : (t.put place entry).entryAt? other = t.entryAt? other := by
  simp [entryAt?, put, findEntry_putEntry_of_ne h]

end FileTree

end PlatformClasses
