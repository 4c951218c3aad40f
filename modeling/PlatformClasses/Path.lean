import PlatformClasses.Text.Case
import PlatformClasses.Text.Cut

/-!
# Lexical paths

A path is a list of component names, absolute or relative.  Reading a path's text drops empty and `.`
components; `..` is kept, since what it means depends on the file system.

Paths are ordered by their components, one by one, and not by their text: `m/a/z.cs` comes before
`m/a-b.cs`.
-/

namespace PlatformClasses

/-- A file system path. -/
structure Path where
  /-- The slashes before an absolute path: none for a relative one, and two where exactly two are
  written. -/
  anchor : Nat
  /-- The names along the path. -/
  components : List String
deriving Repr, DecidableEq, Inhabited

namespace Path

/-- Components that name a step; empty ones and `.` do not. -/
def isStep (component : String) : Bool :=
  component != "" && component != "."

/-- The anchor that a path's text starts with. -/
def anchorOf (s : String) : Nat :=
  match (s.toList.takeWhile (· == '/')).length with
  | 0 => 0
  | 2 => 2
  | _ => 1

/-- Reads a path. -/
def ofString (s : String) : Path :=
  ⟨anchorOf s, (Text.pieces '/' s).filter isStep⟩

/-- The text of a path; the path without components is `.`, or its anchor. -/
def toString (p : Path) : String :=
  if p.anchor = 0 then
    if p.components.isEmpty then "." else Text.joined "/" p.components
  else String.ofList (List.replicate p.anchor '/') ++ Text.joined "/" p.components

instance : ToString Path := ⟨toString⟩

/-- The path `q`, taken from `p` unless it is absolute. -/
def append (p q : Path) : Path :=
  if q.anchor = 0 then ⟨p.anchor, p.components ++ q.components⟩ else q

/-- The path below `p` that a text names. -/
def join (p : Path) (s : String) : Path :=
  p.append (ofString s)

/-- The last component, empty if there is none. -/
def name (p : Path) : String :=
  p.components.getLastD ""

/-- The path without its last component. -/
def parent (p : Path) : Path :=
  ⟨p.anchor, p.components.dropLast⟩

/-- Whether there is a null character in a path, so that it cannot be given to a file system. -/
def hasNull (p : Path) : Bool :=
  p.components.any fun component => component.toList.contains '\x00'

/-- A name from its last dot on, unless that dot is its first or its last character. -/
def extensionOfName (name : String) : String :=
  let reversed := name.toList.reverse
  let tail := reversed.takeWhile (· != '.')
  let stem := (reversed.dropWhile (· != '.')).drop 1
  if tail.isEmpty || stem.isEmpty then "" else String.ofList ('.' :: tail.reverse)

/-- The extension of the last component, from its last dot on; a dot at either end of the name does
not count. -/
def extension (p : Path) : String :=
  extensionOfName p.name

/-- Whether a path is by its name a source file: its extension is `.cs`, in any case. -/
def isSourceFile (p : Path) : Bool :=
  Text.lower p.extension == ".cs"

/-- Order of texts by code points. -/
def textCompare : List Char → List Char → Ordering
  | [], [] => .eq
  | [], _ :: _ => .lt
  | _ :: _, [] => .gt
  | a :: as, b :: bs =>
    if a.toNat < b.toNat then .lt else if b.toNat < a.toNat then .gt else textCompare as bs

/-- Order of component lists, the first difference deciding. -/
def componentsCompare : List String → List String → Ordering
  | [], [] => .eq
  | [], _ :: _ => .lt
  | _ :: _, [] => .gt
  | a :: as, b :: bs =>
    match textCompare a.toList b.toList with
    | .eq => componentsCompare as bs
    | order => order

/-- Order of paths: relative paths by their components; an anchor counts as a first component. -/
def compare (p q : Path) : Ordering :=
  let anchored := fun r : Path =>
    if r.anchor = 0 then r.components
    else String.ofList (List.replicate r.anchor '/') :: r.components
  componentsCompare (anchored p) (anchored q)

@[simp] theorem anchor_append_of_relative {p q : Path} (h : q.anchor = 0) :
    (p.append q).anchor = p.anchor := by simp [append, h]

@[simp] theorem components_append_of_relative {p q : Path} (h : q.anchor = 0) :
    (p.append q).components = p.components ++ q.components := by simp [append, h]

end Path

end PlatformClasses
