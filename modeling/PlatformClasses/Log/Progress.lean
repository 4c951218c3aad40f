import PlatformClasses.Log.Event

/-!
# Progress

What a run has done so far: how many declarations it has begun and how many files it has written, and
the operations it is in the middle of, each within the one before.
-/

namespace PlatformClasses

/-- What a run has done so far. -/
structure Progress where
  declarations : Nat := 0
  files : Nat := 0
  /-- The operations that are under way, the innermost first. -/
  operations : List String := []
deriving Repr, DecidableEq

namespace Progress

/-- The progress of a run that has done nothing. -/
def start : Progress := {}

/-- Begins an operation. -/
def enter (operation : String) (p : Progress) : Progress × List LogEvent :=
  ({ p with operations := operation :: p.operations }, [.started operation])

/-- Begins the generation of a declaration. -/
def enterDeclaration (name : String) (p : Progress) : Progress × List LogEvent :=
  enter s!"generate {name}" { p with declarations := p.declarations + 1 }

/-- Ends the innermost operation, which may have failed for a reason. -/
def leave (failure : Option String) (p : Progress) : Progress × List LogEvent :=
  match p.operations with
  | [] => (p, [])
  | operation :: outer =>
    ({ p with operations := outer },
      [match failure with
       | none => .completed operation
       | some reason => .failed operation reason])

/-- Counts written files. -/
def countFiles (n : Nat) (p : Progress) : Progress := { p with files := p.files + n }

/-- The event that gives the counts. -/
def summary (p : Progress) : LogEvent := .summary p.declarations p.files

/-- The operations under way, outermost first. -/
def context (p : Progress) : String :=
  if p.operations.isEmpty then "idle" else Text.joined " > " p.operations.reverse

end Progress

end PlatformClasses
