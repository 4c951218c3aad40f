import PlatformClasses.Draft

/-!
# Drafts side by side

The parts of a file are drafted side by side on a desk, and one of them is put into another as it stands,
while both are still being filled.

A block of a draft is entered and left again.  When it is entered, the depth of the draft is noted, and
when it is left, the draft goes back to the depth that was noted, whether the block was carried out or
broken off by a failure.  Nothing makes sure that the block entered last is left first.
-/

namespace PlatformClasses

/-- A draft on a desk, with its blocks in the order in which they were entered. -/
structure Sheet where
  draft : Draft
  /-- The depth that is noted for each block, until it is left. -/
  blocks : List (Option Nat)
deriving Repr, DecidableEq

namespace Sheet

/-- A sheet without lines and blocks. -/
def fresh (indentSize : Int) : Sheet := ⟨.empty indentSize, []⟩

/-- The sheet with something done to its draft. -/
def write (f : Draft → Draft) (s : Sheet) : Sheet := { s with draft := f s.draft }

/-- The sheet after another block is entered. -/
def enter (s : Sheet) : Sheet := ⟨s.draft.deeper, s.blocks ++ [some s.draft.depth]⟩

/-- The sheet after a block is left.  Leaving a block that is not open changes nothing. -/
def leave (block : Nat) (s : Sheet) : Sheet :=
  match s.blocks[block]? with
  | some (some depth) => ⟨s.draft.atDepth depth, s.blocks.set block none⟩
  | _ => s

end Sheet

/-- Drafts that are filled side by side, in the order in which they were begun. -/
structure Desk where
  sheets : List Sheet
deriving Repr, DecidableEq

namespace Desk

/-- Something that is done at a desk.  Drafts are numbered in the order in which they were begun, and the
blocks of a draft in the order in which they were entered. -/
inductive Action where
  /-- A draft is begun. -/
  | fresh (indentSize : Int)
  /-- A line is added to a draft. -/
  | line (draft : Nat) (text : String)
  /-- Several lines are added to a draft. -/
  | lines (draft : Nat) (texts : List String)
  /-- A blank line is added to a draft. -/
  | blank (draft : Nat)
  /-- The lines of another draft are added to a draft.  Its own lines could not be added, as each line
  added would be one more to add. -/
  | splice (draft other : Nat) (distinct : other ≠ draft)
  /-- A block of a draft is entered. -/
  | enter (draft : Nat)
  /-- A block of a draft is left, because it has been carried out or because of a failure in it. -/
  | leave (draft block : Nat) (failure : Option String)

/-- The desk before anything is done. -/
def empty : Desk := ⟨[]⟩

/-- The desk with one sheet changed. -/
def change (i : Nat) (f : Sheet → Sheet) (d : Desk) : Desk := ⟨d.sheets.modify i f⟩

/-- The desk after an action.  What is done to a draft that is not there changes nothing. -/
def after (d : Desk) : Action → Desk
  | .fresh indentSize => ⟨d.sheets ++ [.fresh indentSize]⟩
  | .line i text => d.change i (.write (.line · text))
  | .lines i texts => d.change i (.write (.addLines · texts))
  | .blank i => d.change i (.write .blank)
  | .splice i other _ =>
    match d.sheets[other]? with
    | none => d
    | some sheet => d.change i (.write (.splice · sheet.draft))
  | .enter i => d.change i .enter
  | .leave i block _ => d.change i (.leave block)

/-- The desk after several actions. -/
def afterAll (d : Desk) (actions : List Action) : Desk := actions.foldl after d

/-- The depth that a draft has reached, if it is there. -/
def depth? (d : Desk) (i : Nat) : Option Nat := d.sheets[i]?.map (·.draft.depth)

@[simp] theorem afterAll_nil (d : Desk) : d.afterAll [] = d := rfl

@[simp] theorem afterAll_cons (d : Desk) (a : Action) (actions : List Action) :
    d.afterAll (a :: actions) = (d.after a).afterAll actions := rfl

theorem afterAll_append (d : Desk) (actions more : List Action) :
    d.afterAll (actions ++ more) = (d.afterAll actions).afterAll more := List.foldl_append

theorem getElem?_change_self {d : Desk} {i : Nat} {s : Sheet} (h : d.sheets[i]? = some s)
    (f : Sheet → Sheet) : (d.change i f).sheets[i]? = some (f s) := by
  simp [change, h]

theorem getElem?_change_of_ne {d : Desk} {i j : Nat} (h : j ≠ i) (f : Sheet → Sheet) :
    (d.change j f).sheets[i]? = d.sheets[i]? := by
  simp [change, h]

end Desk

end PlatformClasses
