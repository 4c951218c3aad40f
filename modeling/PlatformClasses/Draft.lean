import PlatformClasses.Text.Cut

/-!
# Drafts

A draft is a text in the making: its lines with the depth they are indented to, and the depth at which
the next line goes.  A draft can be put into another one at any depth, which deepens all of its lines
but the blank ones.
-/

namespace PlatformClasses

/-- A line and its depth. -/
structure DraftLine where
  depth : Nat
  text : String
deriving Repr, DecidableEq

/-- The lines of a text in the making. -/
structure Draft where
  /-- The number of spaces per level. -/
  indentSize : Int
  /-- The depth of the next line. -/
  depth : Nat
  lines : List DraftLine
deriving Repr, DecidableEq

namespace Draft

/-- A draft without lines. -/
def empty (indentSize : Int) : Draft := ⟨indentSize, 0, []⟩

/-- The draft with a blank line added. -/
def blank (d : Draft) : Draft := { d with lines := d.lines ++ [⟨0, ""⟩] }

/-- The draft with a line added; an empty line is a blank one. -/
def line (d : Draft) (text : String) : Draft :=
  if text = "" then d.blank else { d with lines := d.lines ++ [⟨d.depth, text⟩] }

/-- The draft with several lines added. -/
def addLines (d : Draft) (texts : List String) : Draft := texts.foldl line d

/-- A line moved down by a number of levels; a blank line stays where it is. -/
def deepen (depth : Nat) (l : DraftLine) : DraftLine :=
  if l.text = "" then ⟨0, ""⟩ else ⟨depth + l.depth, l.text⟩

/-- The draft with the lines of another one added at the current depth. -/
def splice (d other : Draft) : Draft :=
  { d with lines := d.lines ++ other.lines.map (deepen d.depth) }

/-- The draft one level deeper. -/
def deeper (d : Draft) : Draft := { d with depth := d.depth + 1 }

/-- The draft at a given depth. -/
def atDepth (d : Draft) (depth : Nat) : Draft := { d with depth := depth }

/-- The draft with what `body` adds to it one level deeper. -/
def indented (d : Draft) (body : Draft → Draft) : Draft := (body d.deeper).atDepth d.depth

/-- The draft with what `body` adds to it, in braces and one level deeper. -/
def braced (d : Draft) (body : Draft → Draft) : Draft :=
  ((d.line "\x7b").indented body).line "\x7d"

/-- Whether the draft has no lines. -/
def isEmpty (d : Draft) : Bool := d.lines.isEmpty

/-- The draft with a blank line added unless it is the first. -/
def separate (d : Draft) : Draft := if d.isEmpty then d else d.blank

/-- The indentation of a depth. -/
def indentation (indentSize : Int) (depth : Nat) : String :=
  String.ofList (List.replicate (indentSize * depth).toNat ' ')

/-- The text of a line with its indentation and line end. -/
def lineText (indentSize : Int) (l : DraftLine) : String :=
  indentation indentSize l.depth ++ l.text ++ "\n"

/-- The text of the draft. -/
def text (d : Draft) : String :=
  d.lines.foldr (fun l rest => lineText d.indentSize l ++ rest) ""

@[simp] theorem lines_empty (n : Int) : (empty n).lines = [] := rfl

@[simp] theorem depth_blank (d : Draft) : d.blank.depth = d.depth := rfl

@[simp] theorem lines_blank (d : Draft) : d.blank.lines = d.lines ++ [⟨0, ""⟩] := rfl

@[simp] theorem depth_line (d : Draft) (s : String) : (d.line s).depth = d.depth := by
  unfold line; split <;> rfl

@[simp] theorem depth_splice (d other : Draft) : (d.splice other).depth = d.depth := rfl

@[simp] theorem lines_splice (d other : Draft) :
    (d.splice other).lines = d.lines ++ other.lines.map (deepen d.depth) := rfl

@[simp] theorem depth_indented (d : Draft) (body : Draft → Draft) :
    (d.indented body).depth = d.depth := rfl

end Draft

end PlatformClasses
