import PlatformClasses.Draft

/-!
# Splicing and writing in place

Generated code is drafted by programs of a few steps: lines, blank lines, other drafts that are spliced in,
and blocks one level deeper.  A part of a file can be drafted on its own and spliced in later, or written
where it belongs right away, and the result is the same draft (`splice_run`).

The invariant of the induction is `Draft.graft`: the outer draft as it stands if what is in the inner draft
had been written in place, blocks that are still open in the inner draft being open in the outer one too.
Every step of a program leads from the graft of a draft to the graft of the next (`graft_line` to
`graft_indented`), and a fresh draft grafts nothing.
-/

namespace PlatformClasses

/-- A program of drafting steps, in which every block that is opened is closed again. -/
inductive Program where
  | done
  | line (text : String) (rest : Program)
  | lines (texts : List String) (rest : Program)
  | blank (rest : Program)
  | splice (other : Draft) (rest : Program)
  | indented (body rest : Program)
deriving Repr

/-- The draft that a program leads to. -/
def Program.run : Program → Draft → Draft
  | done, d => d
  | line text rest, d => rest.run (d.line text)
  | lines texts rest, d => rest.run (d.addLines texts)
  | blank rest, d => rest.run d.blank
  | splice other rest, d => rest.run (d.splice other)
  | indented body rest, d => rest.run (d.indented body.run)

namespace Draft

/-- The outer draft with the lines of the inner one, going on at the depth that the inner one has
reached. -/
def graft (outer inner : Draft) : Draft :=
  (outer.splice inner).atDepth (outer.depth + inner.depth)

/-- Depths add up, and a blank line stays at depth zero however often it is moved. -/
theorem deepen_deepen (j k : Nat) (l : DraftLine) : deepen j (deepen k l) = deepen (j + k) l := by
  by_cases htext : l.text = ""
  · simp [deepen, htext]
  · simp [deepen, htext, Nat.add_assoc]

section Graft

variable (outer inner : Draft)

theorem graft_empty (indentSize : Int) : outer.graft (.empty indentSize) = outer := by
  simp [graft, splice, atDepth, empty]

theorem graft_atDepth (depth : Nat) :
    outer.graft (inner.atDepth depth) = (outer.graft inner).atDepth (outer.depth + depth) := rfl

theorem graft_deeper : outer.graft inner.deeper = (outer.graft inner).deeper := rfl

theorem graft_blank : outer.graft inner.blank = (outer.graft inner).blank := by
  simp [graft, splice, blank, atDepth, deepen]

theorem graft_line (text : String) : outer.graft (inner.line text) = (outer.graft inner).line text := by
  by_cases htext : text = ""
  · simp only [line, htext, if_true]
    exact graft_blank outer inner
  · simp [graft, splice, line, atDepth, deepen, htext]

theorem graft_addLines (texts : List String) :
    outer.graft (inner.addLines texts) = (outer.graft inner).addLines texts := by
  induction texts generalizing inner with
  | nil => rfl
  | cons text rest ih =>
      show outer.graft ((inner.line text).addLines rest) = ((outer.graft inner).line text).addLines rest
      rw [ih, graft_line]

theorem graft_splice (other : Draft) :
    outer.graft (inner.splice other) = (outer.graft inner).splice other := by
  have hdeepen : deepen outer.depth ∘ deepen inner.depth = deepen (outer.depth + inner.depth) :=
    funext (deepen_deepen outer.depth inner.depth)
  simp [graft, splice, atDepth, hdeepen]

theorem graft_indented {body : Draft → Draft} (hbody : ∀ d, outer.graft (body d) = body (outer.graft d)) :
    outer.graft (inner.indented body) = (outer.graft inner).indented body := by
  rw [indented, graft_atDepth, hbody, graft_deeper]
  rfl

end Graft

/-- Splicing twice is grafting and splicing, with the blocks closed that the graft has left open. -/
theorem splice_splice (outer inner other : Draft) :
    outer.splice (inner.splice other) = ((outer.graft inner).splice other).atDepth outer.depth := by
  rw [← graft_splice]
  rfl

end Draft

namespace Program

open Draft

/-- A program closes the blocks that it opens. -/
theorem depth_run (p : Program) (d : Draft) : (p.run d).depth = d.depth := by
  have hlines (texts : List String) (d : Draft) : (d.addLines texts).depth = d.depth := by
    induction texts generalizing d with
    | nil => rfl
    | cons text rest ih => exact (ih (d.line text)).trans (depth_line d text)
  induction p generalizing d with
  | done => rfl
  | line text rest ih => exact (ih _).trans (depth_line d text)
  | lines texts rest ih => exact (ih _).trans (hlines texts d)
  | blank rest ih => exact ih _
  | splice other rest ih => exact ih _
  | indented body rest _ ih => exact ih _

/-- Going on with the inner draft is going on with its graft. -/
theorem graft_run (p : Program) (outer inner : Draft) :
    outer.graft (p.run inner) = p.run (outer.graft inner) := by
  induction p generalizing inner with
  | done => rfl
  | line text rest ih => rw [run, ih, graft_line, run]
  | lines texts rest ih => rw [run, ih, graft_addLines, run]
  | blank rest ih => rw [run, ih, graft_blank, run]
  | splice other rest ih => rw [run, ih, graft_splice, run]
  | indented body rest ihbody ih => rw [run, ih, graft_indented outer inner ihbody, run]

/-- A draft whose blocks are closed is spliced in as it is grafted. -/
theorem graft_run_empty (p : Program) (outer : Draft) (indentSize : Int) :
    outer.graft (p.run (.empty indentSize)) = outer.splice (p.run (.empty indentSize)) := by
  rw [graft, depth_run]
  rfl

/-- What a program drafts on a fresh draft, of whatever indentation, can be spliced into any draft at any
depth: this is the draft, with its lines, depth and text, that the program leads to on the outer draft
itself.  So it does not matter either whether a third draft is spliced into the inner one before or into
the outer one after. -/
theorem splice_run (p : Program) (outer : Draft) (indentSize : Int) :
    outer.splice (p.run (.empty indentSize)) = p.run outer ∧
      ∀ other, outer.splice ((p.run (.empty indentSize)).splice other) =
        (outer.splice (p.run (.empty indentSize))).splice other := by
  constructor
  · rw [← graft_run_empty, graft_run, graft_empty]
  · intro other
    rw [splice_splice, graft_run_empty]
    rfl

end Program

end PlatformClasses
