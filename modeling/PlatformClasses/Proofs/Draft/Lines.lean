import PlatformClasses.ClassFile.Basic
import PlatformClasses.Proofs.Draft.Layout

/-!
# The filled lines of drafts

Blank lines and depths only set off the lines of a draft, so `filledLines` leaves them out.  What is left
is easy to follow through the operations on drafts: each of them adds lines at the end
(`filledLines_draftAll`).  So the lines of a file can be listed from the first to the last: the line that
names the source, the import lines, the namespace, and in it the attributes and the class line with the
lines of the sections in braces (`filledLines_draftFile`).
-/

namespace PlatformClasses

/-- The lines of a draft that are not blank. -/
def Draft.filledLines (d : Draft) : List String := (d.lines.map (·.text)).filter (· != "")

namespace Draft

/-- Separating adds no filled line. -/
theorem filledLines_separate (d : Draft) : d.separate.filledLines = d.filledLines := by
  unfold separate
  split <;> simp [filledLines]

/-- A line that is not blank is added. -/
theorem filledLines_line {text : String} (h : text ≠ "") (d : Draft) :
    (d.line text).filledLines = d.filledLines ++ [text] := by
  simp [filledLines, line, h]

theorem filledLines_empty (indentSize : Int) : (empty indentSize).filledLines = [] := rfl

theorem filledLines_blank (d : Draft) : d.blank.filledLines = d.filledLines := by
  simp [filledLines]

/-- Of several lines, those are added that are not blank. -/
theorem filledLines_addLines (d : Draft) (texts : List String) :
    (d.addLines texts).filledLines = d.filledLines ++ texts.filter (· != "") := by
  unfold addLines
  induction texts generalizing d with
  | nil => simp
  | cons text rest ih =>
      rw [List.foldl_cons, ih]
      by_cases h : text = ""
      · simp [h, line, filledLines_blank]
      · simp [h, filledLines_line h]

theorem filledLines_addLines_of_ne_blank {texts : List String} (h : ∀ text ∈ texts, text ≠ "")
    (d : Draft) : (d.addLines texts).filledLines = d.filledLines ++ texts := by
  have hall : texts.filter (· != "") = texts := by
    rw [List.filter_eq_self]
    intro text htext
    simpa using h text htext
  rw [filledLines_addLines, hall]

theorem filledLines_deeper (d : Draft) : d.deeper.filledLines = d.filledLines := rfl

/-- Splicing adds the filled lines of the other draft. -/
theorem filledLines_splice (d other : Draft) :
    (d.splice other).filledLines = d.filledLines ++ other.filledLines := by
  have htext : ∀ l : DraftLine, (deepen d.depth l).text = l.text := by
    intro l
    unfold deepen
    split
    · next h => exact h.symm
    · rfl
  simp [filledLines, Function.comp_def, htext]

/-- Braces are lines before and after the body. -/
theorem filledLines_braced (d : Draft) (body : Draft → Draft) :
    (d.braced body).filledLines = (body (d.line "\x7b").deeper).filledLines ++ ["\x7d"] :=
  filledLines_line closing_ne_blank ((d.line "\x7b").indented body)

end Draft

open Draft

/-- The filled lines of things one after the other, if each of them adds its own. -/
theorem filledLines_draftAll {α : Type} {draft : α → Draft → Draft} {linesOf : α → List String}
    (h : ∀ a d, (draft a d).filledLines = d.filledLines ++ linesOf a) (indentSize : Int)
    (things : List α) :
    (draftAll indentSize draft things).filledLines = things.flatMap linesOf := by
  have hfrom : ∀ d, (things.foldl (fun d a => draft a d) d).filledLines =
      d.filledLines ++ things.flatMap linesOf := by
    induction things with
    | nil => simp
    | cons a rest ih =>
        intro d
        rw [List.foldl_cons, ih, h, List.flatMap_cons, List.append_assoc]
  exact hfrom (empty indentSize)

namespace ClassFile

/-- Sections add their filled lines one after the other. -/
theorem filledLines_draftSections (d : Draft) (ss : List Draft) :
    (draftSections d ss).filledLines = d.filledLines ++ ss.flatMap filledLines := by
  induction ss generalizing d with
  | nil => simp [draftSections]
  | cons s rest ih =>
      cases rest with
      | nil => simp [draftSections, filledLines_splice]
      | cons s' rest =>
          show (draftSections (d.splice s).blank (s' :: rest)).filledLines = _
          rw [ih, filledLines_blank, filledLines_splice, List.append_assoc, ← List.flatMap_cons]

/-- Empty sections have no lines, so it does not matter that they are left out. -/
theorem flatMap_filledLines_filter (ss : List Draft) :
    (ss.filter fun s => !s.isEmpty).flatMap filledLines = ss.flatMap filledLines := by
  induction ss with
  | nil => rfl
  | cons s rest ih =>
      by_cases hempty : s.isEmpty = true
      · have hnil : s.filledLines = [] := by simp [filledLines, List.isEmpty_iff.1 hempty]
        rw [List.filter_cons_of_neg (by simp [hempty]), ih, List.flatMap_cons, hnil, List.nil_append]
      · rw [List.filter_cons_of_pos (by simp [hempty]), List.flatMap_cons, List.flatMap_cons, ih]

/-- The line that says where a file comes from. -/
def headerLine (sourceName : String) : String :=
  s!"// This file is generated from {sourceName}.cs. " ++
    "Update the source file to change its contents."

/-- The line that imports a namespace. -/
def importLine (name : String) : String := s!"using {name};"

/-- The filled lines of a file with one class. -/
def fileLines (sourceName : String) (imports : List String) (nameSpace : String)
    (attributes : List String) (classLine : String) (members : List String) : List String :=
  headerLine sourceName :: (imports.map importLine ++ s!"namespace {nameSpace}" :: "\x7b" ::
    (attributes ++ classLine :: "\x7b" :: (members ++ ["\x7d", "\x7d"])))

theorem headerLine_ne_blank (sourceName : String) : headerLine sourceName ≠ "" := by
  intro hblank
  exact absurd (String.append_eq_empty_iff.1 hblank).2 (by decide)

/-- The header is one line. -/
theorem filledLines_draftHeader (sourceName : String) (d : Draft) :
    (draftHeader sourceName d).filledLines = d.filledLines ++ [headerLine sourceName] := by
  rw [draftHeader, filledLines_blank]
  exact filledLines_line (headerLine_ne_blank sourceName) d

/-- Each import is one line. -/
theorem filledLines_draftImports (indentSize : Int) (imports : List String) :
    (draftImports indentSize imports).filledLines = imports.map importLine := by
  apply filledLines_addLines_of_ne_blank
  intro text htext
  obtain ⟨name, -, rfl⟩ := List.mem_map.1 htext
  have hplain : IsPlain s!"using {name};" := .of_blank (by simp [ToString.toString])
  exact hplain.ne_blank

/-- The filled lines of a file are those of its parts. -/
theorem filledLines_draftFile (indentSize : Int) (sourceName : String) (imports : List String)
    (nameSpace : String) (attributes : List String) {classLine : String} (hclass : classLine ≠ "")
    (sections : List Draft) :
    (draftFile indentSize sourceName imports nameSpace attributes classLine sections).filledLines =
      fileLines sourceName imports nameSpace (attributes.filter (· != "")) classLine
        (sections.flatMap filledLines) := by
  have hnameSpace : s!"namespace {nameSpace}" ≠ "" :=
    (IsPlain.of_blank (by simp [ToString.toString])).ne_blank
  have himports : ∀ d imported : Draft,
      (if imported.isEmpty then d else (d.splice imported).blank).filledLines =
        d.filledLines ++ imported.filledLines := by
    intro d imported
    split
    · next hempty => simp [filledLines, List.isEmpty_iff.1 hempty]
    · rw [filledLines_blank, filledLines_splice]
  unfold draftFile fileLines
  simp only [filledLines_braced, filledLines_draftSections, flatMap_filledLines_filter,
    filledLines_deeper, filledLines_line opening_ne_blank, filledLines_line hclass,
    filledLines_line hnameSpace, filledLines_addLines, himports, filledLines_draftHeader,
    filledLines_draftImports, filledLines_empty, List.append_assoc, List.cons_append,
    List.nil_append]

/-- A file ends with its class. -/
theorem suffix_fileLines (sourceName : String) (imports : List String) (nameSpace : String)
    (attributes : List String) (classLine : String) (members : List String) :
    classLine :: "\x7b" :: (members ++ ["\x7d", "\x7d"]) <:+
      fileLines sourceName imports nameSpace attributes classLine members := by
  refine (List.suffix_append attributes _).trans ?_
  refine List.IsSuffix.trans ?_ (List.suffix_cons _ _)
  refine List.IsSuffix.trans ?_ (List.suffix_append _ _)
  exact (List.suffix_cons _ _).trans (List.suffix_cons _ _)

end ClassFile

end PlatformClasses
