import PlatformClasses.Proofs.ClassFile.Destinations
import PlatformClasses.Proofs.Draft.Layout

/-!
# The layout of generated files

Every member adds a block to its section, with a blank line before it if the section has members
already.  A section is therefore empty or a block, the sections of a class that are not empty make up a
block with blank lines between them, and so do the parts of a file.  Whatever members a class has, its
file is well laid (`generate_wellLaid`).
-/

namespace PlatformClasses

open Draft

/-! ## Members -/

theorem continues_pair {s s' : String} (hs : IsPlain s) (hs' : IsPlain s') (d : Draft) :
    Continues d ((d.line s).line s') :=
  (continues_line hs d).trans (continues_line hs' _)

/-- A line with something in braces below it. -/
theorem continues_headed {head : String} {body : Draft → Draft} (hhead : IsPlain head)
    (hbody : ∀ d, body d = d ∨ Continues d (body d)) (d : Draft) :
    Continues d ((d.line head).braced body) :=
  (continues_line hhead d).trans (continues_braced _ hbody)

/-- The line of a descriptor opens and closes nothing. -/
theorem Descriptor.isPlain_line (p : Platform) (className : String) (d : Descriptor) :
    IsPlain (d.line p className) := by
  unfold Descriptor.line
  exact .of_blank (by simp [ToString.toString])

namespace Accessor

/-- A conversion goes on well laid. -/
theorem continues_draftConversion (property : String) (c : Conversion) (d : Draft) :
    Continues d (draftConversion property c d) := by
  refine continues_headed ?_ (fun d => .inr (continues_pair ?_ ?_ d)) d
  · exact .of_blank (by simp [ToString.toString])
  · exact .of_blank (by simp [ToString.toString])
  · exact .of_blank (by simp [ToString.toString])

/-- An accessor goes on well laid, after a blank line if something stands before it. -/
theorem continues_draft (a : Accessor) (d : Draft) : Continues d.separate (a.draft d) := by
  have hown : Continues d.separate
      ((d.separate.line s!"public {a.backingType} {a.property}").braced fun d =>
        (d.line s!"get => ({a.backingType}) GetValue({Descriptor.nameFor a.property});").line
          s!"set => SetValue({Descriptor.nameFor a.property}, value);") := by
    refine continues_headed ?_ (fun d => .inr (continues_pair ?_ ?_ d)) d.separate
    · exact .of_blank (by simp [ToString.toString])
    · exact .of_blank (by simp [ToString.toString])
    · exact .of_blank (by simp [ToString.toString])
  unfold draft
  cases a.conversion with
  | none => exact hown
  | some c => exact hown.trans (continues_draftConversion a.property c _)

end Accessor

/-- A wrapper goes on well laid. -/
theorem Wrapper.continues_draft (w : Wrapper) (d : Draft) : Continues d.separate (w.draft d) := by
  unfold draft
  cases w.value with
  | none => exact continues_line (.of_blank (by simp [ToString.toString])) _
  | some value =>
      refine continues_pair ?_ ?_ d.separate
      · exact .of_blank (by simp [ToString.toString])
      · exact .of_blank (by simp [ToString.toString])

/-- The delegation of an attached property goes on well laid. -/
theorem Delegation.continues_draft (className : String) (m : Delegation) (d : Draft) :
    Continues d.separate (m.draft className d) := by
  unfold draft
  cases m.setter with
  | none => exact continues_line (.of_blank (by simp [ToString.toString])) _
  | some s =>
      refine continues_pair ?_ ?_ d.separate
      · exact .of_blank (by simp [ToString.toString])
      · exact .of_blank (by simp [ToString.toString])

/-- An extension method goes on well laid. -/
theorem ExtensionMethod.continues_draft (m : ExtensionMethod) (d : Draft) :
    Continues d.separate (m.draft d) := by
  refine continues_headed ?_ (fun d => .inr (continues_pair ?_ ?_ d)) d.separate
  · exact .of_blank (by simp [ToString.toString])
  · exact .of_blank (by simp [ToString.toString])
  · exact .of_blank (by simp [ToString.toString])

theorem Assignment.continues_draftConstructor (className : String) (assignments : List Assignment)
    (d : Draft) : Continues d (draftConstructor className assignments d) := by
  refine continues_headed (.of_blank (by simp [ToString.toString]))
    (continues_addLines ?_) d
  intro text htext
  obtain ⟨a, -, rfl⟩ := List.mem_map.1 htext
  exact .of_blank (by simp [ToString.toString])

/-! ## Sections -/

/-- Things that each add a block, set apart from what is before, fill a section. -/
theorem isSection_draftAll {α : Type} {draft : α → Draft → Draft}
    (h : ∀ a d, Continues d.separate (draft a d)) (indentSize : Int) (things : List α) :
    IsSection (draftAll indentSize draft things) := by
  have hfrom : ∀ d, IsSection d → IsSection (things.foldl (fun d a => draft a d) d) := by
    induction things with
    | nil => exact fun d hd => hd
    | cons a rest ih => exact fun d hd => ih _ (hd.of_continues_separate (h a d))
  exact hfrom (empty indentSize) (isSection_empty indentSize)

theorem isSection_addLines {texts : List String} (h : ∀ text ∈ texts, IsPlain text)
    (indentSize : Int) : IsSection ((empty indentSize).addLines texts) := by
  have hempty := isSection_empty indentSize
  rcases continues_addLines h (empty indentSize) with heq | hlines
  · rwa [heq]
  · exact hempty.of_continues hlines

/-- Every section of a class is well laid in itself. -/
theorem PrimaryClass.isSection_of_mem_sections {p : Platform} {indentSize : Int} {c : PrimaryClass}
    {s : Draft} (hs : s ∈ c.sections p indentSize) : IsSection s := by
  have hdescriptors : ∀ text ∈ c.descriptors.map (Descriptor.line p c.name), IsPlain text := by
    intro text htext
    obtain ⟨d, -, rfl⟩ := List.mem_map.1 htext
    exact Descriptor.isPlain_line p c.name d
  have hconstructor : IsSection (if c.assignments.isEmpty then empty indentSize
      else Assignment.draftConstructor c.name c.assignments (empty indentSize)) := by
    split
    · exact isSection_empty indentSize
    · exact (isSection_empty indentSize).of_continues (Assignment.continues_draftConstructor ..)
  simp only [sections, List.mem_cons, List.not_mem_nil, or_false] at hs
  rcases hs with rfl | rfl | rfl | rfl
  · exact isSection_addLines hdescriptors indentSize
  · exact isSection_draftAll Wrapper.continues_draft indentSize c.wrappers
  · exact hconstructor
  · exact isSection_draftAll Accessor.continues_draft indentSize c.accessors

namespace ClassFile

/-- Sections one after the other are well laid, with one blank line between any two. -/
theorem continues_draftSections {ss : List Draft} (hne : ss ≠ []) (h : ∀ s ∈ ss, Block 0 s.lines)
    (d : Draft) : Continues d (draftSections d ss) := by
  induction ss generalizing d with
  | nil => exact absurd rfl hne
  | cons s rest ih =>
      have hfirst : Continues d (d.splice s) := continues_splice (h s List.mem_cons_self) d
      cases rest with
      | nil => exact hfirst
      | cons s' rest =>
          have hrest := ih (by simp) (fun s hs => h s (List.mem_cons_of_mem _ hs)) (d.splice s).blank
          exact hfirst.separated hrest

/-- A file begins with a block and a blank line, with imports or without. -/
theorem exists_continues_blank (indentSize : Int) (sourceName : String) (imports : List String) :
    ∃ d, Continues (empty indentSize) d ∧
      (if (draftImports indentSize imports).isEmpty then draftHeader sourceName (empty indentSize)
        else ((draftHeader sourceName (empty indentSize)).splice
          (draftImports indentSize imports)).blank) = d.blank := by
  have himports : IsSection (draftImports indentSize imports) := by
    refine isSection_addLines ?_ indentSize
    intro text htext
    obtain ⟨name, -, rfl⟩ := List.mem_map.1 htext
    exact .of_blank (by simp [ToString.toString])
  have hheader : ∃ d, Continues (empty indentSize) d ∧
      draftHeader sourceName (empty indentSize) = d.blank :=
    ⟨_, continues_line (.of_blank (by simp [ToString.toString])) _, rfl⟩
  obtain ⟨d, hd, heq⟩ := hheader
  cases hempty : (draftImports indentSize imports).isEmpty with
  | true => exact ⟨d, hd, by rw [if_pos rfl, heq]⟩
  | false =>
      have hsplice : Continues d.blank (d.blank.splice (draftImports indentSize imports)) :=
        continues_splice (himports.block hempty) _
      exact ⟨_, hd.separated hsplice, by rw [if_neg (by simp), heq]⟩

/-- A file is well laid if its class is: the header, the imports and the namespace are. -/
theorem continues_draftFile (indentSize : Int) (sourceName : String) (imports : List String)
    (nameSpace : String) {attributes : List String} {classLine : String} {sections : List Draft}
    (hattributes : ∀ text ∈ attributes, IsPlain text) (hclass : IsPlain classLine)
    (hsections : ∀ s ∈ sections, IsSection s) :
    Continues (empty indentSize)
      (draftFile indentSize sourceName imports nameSpace attributes classLine sections) := by
  have hmembers : ∀ d, (draftSections d (sections.filter fun s => !s.isEmpty)) = d ∨
      Continues d (draftSections d (sections.filter fun s => !s.isEmpty)) := by
    intro d
    by_cases hnone : sections.filter (fun s => !s.isEmpty) = []
    · exact .inl (by rw [hnone]; rfl)
    · refine .inr (continues_draftSections hnone ?_ d)
      intro s hs
      obtain ⟨hmem, hfilled⟩ := List.mem_filter.1 hs
      exact (hsections s hmem).block (by simpa using hfilled)
  have hbody : ∀ d, Continues d (((d.addLines attributes).line classLine).braced fun d =>
      draftSections d (sections.filter fun s => !s.isEmpty)) := by
    intro d
    have hheaded := continues_headed hclass hmembers (d.addLines attributes)
    rcases continues_addLines hattributes d with heq | hlines
    · rwa [heq] at hheaded ⊢
    · exact hlines.trans hheaded
  have hnameSpace : IsPlain s!"namespace {nameSpace}" :=
    .of_blank (by simp [ToString.toString])
  obtain ⟨d, hd, heq⟩ := exists_continues_blank indentSize sourceName imports
  have hfile := hd.separated (continues_headed hnameSpace (fun d => .inr (hbody d)) d.blank)
  rwa [← heq] at hfile

end ClassFile

open ClassFile

/-! ## Files -/

theorem PrimaryClass.isPlain_converterAttribute (className : String) :
    IsPlain (converterAttribute className) := by
  unfold converterAttribute
  exact .of_mem '[' (by simp [ToString.toString]) (by decide) (by decide)

/-- The file of a class is well laid. -/
theorem PrimaryClass.continues_draft (p : Platform) (indentSize : Int) (c : PrimaryClass) :
    Continues (empty indentSize) (c.draft p indentSize) := by
  refine continues_draftFile indentSize _ _ _ ?_ ?_ fun s hs => isSection_of_mem_sections hs
  · intro text htext
    cases hconverter : c.hasConverter with
    | false => simp [hconverter] at htext
    | true =>
        obtain rfl : text = converterAttribute c.name := by simpa [hconverter] using htext
        exact isPlain_converterAttribute c.name
  · exact .of_blank (by simp [ToString.toString])

/-- The file of an attached class is well laid. -/
theorem AttachedClass.continues_draft (indentSize : Int) (sourceName : String) (c : AttachedClass) :
    Continues (empty indentSize) (c.draft indentSize sourceName) := by
  refine continues_draftFile indentSize _ _ _ (by simp) ?_ ?_
  · exact .of_blank (by simp [ToString.toString])
  · intro s hs
    obtain rfl := List.mem_singleton.1 hs
    exact isSection_draftAll (Delegation.continues_draft c.primaryName) indentSize c.delegations

/-- The file of extension methods is well laid. -/
theorem ExtensionClass.continues_draft (indentSize : Int) (sourceName : String)
    (c : ExtensionClass) : Continues (empty indentSize) (c.draft indentSize sourceName) := by
  refine continues_draftFile indentSize _ _ _ (by simp) ?_ ?_
  · exact .of_blank (by simp [ToString.toString])
  · intro s hs
    obtain rfl := List.mem_singleton.1 hs
    exact isSection_draftAll ExtensionMethod.continues_draft indentSize c.methods

/-- Every file of an element is well laid. -/
theorem ClassSet.continues_of_mem_drafts {t : Target} {s : ClassSet} {d : Draft}
    (h : d ∈ s.drafts t) : Continues (empty t.indentSize) d := by
  unfold drafts at h
  rcases List.mem_cons.1 h with rfl | hother
  · exact PrimaryClass.continues_draft t.platform t.indentSize s.primary
  · rcases List.mem_append.1 hother with hattached | hextensions
    · obtain ⟨c, -, rfl⟩ := Option.map_eq_some_iff.1 (Option.mem_toList.1 hattached)
      exact AttachedClass.continues_draft t.indentSize s.sourceName c
    · obtain ⟨c, -, rfl⟩ := Option.map_eq_some_iff.1 (Option.mem_toList.1 hextensions)
      exact ExtensionClass.continues_draft t.indentSize s.sourceName c

/-- Every generated file is well laid, whatever members its class has: its braces are balanced and
every line is as deep as the braces around it, and blank lines only stand between other lines, at no
depth, never next to each other, below an opening brace or above a closing one.  The file ends where it
began, at no depth. -/
theorem generate_wellLaid {t : Target} {e : ModelElement} {files : List GeneratedFile}
    (h : generate t e = .ok files) : ∀ f ∈ files, WellLaid f.draft.lines ∧ f.draft.depth = 0 := by
  intro f hf
  obtain ⟨classes, -, hfiles⟩ := bind_eq_ok.1 h
  have hmem : f.draft ∈ classes.drafts t := by
    rw [(ClassSet.files_eq_ok hfiles).2]
    exact List.mem_map_of_mem hf
  have hdraft := ClassSet.continues_of_mem_drafts hmem
  obtain ⟨ls, hls, hlines⟩ := hdraft.lines
  constructor
  · rw [hlines]
    exact hls.wellLaid
  · exact hdraft.depth

/-- Classes for Windows Presentation Foundation, with collections of elements. -/
def Target.wpfElements : Target :=
  { wpfSrc with collections := .ofList [("ElementCollection", "Element")] }

/-! A panel with a fluent property, one that is converted, a collection and an attached property that
cannot be set. -/

private def panelElement : ModelElement where
  declaration :=
    ⟨"IPanel", "Microsoft.StandardUI", ["System"],
      [⟨"Width", "double", none, true, []⟩, ⟨"Origin", "Point", none, false, []⟩,
        ⟨"Children", "IElementCollection", none, false, []⟩], [], [], none⟩
  companion := some ⟨"IPanelAttached", "Microsoft.StandardUI", [], [], [], [], none⟩
  attached := [⟨"Row", ⟨"GetRow", "int", [⟨"element", "IElement"⟩]⟩, none⟩]

theorem generate_wellLaid_panel :
    ∃ files, generate Target.wpfElements panelElement = .ok files ∧
      files.map (fun f => (f.className, f.draft.lines.length)) =
        [("Panel", 51), ("PanelAttached", 13), ("PanelExtensions", 15)] ∧
        ∀ f ∈ files, WellLaid f.draft.lines ∧ f.draft.depth = 0 := by
  have hlengths : (generate Target.wpfElements panelElement).map
      (fun files => files.map fun f => (f.className, f.draft.lines.length)) =
        .ok [("Panel", 51), ("PanelAttached", 13), ("PanelExtensions", 15)] := by
    decide +kernel
  obtain ⟨files, hfiles, hclasses⟩ := map_eq_ok.1 hlengths
  exact ⟨files, hfiles, hclasses, generate_wellLaid hfiles⟩

end PlatformClasses
