import PlatformClasses.Proofs.ClassFile.Layout
import PlatformClasses.Proofs.ClassFile.MemberLines

/-!
# The contents of files

Each of the three classes of an element has a file of its own, and `PrimaryClass.lines`,
`AttachedClass.lines` and `ExtensionClass.lines` say what it contains in terms of the members of the class.
The files of an element are that of its primary class, and those of the attached class and of the
extension methods if there are such classes (`ElementFiles.exists_of_generate`).  So what a file contains
can be proved of the class that is made of the element (`ClassSet.IsMadeOf`).
-/

namespace PlatformClasses

open ClassFile Draft

/-! ## Classes -/

namespace PrimaryClass

/-- The attribute lines of a class. -/
def attributes (c : PrimaryClass) : List String :=
  if c.hasConverter then [converterAttribute c.name] else []

/-- The constructor of a class, if it has anything to assign. -/
def constructor? (c : PrimaryClass) : Option CodeBlock :=
  if c.assignments.isEmpty then none else some (Assignment.constructorBlock c.name c.assignments)

/-- The lines of the members: descriptors, wrappers, constructor and accessors. -/
def memberLines (p : Platform) (c : PrimaryClass) : List String :=
  c.descriptors.map (Descriptor.line p c.name) ++ (c.wrappers.flatMap Wrapper.lines ++
    (c.constructor?.toList.flatMap CodeBlock.lines ++ c.accessors.flatMap Accessor.lines))

/-- The lines of the file of a class. -/
def lines (p : Platform) (c : PrimaryClass) : List String :=
  fileLines c.interfaceName c.imports c.nameSpace c.attributes
    s!"public class {c.name} : {c.baseClass}, {c.interfaceName}" (c.memberLines p)

/-- A file is that of the class. -/
structure IsIn (p : Platform) (c : PrimaryClass) (f : GeneratedFile) : Prop where
  className : f.className = c.name
  lines : f.draft.filledLines = c.lines p

/-- The sections of a class are its members, kind by kind. -/
theorem flatMap_sections (p : Platform) (indentSize : Int) (c : PrimaryClass) :
    (c.sections p indentSize).flatMap filledLines = c.memberLines p := by
  have hdescriptors : ((Draft.empty indentSize).addLines
      (c.descriptors.map (Descriptor.line p c.name))).filledLines =
        c.descriptors.map (Descriptor.line p c.name) := by
    refine filledLines_addLines_of_ne_blank ?_ (Draft.empty indentSize)
    intro text htext
    obtain ⟨d, -, rfl⟩ := List.mem_map.1 htext
    exact (d.isPlain_line p c.name).ne_blank
  have hconstructor : (if c.assignments.isEmpty then Draft.empty indentSize
      else Assignment.draftConstructor c.name c.assignments (Draft.empty indentSize)).filledLines =
        c.constructor?.toList.flatMap CodeBlock.lines := by
    unfold constructor?
    split
    · rfl
    · rw [Assignment.filledLines_draftConstructor]
      simp [filledLines_empty]
  simp only [sections, memberLines, List.flatMap_cons, List.flatMap_nil, List.append_nil,
    hdescriptors, hconstructor, filledLines_draftAll Wrapper.filledLines_draft,
    filledLines_draftAll Accessor.filledLines_draft]

theorem filledLines_draft (p : Platform) (indentSize : Int) (c : PrimaryClass) :
    (c.draft p indentSize).filledLines = c.lines p := by
  have hclass : s!"public class {c.name} : {c.baseClass}, {c.interfaceName}" ≠ "" :=
    (IsPlain.of_blank (by simp [ToString.toString])).ne_blank
  have hattributes : c.attributes.filter (· != "") = c.attributes := by
    rw [List.filter_eq_self]
    intro text htext
    obtain ⟨-, rfl⟩ : c.hasConverter = true ∧ text = converterAttribute c.name := by
      simpa [attributes] using htext
    simpa using (isPlain_converterAttribute c.name).ne_blank
  show (draftFile indentSize c.interfaceName c.imports c.nameSpace c.attributes
    s!"public class {c.name} : {c.baseClass}, {c.interfaceName}" (c.sections p indentSize)).filledLines = _
  rw [filledLines_draftFile _ _ _ _ _ hclass, hattributes, flatMap_sections]
  rfl

/-- The file of a class ends with its members. -/
theorem suffix_memberLines (p : Platform) (c : PrimaryClass) :
    c.memberLines p ++ ["\x7d", "\x7d"] <:+ c.lines p := by
  refine List.IsSuffix.trans ?_ (suffix_fileLines ..)
  exact (List.suffix_cons _ _).trans (List.suffix_cons _ _)

end PrimaryClass

namespace AttachedClass

/-- The lines of the file of an attached class: the methods that delegate to the primary class. -/
def lines (sourceName : String) (c : AttachedClass) : List String :=
  fileLines sourceName c.imports c.nameSpace [] s!"public class {c.name} : {c.interfaceName}"
    (c.delegations.flatMap (Delegation.lines c.primaryName))

/-- A file is that of the attached class. -/
structure IsIn (sourceName : String) (c : AttachedClass) (f : GeneratedFile) : Prop where
  className : f.className = c.name
  lines : f.draft.filledLines = c.lines sourceName

theorem filledLines_draft (indentSize : Int) (sourceName : String) (c : AttachedClass) :
    (c.draft indentSize sourceName).filledLines = c.lines sourceName := by
  have hclass : s!"public class {c.name} : {c.interfaceName}" ≠ "" :=
    (IsPlain.of_blank (by simp [ToString.toString])).ne_blank
  rw [draft, filledLines_draftFile _ _ _ _ _ hclass, List.flatMap_singleton,
    filledLines_draftAll (Delegation.filledLines_draft c.primaryName)]
  rfl

end AttachedClass

namespace ExtensionClass

/-- The lines of the file of a class of extension methods. -/
def lines (sourceName : String) (c : ExtensionClass) : List String :=
  fileLines sourceName c.imports c.nameSpace [] s!"public static class {c.name}"
    (c.methods.flatMap (·.block.lines))

/-- A file is that of the class of extension methods. -/
structure IsIn (sourceName : String) (c : ExtensionClass) (f : GeneratedFile) : Prop where
  className : f.className = c.name
  lines : f.draft.filledLines = c.lines sourceName

theorem filledLines_draft (indentSize : Int) (sourceName : String) (c : ExtensionClass) :
    (c.draft indentSize sourceName).filledLines = c.lines sourceName := by
  have hclass : s!"public static class {c.name}" ≠ "" :=
    (IsPlain.of_blank (by simp [ToString.toString])).ne_blank
  rw [draft, filledLines_draftFile _ _ _ _ _ hclass, List.flatMap_singleton,
    filledLines_draftAll ExtensionMethod.filledLines_draft]
  rfl

end ExtensionClass

/-! ## The files of an element -/

theorem isSome_of_rel {α β : Type} {R : α → β → Prop} {a : Option α} {b : Option β}
    (h : Option.Rel R a b) : b.isSome = a.isSome := by
  cases h <;> rfl

/-- What is there on one side is there on the other, and related. -/
theorem exists_of_rel {α β : Type} {R : α → β → Prop} {a : Option α} {b : Option β}
    (h : Option.Rel R a b) {x : α} (hx : a = some x) : ∃ y, b = some y ∧ R x y := by
  cases h with
  | none => simp at hx
  | some hxy =>
      obtain rfl := Option.some.inj hx
      exact ⟨_, rfl, hxy⟩

/-- The files of an element, by their classes. -/
structure ElementFiles where
  primary : GeneratedFile
  attached : Option GeneratedFile
  extensions : Option GeneratedFile

namespace ElementFiles

/-- The files, in their order. -/
def toList (fs : ElementFiles) : List GeneratedFile :=
  fs.primary :: (fs.attached.toList ++ fs.extensions.toList)

/-- There is a file for each of some classes, and it is that of the class. -/
structure Hold (p : Platform) (s : ClassSet) (fs : ElementFiles) : Prop where
  primary : s.primary.IsIn p fs.primary
  attached : Option.Rel (AttachedClass.IsIn s.sourceName) s.attached fs.attached
  extensions : Option.Rel (ExtensionClass.IsIn s.sourceName) s.extensions fs.extensions

/-- An optional class has a file if it is there. -/
theorem exists_optionalFile {α : Type} {t : Target} {place : α → Destination} {draft : α → Draft}
    {R : α → GeneratedFile → Prop} {c : Option α} {files : List GeneratedFile}
    (h : ClassSet.optionalFile t place draft c = .ok files)
    (hR : ∀ c path, R c ⟨path, (place c).className, draft c⟩) :
    ∃ f : Option GeneratedFile, files = f.toList ∧ Option.Rel R c f := by
  cases c with
  | none =>
      obtain rfl : [] = files := by simpa [ClassSet.optionalFile] using h
      exact ⟨none, rfl, .none⟩
  | some c =>
      obtain ⟨path, -, rfl⟩ := map_eq_ok.1 h
      exact ⟨some ⟨path, (place c).className, draft c⟩, rfl, .some (hR c path)⟩

/-- The files of classes hold them. -/
theorem exists_hold {t : Target} {s : ClassSet} {files : List GeneratedFile}
    (h : s.files t = .ok files) : ∃ fs : ElementFiles, files = fs.toList ∧ fs.Hold t.platform s := by
  rw [ClassSet.files_eq] at h
  obtain ⟨path, -, h⟩ := bind_eq_ok.1 h
  obtain ⟨attachedFiles, hattached, h⟩ := bind_eq_ok.1 h
  obtain ⟨extensionFiles, hextensions, h⟩ := bind_eq_ok.1 h
  obtain rfl := pure_eq_ok.1 h
  obtain ⟨attached, rfl, hattachedClass⟩ := exists_optionalFile hattached
    (R := AttachedClass.IsIn s.sourceName) fun c _ => ⟨rfl, c.filledLines_draft _ _⟩
  obtain ⟨extensions, rfl, hextensionClass⟩ := exists_optionalFile hextensions
    (R := ExtensionClass.IsIn s.sourceName) fun c _ => ⟨rfl, c.filledLines_draft _ _⟩
  refine ⟨⟨⟨path, s.primary.name, s.primary.draft t.platform t.indentSize⟩, attached, extensions⟩,
    rfl, ?_, hattachedClass, hextensionClass⟩
  exact ⟨rfl, s.primary.filledLines_draft _ _⟩

/-- The files of an element hold the classes that are made of it. -/
theorem exists_of_generate {t : Target} {e : ModelElement} {files : List GeneratedFile}
    (h : generate t e = .ok files) :
    ∃ fs s names properties attached base, files = toList fs ∧ fs.Hold t.platform s ∧
      ClassSet.IsMadeOf t e s names properties attached base := by
  obtain ⟨s, hs, hfiles⟩ := bind_eq_ok.1 h
  obtain ⟨fs, rfl, hold⟩ := exists_hold hfiles
  obtain ⟨names, properties, attached, base, hmade⟩ := ClassSet.exists_isMadeOf hs
  exact ⟨fs, s, names, properties, attached, base, rfl, hold, hmade⟩

end ElementFiles

end PlatformClasses
