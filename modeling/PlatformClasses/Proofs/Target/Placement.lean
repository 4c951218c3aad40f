import PlatformClasses.Proofs.ClassFile.Faults

/-!
# Where classes are placed

The file of a class goes to the directory of generated files in a project, below which there is one
directory for each segment of the namespace after the root that the namespace lies in.  Cutting what
follows a root at its dots loses nothing (`segments_of_below?`), so the steps below the directory of
generated files tell the namespace once the root is known, and the project tells the root.

`PlacedIn` says all of this about one namespace; `pathOf_contained_inj` is what it gives for the paths of
two classes.
-/

namespace PlatformClasses

namespace Text

/-! ## Dotted names -/

/-- Texts one after the other, each after a dot. -/
def dotted : List String → String
  | [] => ""
  | s :: rest => "." ++ s ++ dotted rest

theorem piecesOf_append_cons (separator : Char) (xs ys : List Char) :
    piecesOf separator (xs ++ separator :: ys) = piecesOf separator xs ++ piecesOf separator ys := by
  induction xs with
  | nil => simp [piecesOf]
  | cons x xs ih =>
      by_cases hx : x = separator
      · simp [piecesOf, hx, ih]
      · cases hpieces : piecesOf separator xs with
        | nil => exact absurd hpieces (piecesOf_ne_nil separator xs)
        | cons piece pieces => simp [piecesOf, hx, ih, hpieces]

theorem pieces_append_dot (s t : String) :
    pieces '.' (s ++ ("." ++ t)) = pieces '.' s ++ pieces '.' t := by
  have hcut := piecesOf_append_cons '.' s.toList t.toList
  simp [pieces, hcut]

/-- The pieces of a text between its dots make up the text. -/
theorem dotted_pieces (s : String) : dotted (pieces '.' s) = "." ++ s := by
  have hchars : ∀ cs : List Char,
      (dotted ((piecesOf '.' cs).map String.ofList)).toList = '.' :: cs := by
    intro cs
    induction cs with
    | nil => simp [piecesOf, dotted]
    | cons c rest ih =>
        by_cases hc : c = '.'
        · simp [piecesOf, hc, dotted, ih]
        · cases hpieces : piecesOf '.' rest with
          | nil => exact absurd hpieces (piecesOf_ne_nil '.' rest)
          | cons piece pieces =>
              have htail : piece ++ (dotted (pieces.map String.ofList)).toList = rest := by
                simpa [hpieces, dotted] using ih
              simp [piecesOf, hc, hpieces, dotted, htail]
  rw [← String.toList_inj, pieces, hchars]
  simp

end Text

/-- What places need of an identifier: it is not empty, and holds neither the dots between segments nor
the slashes between components. -/
structure IsSegment (s : String) : Prop where
  nonempty : s ≠ ""
  noDot : '.' ∉ s.toList
  noSlash : '/' ∉ s.toList

instance (s : String) : Decidable (IsSegment s) :=
  decidable_of_iff (s ≠ "" ∧ '.' ∉ s.toList ∧ '/' ∉ s.toList)
    ⟨fun h => ⟨h.1, h.2.1, h.2.2⟩, fun h => ⟨h.nonempty, h.noDot, h.noSlash⟩⟩

/-- A dotted name: what stands between its dots are identifiers. -/
def IsDotted (s : String) : Prop := ∀ piece ∈ Text.pieces '.' s, IsSegment piece

instance (s : String) : Decidable (IsDotted s) :=
  inferInstanceAs (Decidable (∀ piece ∈ Text.pieces '.' s, IsSegment piece))

namespace IsSegment

variable {s : String}

theorem ne_of_dot_mem (h : IsSegment s) {text : String} (htext : '.' ∈ text.toList) : s ≠ text := by
  rintro rfl
  exact h.noDot htext

theorem isComponent (h : IsSegment s) : Path.IsComponent s where
  isStep := by
    have hdot : s ≠ "." := h.ne_of_dot_mem (by decide)
    simp [Path.isStep, h.nonempty, hdot]
  noSlash := h.noSlash

theorem isClassName (h : IsSegment s) : Path.IsClassName s where
  begins := by
    cases hs : s.toList with
    | nil => exact absurd (String.toList_inj.1 hs) h.nonempty
    | cons c rest =>
        refine ⟨c, rest, hs, ?_, ?_⟩
        · rintro rfl
          exact h.noSlash (by simp [hs])
        · rintro rfl
          exact h.noDot (by simp [hs])
  noSlash := h.noSlash

end IsSegment

namespace Path

/-! ## Going on from a directory -/

theorem join_of_relative (d : Path) {s : String} (h : (ofString s).anchor = 0) :
    d.join s = d.extend (ofString s).components := by
  simp [join, append, extend, h]

theorem foldl_join (d : Path) (steps : List String) (h : ∀ s ∈ steps, IsComponent s) :
    steps.foldl join d = d.extend steps := by
  induction steps generalizing d with
  | nil => simp [extend]
  | cons s rest ih =>
      have hs : d.join s = d.extend [s] := by
        have hcomponent := ofString_of_isComponent (h s List.mem_cons_self)
        rw [join_of_relative d (by rw [hcomponent]), hcomponent]
      rw [List.foldl_cons, ih _ fun s hs => h s (List.mem_cons_of_mem _ hs), hs, extend_extend,
        List.singleton_append]

/-- A path lies below a directory: it goes on from there, and no step leads up again. -/
def LiesBelow (d p : Path) : Prop :=
  ∃ steps, steps ≠ [] ∧ (∀ s ∈ steps, IsComponent s ∧ s ≠ "..") ∧ p = d.extend steps

end Path

theorem Platform.isComponent_projectDirectory {p : Platform} (h : p ∈ all) :
    Path.IsComponent p.projectDirectory := by
  have hall : ∀ p ∈ all, Path.isStep p.projectDirectory = true ∧
      '/' ∉ p.projectDirectory.toList := by
    decide
  exact ⟨(hall p h).1, (hall p h).2⟩

namespace Target

/-! ## Namespaces and their directories -/

/-- The segments of what follows a root in a namespace. -/
def segmentsOf (rest : String) : List String := (Text.pieces '.' rest).filter (· != "")

/-- The directory of generated files in a project. -/
def generatedIn (t : Target) (project : String) : Path :=
  (t.outputRoot.join project).join t.generatedDirectory

/-- Cutting what follows a root at its dots, and leaving out the empty piece before the first of them,
loses nothing. -/
theorem segments_of_below? {root nameSpace rest : String} (hname : IsDotted nameSpace)
    (h : below? root nameSpace = some rest) :
    (∀ s ∈ segmentsOf rest, IsSegment s) ∧ Text.dotted (segmentsOf rest) = rest := by
  obtain ⟨rfl, hrest⟩ := eq_append_of_below? h
  rcases hrest with rfl | ⟨more, rfl⟩
  · have hnone : segmentsOf "" = [] := by decide
    simp [hnone, Text.dotted]
  · have hsegments : ∀ s ∈ Text.pieces '.' more, IsSegment s := by
      intro s hs
      apply hname
      rw [Text.pieces_append_dot]
      exact List.mem_append_right _ hs
    have hkept : segmentsOf ("." ++ more) = Text.pieces '.' more := by
      have hcut : Text.pieces '.' ("." ++ more) = "" :: Text.pieces '.' more := by
        simp [Text.pieces, Text.piecesOf]
      rw [segmentsOf, hcut, List.filter_cons_of_neg (by simp)]
      exact List.filter_eq_self.2 fun s hs => by simp [(hsegments s hs).nonempty]
    rw [hkept]
    exact ⟨hsegments, Text.dotted_pieces more⟩

/-- Where a namespace is placed: in a project, whose root namespace it lies in, and by which steps below
the directory of generated files. -/
structure PlacedIn (t : Target) (nameSpace project root : String) (steps : List String) :
    Prop where
  /-- The project is that of the platform, or the shared one if the platform's root does not hold the
  namespace. -/
  side : (project = t.platform.projectDirectory ∧ root = t.platform.destinationRoot) ∨
    (project = t.sharedProject ∧ root = t.rootNamespace ∧
      below? t.platform.destinationRoot nameSpace = none)
  name : nameSpace = root ++ Text.dotted steps
  segments : ∀ s ∈ steps, IsSegment s
  directory : t.directoryOf nameSpace = .ok ((t.generatedIn project).extend steps)

theorem directoryIn_eq_extend (t : Target) (project : String) {rest : String}
    (h : ∀ s ∈ segmentsOf rest, IsSegment s) :
    t.directoryIn project rest = (t.generatedIn project).extend (segmentsOf rest) := by
  exact Path.foldl_join _ _ fun s hs => (h s hs).isComponent

/-- A dotted namespace that has a directory is placed in one of the two projects. -/
theorem exists_placedIn {t : Target} {nameSpace : String} {directory : Path}
    (hname : IsDotted nameSpace) (h : t.directoryOf nameSpace = .ok directory) :
    ∃ project root steps, t.PlacedIn nameSpace project root steps := by
  unfold directoryOf at h
  cases hdestination : below? t.platform.destinationRoot nameSpace with
  | some rest =>
      obtain ⟨hsegments, hdotted⟩ := segments_of_below? hname hdestination
      refine ⟨_, _, segmentsOf rest, .inl ⟨rfl, rfl⟩, ?_, hsegments, ?_⟩
      · rw [hdotted]
        exact (eq_append_of_below? hdestination).1
      · simp only [directoryOf, hdestination, directoryIn_eq_extend t _ hsegments]
  | none =>
      cases hroot : below? t.rootNamespace nameSpace with
      | none => simp [hdestination, hroot] at h
      | some rest =>
          obtain ⟨hsegments, hdotted⟩ := segments_of_below? hname hroot
          refine ⟨_, _, segmentsOf rest, .inr ⟨rfl, rfl, hdestination⟩, ?_, hsegments, ?_⟩
          · rw [hdotted]
            exact (eq_append_of_below? hroot).1
          · simp only [directoryOf, hdestination, hroot, directoryIn_eq_extend t _ hsegments]

/-- The steps to the file of a class below the directory of its namespace. -/
def fileSteps (t : Target) (className : String) : List String :=
  (Path.ofString (fileName className t.fileExtension)).components

/-- The file of a class goes on from the directory of its namespace. -/
theorem pathOf_eq_ok {t : Target} {nameSpace className : String} {p : Path}
    (hname : IsDotted nameSpace) (hclass : Path.BeginsName className)
    (hp : t.pathOf nameSpace className = .ok p) :
    ∃ project root steps, t.PlacedIn nameSpace project root steps ∧
      p = (t.generatedIn project).extend (steps ++ t.fileSteps className) := by
  obtain ⟨directory, hdirectory, rfl⟩ := map_eq_ok.1 hp
  obtain ⟨project, root, steps, hplaced⟩ := exists_placedIn hname hdirectory
  refine ⟨project, root, steps, hplaced, ?_⟩
  obtain rfl := Except.ok.inj (hdirectory.symm.trans hplaced.directory)
  have hrelative : (Path.ofString (fileName className t.fileExtension)).anchor = 0 :=
    Path.anchorOf_of_beginsName (hclass.append _)
  rw [Path.join_of_relative _ hrelative, Path.extend_extend, fileSteps]

/-- The directory of generated files in a project that is one component. -/
theorem generatedIn_eq_extend (t : Target) {project component : String}
    (hproject : Path.ofString project = ⟨0, [component]⟩)
    (hgenerated : (Path.ofString t.generatedDirectory).anchor = 0) :
    t.generatedIn project =
      t.outputRoot.extend (component :: (Path.ofString t.generatedDirectory).components) := by
  have hrelative : (Path.ofString project).anchor = 0 := by rw [hproject]
  rw [generatedIn, Path.join_of_relative _ hgenerated, Path.join_of_relative _ hrelative, hproject,
    Path.extend_extend, List.singleton_append]

/-! ## Paths of classes -/

/-- With an ending without slashes, the file of a class is one step below the directory. -/
theorem fileSteps_eq_singleton {t : Target} (hextension : '/' ∉ t.fileExtension.toList)
    {className : String} (hclass : Path.IsClassName className) :
    t.fileSteps className = [className ++ t.fileExtension] := by
  have hpieces := Text.piecesOf_of_not_mem hextension
  rw [fileSteps, fileName, Path.ofString_classFile hclass _ hpieces]
  simp

theorem isComponent_file {className extension : String} (hclass : IsSegment className)
    (hextension : '/' ∉ extension.toList) :
    Path.IsComponent (className ++ extension) ∧ className ++ extension ≠ ".." := by
  have hbegins := hclass.isClassName.begins.append extension
  refine ⟨⟨Path.isStep_of_beginsName hbegins, ?_⟩, ?_⟩
  · simp [hclass.noSlash, hextension]
  · intro hup
    obtain ⟨c, rest, hcs, -, hdot⟩ := hbegins
    rw [hup] at hcs
    have hc : '.' = c := (List.cons.inj hcs).1
    exact hdot hc.symm

/-- The file of a class lies below the directory of generated files of its project. -/
theorem liesBelow_of_pathOf {t : Target} (hextension : '/' ∉ t.fileExtension.toList)
    {nameSpace className project root : String} {steps : List String}
    (hclass : IsSegment className) (hplaced : t.PlacedIn nameSpace project root steps) :
    (t.generatedIn project).LiesBelow
      ((t.generatedIn project).extend (steps ++ t.fileSteps className)) := by
  refine ⟨steps ++ t.fileSteps className, ?_, ?_, rfl⟩
  · rw [fileSteps_eq_singleton hextension hclass.isClassName]
    simp
  · intro s hs
    rw [fileSteps_eq_singleton hextension hclass.isClassName] at hs
    rcases List.mem_append.1 hs with hs | hs
    · have hsegment := hplaced.segments s hs
      exact ⟨hsegment.isComponent, hsegment.ne_of_dot_mem (by decide)⟩
    · obtain rfl := List.mem_singleton.1 hs
      exact isComponent_file hclass hextension

/-- Projects whose directories are different components hold different files, and a project tells the
root of the namespaces in it. -/
theorem placedIn_inj {t : Target} (hproject : Path.IsComponent t.platform.projectDirectory)
    {shared : String}
    (hshared : Path.ofString t.sharedProject = ⟨0, [shared]⟩)
    (hdistinct : shared ≠ t.platform.projectDirectory)
    (hgenerated : (Path.ofString t.generatedDirectory).anchor = 0)
    {nameSpace nameSpace' project project' root root' : String} {steps steps' : List String}
    {file file' : List String} (hplaced : t.PlacedIn nameSpace project root steps)
    (hplaced' : t.PlacedIn nameSpace' project' root' steps')
    (h : (t.generatedIn project).extend (steps ++ file) =
      (t.generatedIn project').extend (steps' ++ file')) :
    root = root' ∧ steps ++ file = steps' ++ file' := by
  have hown := Path.ofString_of_isComponent hproject
  have hownFiles := t.generatedIn_eq_extend hown hgenerated
  have hsharedFiles := t.generatedIn_eq_extend hshared hgenerated
  rcases hplaced.side with ⟨rfl, rfl⟩ | ⟨rfl, rfl, -⟩
  · rcases hplaced'.side with ⟨rfl, rfl⟩ | ⟨rfl, rfl, -⟩
    · exact ⟨rfl, (Path.extend_inj _).1 h⟩
    · rw [hownFiles, hsharedFiles, Path.extend_extend, Path.extend_extend, Path.extend_inj] at h
      exact absurd (List.cons.inj h).1.symm hdistinct
  · rcases hplaced'.side with ⟨rfl, rfl⟩ | ⟨rfl, rfl, -⟩
    · rw [hownFiles, hsharedFiles, Path.extend_extend, Path.extend_extend, Path.extend_inj] at h
      exact absurd (List.cons.inj h).1 hdistinct
    · exact ⟨rfl, (Path.extend_inj _).1 h⟩

/-- The file of every class lies below the directory of generated files of the platform's project or of
the shared one, and two classes have the same file only if they have the same namespace and the same
name.  The project of a platform may have any name that is one component of a path. -/
theorem pathOf_contained_inj {t : Target} (hproject : Path.IsComponent t.platform.projectDirectory)
    {shared : String}
    (hshared : Path.ofString t.sharedProject = ⟨0, [shared]⟩)
    (hdistinct : shared ≠ t.platform.projectDirectory)
    (hgenerated : (Path.ofString t.generatedDirectory).anchor = 0)
    (hextension : '/' ∉ t.fileExtension.toList)
    {nameSpace nameSpace' className className' : String} {p p' : Path}
    (hname : IsDotted nameSpace) (hname' : IsDotted nameSpace')
    (hclass : IsSegment className) (hclass' : IsSegment className')
    (hp : t.pathOf nameSpace className = .ok p) (hp' : t.pathOf nameSpace' className' = .ok p') :
    let projects := [t.platform.projectDirectory, t.sharedProject]
    (∃ project ∈ projects, (t.generatedIn project).LiesBelow p) ∧
      (∃ project ∈ projects, (t.generatedIn project).LiesBelow p') ∧
        (p = p' → nameSpace = nameSpace' ∧ className = className') := by
  intro projects
  obtain ⟨project, root, steps, hplaced, rfl⟩ := pathOf_eq_ok hname hclass.isClassName.begins hp
  obtain ⟨project', root', steps', hplaced', rfl⟩ :=
    pathOf_eq_ok hname' hclass'.isClassName.begins hp'
  have hmem : ∀ {nameSpace project root : String} {steps : List String},
      t.PlacedIn nameSpace project root steps → project ∈ projects := by
    intro nameSpace project root steps h
    rcases h.side with ⟨rfl, -⟩ | ⟨rfl, -, -⟩
    · exact List.mem_cons_self
    · exact List.mem_cons_of_mem _ List.mem_cons_self
  refine ⟨⟨project, hmem hplaced, liesBelow_of_pathOf hextension hclass hplaced⟩,
    ⟨project', hmem hplaced', liesBelow_of_pathOf hextension hclass' hplaced'⟩, ?_⟩
  intro heq
  obtain ⟨rfl, hsteps⟩ :=
    placedIn_inj hproject hshared hdistinct hgenerated hplaced hplaced' heq
  rw [fileSteps_eq_singleton hextension hclass.isClassName,
    fileSteps_eq_singleton hextension hclass'.isClassName] at hsteps
  obtain ⟨rfl, hfile⟩ := List.append_inj' hsteps rfl
  refine ⟨hplaced.name.trans hplaced'.name.symm, ?_⟩
  exact (String.append_left_inj _).1 (List.cons.inj hfile).1

/-- The class of an interface and the class of its extension methods, whose namespaces lie in one
another. -/
theorem pathOf_contained_inj_line :
    let p : Path := ⟨0, ["src", "StandardUI.WPF", "generated", "Shapes", "Line.cs"]⟩
    let p' : Path := ⟨0, ["src", "StandardUI", "generated", "Shapes", "LineExtensions.cs"]⟩
    wpfSrc.pathOf "Microsoft.StandardUI.Wpf.Shapes" "Line" = .ok p ∧
      wpfSrc.pathOf "Microsoft.StandardUI.Shapes" "LineExtensions" = .ok p' ∧
        (∃ project ∈ ["StandardUI.WPF", "StandardUI"], (wpfSrc.generatedIn project).LiesBelow p) ∧
          (∃ project ∈ ["StandardUI.WPF", "StandardUI"], (wpfSrc.generatedIn project).LiesBelow p') ∧
            (p = p' → "Microsoft.StandardUI.Wpf.Shapes" = "Microsoft.StandardUI.Shapes" ∧
              "Line" = "LineExtensions") := by
  intro p p'
  have hp : wpfSrc.pathOf "Microsoft.StandardUI.Wpf.Shapes" "Line" = .ok p := by decide +kernel
  have hp' : wpfSrc.pathOf "Microsoft.StandardUI.Shapes" "LineExtensions" = .ok p' := by decide +kernel
  have hname : IsDotted "Microsoft.StandardUI.Wpf.Shapes" := by decide +kernel
  have hname' : IsDotted "Microsoft.StandardUI.Shapes" := by decide +kernel
  have hclass : IsSegment "Line" := by decide +kernel
  have hclass' : IsSegment "LineExtensions" := by decide +kernel
  have hshared : Path.ofString wpfSrc.sharedProject = ⟨0, ["StandardUI"]⟩ := by decide +kernel
  have hgenerated : (Path.ofString wpfSrc.generatedDirectory).anchor = 0 := by decide +kernel
  have hproject : Path.IsComponent wpfSrc.platform.projectDirectory :=
    Platform.isComponent_projectDirectory (by decide)
  exact ⟨hp, hp', pathOf_contained_inj hproject hshared (by decide) hgenerated (by decide)
    hname hname' hclass hclass' hp hp'⟩

end Target

end PlatformClasses
