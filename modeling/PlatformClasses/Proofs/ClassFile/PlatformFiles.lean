import PlatformClasses.Proofs.ClassFile.Clashes
import PlatformClasses.Proofs.FileTree.Overwriting
import PlatformClasses.Proofs.Target.Placement

/-!
# The files of several platforms

Each platform has a project of its own, and all of them write extension methods to the shared one.  As
long as the ending of file names does not lead up again, the project of a file can be read off its place
(`same_file`).  So files of two platforms only meet in the shared project.  There they are the extension
methods of one namespace and one class, and those are the same for every platform.

The result is `lastAt?_eq`: where two platforms write to one place, they leave the same file there,
whichever of their elements write it.
-/

namespace PlatformClasses

namespace Target

/-- The target for another platform. -/
def withPlatform (t : Target) (p : Platform) : Target := { t with platform := p }

/-- A target with a known platform and the usual directories, whose file names do not lead up. -/
structure IsUsual (t : Target) : Prop where
  platform : t.platform ∈ Platform.all
  sharedProject : t.sharedProject = "StandardUI"
  generatedDirectory : t.generatedDirectory = "generated"
  staysBelow : ".." ∉ (Text.pieces '/' t.fileExtension).tail

variable {t : Target}

theorem IsUsual.withPlatform (ht : t.IsUsual) {p : Platform} (hp : p ∈ Platform.all) :
    (t.withPlatform p).IsUsual := { ht with platform := hp }

/-! ## Files of classes -/

/-- The file of a class is its name with the ending, and the steps of the ending. -/
theorem exists_fileSteps (ht : t.IsUsual) : ∃ first more, ".." ∉ more ∧
    ∀ className, Path.IsClassName className → t.fileSteps className = (className ++ first) :: more := by
  cases hending : Text.piecesOf '/' t.fileExtension.toList with
  | nil => exact absurd hending (Text.piecesOf_ne_nil '/' _)
  | cons piece pieces =>
      refine ⟨String.ofList piece, (pieces.map String.ofList).filter Path.isStep, ?_, ?_⟩
      · intro hup
        refine ht.staysBelow ?_
        rw [Text.pieces, hending]
        exact (List.mem_filter.1 hup).1
      · intro className hclass
        rw [fileSteps, fileName, Path.ofString_classFile hclass _ hending]

/-- The projects that a target has files in. -/
def projects (t : Target) : List String := [t.platform.projectDirectory, "StandardUI"]

theorem PlacedIn.project_mem (ht : t.IsUsual) {nameSpace project root : String}
    {steps : List String} (h : t.PlacedIn nameSpace project root steps) : project ∈ t.projects := by
  rcases h.side with ⟨rfl, -⟩ | ⟨rfl, -, -⟩
  · exact List.mem_cons_self
  · rw [ht.sharedProject]
    exact List.mem_cons_of_mem _ List.mem_cons_self

/-- The place of the file of a class: in a project of the target, below the directory of generated
files, by the steps of the namespace and those of the file. -/
theorem place_of_pathOf (here : List String) (ht : t.IsUsual) {nameSpace className : String} {p : Path}
    (hname : IsDotted nameSpace) (hclass : Path.IsClassName className)
    (hp : t.pathOf nameSpace className = .ok p) :
    ∃ project root steps, t.PlacedIn nameSpace project root steps ∧
      FileTree.place here p = (FileTree.place here t.outputRoot).extend
        (project :: "generated" :: (steps ++ t.fileSteps className)) := by
  obtain ⟨project, root, steps, hplaced, rfl⟩ := pathOf_eq_ok hname hclass.begins hp
  refine ⟨project, root, steps, hplaced, ?_⟩
  have hcomponent : Path.IsComponent project ∧ project ≠ ".." := by
    have hall : ∀ p ∈ Platform.all, p.projectDirectory ≠ ".." := by decide
    have hmem := hplaced.project_mem ht
    simp only [projects, List.mem_cons, List.not_mem_nil, or_false] at hmem
    rcases hmem with rfl | rfl
    · exact ⟨Platform.isComponent_projectDirectory ht.platform, hall _ ht.platform⟩
    · exact ⟨⟨by decide, by decide⟩, by decide⟩
  have hgenerated : Path.ofString t.generatedDirectory = ⟨0, ["generated"]⟩ := by
    rw [ht.generatedDirectory]
    exact Path.ofString_of_isComponent ⟨by decide, by decide⟩
  have hdirectory := t.generatedIn_eq_extend (Path.ofString_of_isComponent hcomponent.1)
    (by rw [hgenerated])
  obtain ⟨first, more, hmore, hfile⟩ := exists_fileSteps ht
  have hdown : ".." ∉ project :: "generated" :: (steps ++ t.fileSteps className) := by
    rw [hfile className hclass]
    have hsteps : ".." ∉ steps := fun hup => (hplaced.segments _ hup).ne_of_dot_mem (by decide) rfl
    have hfirst : className ++ first ≠ ".." := by
      intro hup
      obtain ⟨c, rest, hcs, -, hdot⟩ := hclass.begins.append first
      rw [hup] at hcs
      exact hdot (List.cons.inj hcs).1.symm
    simp [hsteps, hmore, Ne.symm hcomponent.2, Ne.symm hfirst]
  rw [hdirectory, hgenerated, Path.extend_extend]
  exact FileTree.place_extend here t.outputRoot hdown

/-- Two classes that two platforms have files for in one place: the project, the steps of the namespace
and the class name are the same. -/
theorem same_file {here : List String} (ht : t.IsUsual) {other : Platform} (hother : other ∈ Platform.all)
    {nameSpace nameSpace' className className' : String} {p p' : Path}
    (hname : IsDotted nameSpace) (hname' : IsDotted nameSpace')
    (hclass : Path.IsClassName className) (hclass' : Path.IsClassName className')
    (hp : t.pathOf nameSpace className = .ok p)
    (hp' : (t.withPlatform other).pathOf nameSpace' className' = .ok p')
    (hplace : FileTree.place here p = FileTree.place here p') :
    className = className' ∧ ∃ project root root' steps,
      t.PlacedIn nameSpace project root steps ∧
        (t.withPlatform other).PlacedIn nameSpace' project root' steps := by
  have ht' := ht.withPlatform hother
  obtain ⟨project, root, steps, hplaced, hfile⟩ := place_of_pathOf here ht hname hclass hp
  obtain ⟨project', root', steps', hplaced', hfile'⟩ := place_of_pathOf here ht' hname' hclass' hp'
  obtain ⟨first, more, -, hsteps⟩ := exists_fileSteps ht
  have hsame : (FileTree.place here t.outputRoot).extend
        (project :: "generated" :: (steps ++ t.fileSteps className)) =
      (FileTree.place here t.outputRoot).extend
        (project' :: "generated" :: (steps' ++ t.fileSteps className')) :=
    hfile.symm.trans (hplace.trans hfile')
  rw [Path.extend_inj, hsteps className hclass, hsteps className' hclass'] at hsame
  obtain ⟨rfl, hrest⟩ := List.cons.inj hsame
  obtain ⟨rfl, hends⟩ := List.append_inj' (List.cons.inj hrest).2 rfl
  exact ⟨(String.append_left_inj _).1 (List.cons.inj hends).1, project, root, root', steps,
    hplaced, hplaced'⟩

/-- Files of two platforms meet only in the shared project, and there only if they are files of one
class in one namespace. -/
theorem same_file_of_ne {here : List String} (ht : t.IsUsual) {other : Platform}
    (hother : other ∈ Platform.all) (hne : t.platform ≠ other)
    {nameSpace nameSpace' className className' : String} {p p' : Path}
    (hname : IsDotted nameSpace) (hname' : IsDotted nameSpace')
    (hclass : Path.IsClassName className) (hclass' : Path.IsClassName className')
    (hp : t.pathOf nameSpace className = .ok p)
    (hp' : (t.withPlatform other).pathOf nameSpace' className' = .ok p')
    (hplace : FileTree.place here p = FileTree.place here p') :
    nameSpace = nameSpace' ∧ className = className' ∧
      below? t.platform.destinationRoot nameSpace = none ∧
        below? other.destinationRoot nameSpace' = none := by
  obtain ⟨hsameClass, project, root, root', steps, hplaced, hplaced'⟩ :=
    same_file ht hother hname hname' hclass hclass' hp hp' hplace
  have hown : ∀ p ∈ Platform.all, p.projectDirectory ≠ "StandardUI" := by decide
  have hprojects : ∀ p ∈ Platform.all, ∀ q ∈ Platform.all,
      p.projectDirectory = q.projectDirectory → p = q := by
    decide
  have hshared := ht.sharedProject
  rcases hplaced.side with ⟨rfl, -⟩ | ⟨rfl, rfl, hnone⟩
  · rcases hplaced'.side with ⟨heq, -⟩ | ⟨heq, -, -⟩
    · exact absurd (hprojects _ ht.platform _ hother heq) hne
    · exact absurd (heq.trans hshared) (hown _ ht.platform)
  · rcases hplaced'.side with ⟨heq, -⟩ | ⟨-, rfl, hnone'⟩
    · exact absurd (heq.symm.trans hshared) (hown _ hother)
    · exact ⟨hplaced.name.trans hplaced'.name.symm, hsameClass, hnone, hnone'⟩

/-- A namespace outside of the roots of both platforms has the same files for both. -/
theorem pathOf_withPlatform {other : Platform} {nameSpace className : String} {p : Path}
    (h : below? t.platform.destinationRoot nameSpace = none)
    (h' : below? other.destinationRoot nameSpace = none) (hp : t.pathOf nameSpace className = .ok p) :
    (t.withPlatform other).pathOf nameSpace className = .ok p := by
  unfold pathOf directoryOf at hp ⊢
  cases hroot : below? t.rootNamespace nameSpace with
  | none => simp [h, hroot, Except.map] at hp
  | some rest =>
      have hroot' : below? (t.withPlatform other).rootNamespace nameSpace = some rest := hroot
      have hother : below? (t.withPlatform other).platform.destinationRoot nameSpace = none := h'
      rw [h, hroot] at hp
      rw [hother, hroot']
      exact hp

/-- The platform's namespace for a dotted one is dotted, and lies in the platform's root namespace. -/
theorem isDotted_of_mapNamespace (ht : t.platform ∈ Platform.all) {nameSpace mapped : String}
    (hname : IsDotted nameSpace) (h : t.mapNamespace nameSpace = .ok mapped) :
    IsDotted mapped ∧ below? t.platform.destinationRoot mapped ≠ none := by
  have hroots : ∀ p ∈ Platform.all, IsDotted p.destinationRoot := by decide
  unfold mapNamespace at h
  cases hbelow : below? t.rootNamespace nameSpace with
  | none => simp [hbelow] at h
  | some rest =>
      obtain rfl : t.platform.destinationRoot ++ rest = mapped := by simpa [hbelow] using h
      obtain ⟨rfl, hrest⟩ := eq_append_of_below? hbelow
      constructor
      · rcases hrest with rfl | ⟨more, rfl⟩
        · rw [String.append_empty]
          exact hroots _ ht
        · intro piece hpiece
          rw [Text.pieces_append_dot] at hpiece
          rcases List.mem_append.1 hpiece with hroot | hmore
          · exact hroots _ ht piece hroot
          · apply hname
            rw [Text.pieces_append_dot]
            exact List.mem_append_right _ hmore
      · exact Option.isSome_iff_ne_none.1 (below?_append _ hrest)

end Target

/-! ## Files of an element -/

open Target

namespace ClassSet

variable {t : Target} {e : ModelElement} {files : List GeneratedFile}

/-- What holds of the elements of a run: the registry follows the marker rule, and names are those of a
source. -/
structure IsNamed (t : Target) (e : ModelElement) : Prop where
  known : FollowsMarker t.known
  owner : IsOwnerName e.declaration.name
  dotted : IsDotted e.declaration.nameSpace

/-- The destination of a file of an element.  Outside of the root of the platform it is that of the
extension methods. -/
theorem exists_destination (ht : t.IsUsual) (he : IsNamed t e) (h : generate t e = .ok files)
    {f : GeneratedFile} (hf : f ∈ files) :
    ∃ (names : Names) (d : Destination), namesOf t e = .ok names ∧
      t.pathOf d.nameSpace d.className = .ok f.path ∧ IsDotted d.nameSpace ∧
        Path.IsClassName d.className ∧ (below? t.platform.destinationRoot d.nameSpace = none →
          e.isFluent = true ∧ d = ⟨e.declaration.nameSpace, names.className ++ "Extensions"⟩) := by
  obtain ⟨names, hnames, hpaths⟩ := generate_paths h
  obtain ⟨hstrip, hmapped⟩ := strip?_of_namesOf he.known hnames
  obtain ⟨hdotted, hroot⟩ := isDotted_of_mapNamespace ht.platform he.dotted hmapped
  obtain ⟨d, hd, hpath⟩ := (mem_paths_iff hpaths f.path).1 (List.mem_map_of_mem hf)
  have hclass := isClassName_of_mem_destinations he.owner hstrip hd
  refine ⟨names, d, hnames, hpath, ?_, hclass, ?_⟩
  · rcases mem_destinations_iff.1 hd with rfl | ⟨-, rfl⟩ | ⟨-, rfl⟩
    · exact hdotted
    · exact hdotted
    · exact he.dotted
  · intro hnone
    rcases mem_destinations_iff.1 hd with rfl | ⟨-, rfl⟩ | ⟨hfluent, rfl⟩
    · exact absurd hnone hroot
    · exact absurd hnone hroot
    · exact ⟨hfluent, rfl⟩

/-- Where the class and the attached class of an element go. -/
def ownPlaces (s : ClassSet) : List Destination :=
  ⟨s.primary.nameSpace, s.primary.name⟩ ::
    (s.attached.map fun c => Destination.mk c.nameSpace c.name).toList

theorem mem_destinations_of_mem_ownPlaces {s : ClassSet} (h : ofElement t e = .ok s) :
    ∃ names, namesOf t e = .ok names ∧
      ∀ d ∈ s.ownPlaces, d ∈ destinations names e ∧ d.nameSpace = names.nameSpace := by
  obtain ⟨names, hnames, h⟩ := bind_eq_ok.1 h
  obtain ⟨properties, -, h⟩ := bind_eq_ok.1 h
  obtain ⟨attached, -, h⟩ := bind_eq_ok.1 h
  obtain ⟨base, -, h⟩ := bind_eq_ok.1 h
  obtain rfl := pure_eq_ok.1 h
  refine ⟨names, hnames, ?_⟩
  intro d hd
  rcases List.mem_cons.1 hd with rfl | hattached
  · exact ⟨mem_destinations_iff.2 (.inl rfl), rfl⟩
  · cases hcompanion : e.companion with
    | none => simp [hcompanion] at hattached
    | some c =>
        obtain rfl : d = ⟨names.nameSpace, names.className ++ "Attached"⟩ := by
          simpa [hcompanion, primaryOf] using hattached
        exact ⟨mem_destinations_iff.2 (.inr (.inl ⟨by simp [hcompanion], rfl⟩)), rfl⟩

/-- No platform has a file where the class or the attached class of another platform goes. -/
theorem place_ne_of_mem_ownPlaces (here : List String) (ht : t.IsUsual) {other : Platform}
    (hother : other ∈ Platform.all) (hne : t.platform ≠ other) {e' : ModelElement} (he : IsNamed t e) (he' : IsNamed t e')
    {s : ClassSet} (h : ofElement t e = .ok s) {d : Destination} (hd : d ∈ s.ownPlaces) {p : Path}
    (hp : t.pathOf d.nameSpace d.className = .ok p)
    (h' : generate (t.withPlatform other) e' = .ok files) {g : GeneratedFile} (hg : g ∈ files) :
    FileTree.place here p ≠ FileTree.place here g.path := by
  intro hplace
  obtain ⟨names, hnames, hown⟩ := mem_destinations_of_mem_ownPlaces h
  obtain ⟨hmem, hnameSpace⟩ := hown d hd
  obtain ⟨hstrip, hmapped⟩ := strip?_of_namesOf he.known hnames
  obtain ⟨hdotted, hroot⟩ := isDotted_of_mapNamespace ht.platform he.dotted hmapped
  rw [← hnameSpace] at hdotted hroot
  have hclass := isClassName_of_mem_destinations he.owner hstrip hmem
  have hnamed : IsNamed (t.withPlatform other) e' := { he' with }
  obtain ⟨-, d', -, hpath', hdotted', hclass', -⟩ :=
    exists_destination (ht.withPlatform hother) hnamed h' hg
  obtain ⟨-, -, hnone, -⟩ :=
    same_file_of_ne ht hother hne hdotted hdotted' hclass hclass' hp hpath' hplace
  exact hroot hnone

/-- The class of extension methods of an element, which it has if it is fluent. -/
theorem extensions_of_ofElement {s : ClassSet} (h : ofElement t e = .ok s) :
    ∃ names properties, namesOf t e = .ok names ∧
      allOrFault (BackedProperty.ofProperty t) e.declaration.properties = .ok properties ∧
        s.sourceName = e.declaration.name ∧ s.extensions =
          if e.isFluent then
            some ⟨names.className ++ "Extensions", e.declaration.nameSpace, e.declaration.usings,
              properties.filterMap (·.extensionMethod? e.declaration.name names.variableName)⟩
          else none := by
  obtain ⟨names, properties, attached, base, hs⟩ := exists_isMadeOf h
  exact ⟨names, properties, hs.named, hs.backed, hs.sourceName, hs.extensions⟩

/-- Extension methods have the declared types, which no platform maps. -/
theorem extensionMethods_withPlatform {other : Platform} {ps : List Property}
    {bs bs' : List BackedProperty} (h : allOrFault (BackedProperty.ofProperty t) ps = .ok bs)
    (h' : allOrFault (BackedProperty.ofProperty (t.withPlatform other)) ps = .ok bs')
    (interfaceName receiver : String) :
    bs.filterMap (·.extensionMethod? interfaceName receiver) =
      bs'.filterMap (·.extensionMethod? interfaceName receiver) := by
  rw [allOrFault_eq_ok_iff] at h h'
  induction ps generalizing bs bs' with
  | nil =>
      obtain rfl : bs = [] := by simpa using h.symm
      obtain rfl : bs' = [] := by simpa using h'.symm
      rfl
  | cons p ps ih =>
      cases bs with
      | nil => simp at h
      | cons b bs =>
          cases bs' with
          | nil => simp at h'
          | cons b' bs' =>
              simp only [List.map_cons, List.cons.injEq] at h h'
              have hb : b.extensionMethod? interfaceName receiver =
                  b'.extensionMethod? interfaceName receiver := by
                obtain ⟨backing, hbacking, rfl⟩ := map_eq_ok.1 h.1
                obtain ⟨backing', hbacking', rfl⟩ := map_eq_ok.1 h'.1
                obtain ⟨type, htype, rfl⟩ := map_eq_ok.1 hbacking
                obtain ⟨type', htype', rfl⟩ := map_eq_ok.1 hbacking'
                obtain rfl : type = type' := Except.ok.inj (htype.symm.trans htype')
                rfl
              rw [List.filterMap_cons, List.filterMap_cons, hb, ih h.2 h'.2]

/-- The names of the class and of the variable are the same for every platform. -/
theorem names_withPlatform {other : Platform} {names names' : Names}
    (h : namesOf t e = .ok names) (h' : namesOf (t.withPlatform other) e = .ok names') :
    names.className = names'.className ∧ names.variableName = names'.variableName := by
  rw [namesOf_eq] at h h'
  obtain ⟨_, -, h⟩ := bind_eq_ok.1 h
  obtain ⟨_, -, h⟩ := bind_eq_ok.1 h
  obtain ⟨className, hclass, h⟩ := bind_eq_ok.1 h
  obtain ⟨variableName, hvariable, h⟩ := bind_eq_ok.1 h
  obtain ⟨_, -, h⟩ := bind_eq_ok.1 h
  obtain rfl := pure_eq_ok.1 h
  obtain ⟨_, -, h'⟩ := bind_eq_ok.1 h'
  obtain ⟨_, -, h'⟩ := bind_eq_ok.1 h'
  obtain ⟨className', hclass', h'⟩ := bind_eq_ok.1 h'
  obtain ⟨variableName', hvariable', h'⟩ := bind_eq_ok.1 h'
  obtain ⟨_, -, h'⟩ := bind_eq_ok.1 h'
  obtain rfl := pure_eq_ok.1 h'
  exact ⟨Except.ok.inj (hclass.symm.trans hclass'), Except.ok.inj (hvariable.symm.trans hvariable')⟩

/-- The class of extension methods is the same for every platform. -/
theorem extensions_withPlatform {other : Platform} {s s' : ClassSet} (h : ofElement t e = .ok s)
    (h' : ofElement (t.withPlatform other) e = .ok s') :
    s.extensions = s'.extensions ∧ s.sourceName = s'.sourceName := by
  obtain ⟨names, bs, hnames, hbs, hsource, hextensions⟩ := extensions_of_ofElement h
  obtain ⟨names', bs', hnames', hbs', hsource', hextensions'⟩ := extensions_of_ofElement h'
  obtain ⟨hclass, hvariable⟩ := names_withPlatform hnames hnames'
  refine ⟨?_, hsource.trans hsource'.symm⟩
  rw [hextensions, hextensions', hclass, hvariable, extensionMethods_withPlatform hbs hbs']

/-- The file of extension methods is the last file of a fluent element. -/
theorem exists_extensionFile (hfluent : e.isFluent = true) (h : generate t e = .ok files) :
    ∃ names classes own f, namesOf t e = .ok names ∧ ofElement t e = .ok classes ∧
      files = own ++ [f] ∧ f.className = names.className ++ "Extensions" ∧
        t.pathOf e.declaration.nameSpace f.className = .ok f.path ∧
          classes.extensions.map (ExtensionClass.draft t.indentSize classes.sourceName) =
            some f.draft := by
  obtain ⟨classes, hclasses, hfiles⟩ := bind_eq_ok.1 h
  obtain ⟨names, properties, hnames, -, -, hextensions⟩ := extensions_of_ofElement hclasses
  rw [if_pos hfluent] at hextensions
  rw [files_eq] at hfiles
  obtain ⟨path, -, hfiles⟩ := bind_eq_ok.1 hfiles
  obtain ⟨attached, -, hfiles⟩ := bind_eq_ok.1 hfiles
  obtain ⟨last, hlast, hfiles⟩ := bind_eq_ok.1 hfiles
  obtain rfl := pure_eq_ok.1 hfiles
  rw [hextensions] at hlast
  obtain ⟨lastPath, hpath, rfl⟩ := map_eq_ok.1 hlast
  refine ⟨names, classes, _, _, hnames, hclasses, (List.cons_append ..).symm, rfl, hpath, ?_⟩
  rw [hextensions]
  rfl

end ClassSet

/-! ## The last file at a place -/

open FileTree

variable {here : List String} {t : Target} {other : Platform}

/-- Where an element and an element of another platform meet, the element leaves for the other platform the
file that it leaves for its own. -/
theorem lastAt?_withPlatform (ht : t.IsUsual) (hother : other ∈ Platform.all)
    (hne : t.platform ≠ other) {e e' : ModelElement} {files files' more : List GeneratedFile}
    (he : ClassSet.IsNamed t e) (he' : ClassSet.IsNamed t e') (h : generate t e = .ok files)
    (h' : generate (t.withPlatform other) e = .ok files')
    (hmore : generate (t.withPlatform other) e' = .ok more) {q : Path}
    (hmeet : ∃ g ∈ more, place here g.path = q) {f : GeneratedFile} (hf : lastAt? here files q = some f) :
    lastAt? here files' q = some f := by
  obtain ⟨g, hg, rfl⟩ := hmeet
  obtain ⟨hmem, hplace⟩ := mem_of_lastAt? hf
  have hnamed : ClassSet.IsNamed (t.withPlatform other) e' := { he' with }
  obtain ⟨names, d, hnames, hpath, hdotted, hclass, hextension⟩ :=
    ClassSet.exists_destination ht he h hmem
  obtain ⟨-, d', -, hpath', hdotted', hclass', -⟩ :=
    ClassSet.exists_destination (ht.withPlatform hother) hnamed hmore hg
  obtain ⟨hnameSpace, -, hnone, hnone'⟩ :=
    same_file_of_ne ht hother hne hdotted hdotted' hclass hclass' hpath hpath' hplace
  rw [← hnameSpace] at hnone'
  -- so the file is that of the extension methods, which the element has for both platforms
  obtain ⟨hfluent, rfl⟩ := hextension hnone
  obtain ⟨names₁, classes₁, own₁, f₁, hnames₁, hclasses₁, rfl, hclass₁, hpath₁, hdraft₁⟩ :=
    ClassSet.exists_extensionFile hfluent h
  obtain ⟨names₂, classes₂, own₂, f₂, hnames₂, hclasses₂, rfl, hclass₂, hpath₂, hdraft₂⟩ :=
    ClassSet.exists_extensionFile hfluent h'
  obtain rfl : names₁ = names := Except.ok.inj (hnames₁.symm.trans hnames)
  have hsameClass : f₁.className = f₂.className := by
    rw [hclass₁, hclass₂, (ClassSet.names_withPlatform hnames₁ hnames₂).1]
  have hfound : f₁.path = f.path := by
    rw [hclass₁] at hpath₁
    exact Except.ok.inj (hpath₁.symm.trans hpath)
  have hsamePath : f₁.path = f₂.path := by
    have hboth := pathOf_withPlatform hnone hnone' hpath₁
    rw [hsameClass] at hboth
    exact Except.ok.inj (hboth.symm.trans hpath₂)
  have hsameDraft : f₁.draft = f₂.draft := by
    obtain ⟨hextensions, hsource⟩ := ClassSet.extensions_withPlatform hclasses₁ hclasses₂
    rw [hextensions, hsource] at hdraft₁
    exact Option.some.inj (hdraft₁.symm.trans hdraft₂)
  have hsame : f₁ = f₂ := by
    cases f₁
    cases f₂
    simp_all
  rw [lastAt?_concat (hfound ▸ hplace)] at hf
  obtain rfl := Option.some.inj hf
  rw [← hsame]
  exact lastAt?_concat hplace

/-- The files of an element, if it can be generated. -/
def filesOf (t : Target) (e : ModelElement) : List GeneratedFile := (generate t e).toOption.getD []

theorem filesOf_of_ok {e : ModelElement} {files : List GeneratedFile} (h : generate t e = .ok files) :
    filesOf t e = files := by
  rw [filesOf, h]
  rfl

/-- Where two platforms write files of the same elements to one place, they leave the same file. -/
theorem lastAt?_eq (ht : t.IsUsual) (hother : other ∈ Platform.all) {elements : List ModelElement}
    (hnamed : ∀ e ∈ elements, ClassSet.IsNamed t e)
    (h : ∀ e ∈ elements, ∃ files, generate t e = .ok files)
    (h' : ∀ e ∈ elements, ∃ files, generate (t.withPlatform other) e = .ok files) {q : Path}
    {f g : GeneratedFile} (hf : lastAt? here (elements.flatMap (filesOf t)) q = some f)
    (hg : lastAt? here (elements.flatMap (filesOf (t.withPlatform other))) q = some g) : f = g := by
  by_cases hsame : t.platform = other
  · have heq : t.withPlatform other = t := by
      rw [← hsame]
      rfl
    rw [heq] at hg
    exact Option.some.inj (hf.symm.trans hg)
  · have hmeet : ∀ {t : Target} {f : GeneratedFile},
        lastAt? here (elements.flatMap (filesOf t)) q = some f →
          ∃ e ∈ elements, ∃ f ∈ filesOf t e, place here f.path = q := by
      intro t f hf
      obtain ⟨hmem, hplace⟩ := mem_of_lastAt? hf
      obtain ⟨e, he, hmem⟩ := List.mem_flatMap.1 hmem
      exact ⟨e, he, f, hmem, hplace⟩
    obtain ⟨e₁, he₁, hmeet₁⟩ := hmeet hf
    obtain ⟨e₂, he₂, hmeet₂⟩ := hmeet hg
    have heach : ∀ e ∈ elements,
        lastAt? here (filesOf t e) q = lastAt? here (filesOf (t.withPlatform other) e) q := by
      intro e he
      obtain ⟨files, hfiles⟩ := h e he
      obtain ⟨files', hfiles'⟩ := h' e he
      obtain ⟨more₁, hmore₁⟩ := h e₁ he₁
      obtain ⟨more₂, hmore₂⟩ := h' e₂ he₂
      rw [filesOf_of_ok hmore₁] at hmeet₁
      rw [filesOf_of_ok hmore₂] at hmeet₂
      rw [filesOf_of_ok hfiles, filesOf_of_ok hfiles']
      refine Option.ext fun x => ⟨?_, ?_⟩
      · exact lastAt?_withPlatform ht hother hsame (hnamed e he) (hnamed e₂ he₂) hfiles hfiles' hmore₂
          hmeet₂
      · have hback : ∀ e ∈ elements, ClassSet.IsNamed (t.withPlatform other) e :=
          fun e he => { hnamed e he with }
        exact lastAt?_withPlatform (ht.withPlatform hother) ht.platform (Ne.symm hsame) (hback e he)
          (hback e₁ he₁) hfiles' hfiles hmore₁ hmeet₁
    rw [lastAt?_flatMap_congr_left heach] at hf
    exact Option.some.inj (hf.symm.trans hg)

end PlatformClasses
