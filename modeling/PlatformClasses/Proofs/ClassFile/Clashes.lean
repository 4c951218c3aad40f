import Mathlib.Data.List.Nodup
import PlatformClasses.Proofs.ClassFile.Destinations
import PlatformClasses.Proofs.Declaration.Grouping

/-!
# Clashes between elements

Two elements clash if some files of theirs have the same path.  `Clash` says when they do, by the names of
the interfaces and the directories of their files: if they are interfaces of the same name with the same
directory, or if the class that one is generated for has the name of the extension class of the other.
Nothing else can happen, since the endings tell the three classes of an element apart.
-/

namespace PlatformClasses

/-- What a source makes sure of in the name of an interface that is not an attached one. -/
structure IsOwnerName (name : String) : Prop where
  noSlash : '/' ∉ name.toList
  notAttached : ModelElement.ownerOf? name = none

namespace ModelElement

/-- The directory of the class of an element and of its attached class. -/
def home (t : Target) (e : ModelElement) : Except Fault Path := do
  t.directoryOf (← t.mapNamespace e.declaration.nameSpace)

/-- The directory of the extension methods of an element. -/
def shared (t : Target) (e : ModelElement) : Except Fault Path :=
  t.directoryOf e.declaration.nameSpace

end ModelElement

/-- The ways in which two elements generate a file of the same path. -/
inductive Clash (t : Target) (e e' : ModelElement) : Prop where
  /-- Both have the same class. -/
  | classes (hname : e.declaration.name = e'.declaration.name) (hplace : e.home t = e'.home t)
  /-- Both have the same class of extension methods. -/
  | extensions (hname : e.declaration.name = e'.declaration.name) (hfluent : e.isFluent = true)
      (hfluent' : e'.isFluent = true) (hplace : e.shared t = e'.shared t)
  /-- The extension methods of the first go where the class of the second goes. -/
  | extensionsOfFirst (hfluent : e.isFluent = true)
      (hname : e'.declaration.name = e.declaration.name ++ "Extensions")
      (hplace : e.shared t = e'.home t)
  /-- The extension methods of the second go where the class of the first goes. -/
  | extensionsOfSecond (hfluent : e'.isFluent = true)
      (hname : e.declaration.name = e'.declaration.name ++ "Extensions")
      (hplace : e'.shared t = e.home t)

namespace ClassSet

/-! ## Paths of destinations -/

theorem isClassName_of_mem_destinations {names : Names} {e : ModelElement} {d : Destination}
    (hname : IsOwnerName e.declaration.name)
    (hstrip : Marker.strip? e.declaration.name = some names.className)
    (hd : d ∈ destinations names e) : Path.IsClassName d.className := by
  have hbegins : Path.BeginsName names.className := beginsName_of_strip? hstrip
  have hslash : '/' ∉ names.className.toList := by
    intro hmem
    apply hname.noSlash
    rw [Marker.eq_append_of_strip? hstrip, String.toList_append]
    exact List.mem_append_right _ hmem
  have hclass : Path.IsClassName names.className := ⟨hbegins, hslash⟩
  rcases mem_destinations_iff.1 hd with rfl | ⟨-, rfl⟩ | ⟨-, rfl⟩
  · exact hclass
  · exact hclass.append (by decide)
  · exact hclass.append (by decide)

/-- Two class files have one path only if they have one directory and one name. -/
theorem pathOf_eq_iff {t : Target} {nameSpace nameSpace' className className' : String} {p : Path}
    (hclass : Path.IsClassName className) (hclass' : Path.IsClassName className')
    (hp : t.pathOf nameSpace className = .ok p) :
    t.pathOf nameSpace' className' = .ok p ↔
      t.directoryOf nameSpace = t.directoryOf nameSpace' ∧ className = className' := by
  obtain ⟨directory, hdirectory, rfl⟩ := map_eq_ok.1 hp
  constructor
  · intro hp'
    obtain ⟨directory', hdirectory', heq⟩ := map_eq_ok.1 hp'
    obtain ⟨rfl, rfl⟩ := (Path.join_classFile_inj hclass' hclass t.fileExtension).1 heq
    exact ⟨hdirectory.trans hdirectory'.symm, rfl⟩
  · rintro ⟨hsame, rfl⟩
    rw [Target.pathOf, ← hsame]
    exact hp

theorem paths_eq {t : Target} {ds : List Destination} {files : List GeneratedFile}
    (h : ds.map (fun d => (t.pathOf d.nameSpace d.className, d.className)) =
      files.map fun f => (.ok f.path, f.className)) :
    ds.map (fun d => t.pathOf d.nameSpace d.className) = (files.map (·.path)).map .ok := by
  have hfirst := congrArg (List.map Prod.fst) h
  rw [List.map_map, List.map_map] at hfirst
  rw [List.map_map]
  exact hfirst

/-- The paths of an element are those of its destinations. -/
theorem mem_paths_iff {t : Target} {ds : List Destination} {files : List GeneratedFile}
    (h : ds.map (fun d => (t.pathOf d.nameSpace d.className, d.className)) =
      files.map fun f => (.ok f.path, f.className)) (p : Path) :
    p ∈ files.map (·.path) ↔ ∃ d ∈ ds, t.pathOf d.nameSpace d.className = .ok p := by
  have hmem : p ∈ files.map (·.path) ↔
      (Except.ok p : Except Fault Path) ∈ (files.map (·.path)).map .ok := by
    simp
  rw [hmem, ← paths_eq h, List.mem_map]

theorem exists_path_of_mem {t : Target} {ds : List Destination} {files : List GeneratedFile}
    (h : ds.map (fun d => (t.pathOf d.nameSpace d.className, d.className)) =
      files.map fun f => (.ok f.path, f.className)) {d : Destination} (hd : d ∈ ds) :
    ∃ p ∈ files.map (·.path), t.pathOf d.nameSpace d.className = .ok p := by
  have hmem : t.pathOf d.nameSpace d.className ∈ (files.map (·.path)).map Except.ok := by
    rw [← paths_eq h]
    exact List.mem_map_of_mem hd
  obtain ⟨p, hp, heq⟩ := List.mem_map.1 hmem
  exact ⟨p, hp, heq.symm⟩

/-- The files of one element have different paths. -/
theorem nodup_paths {t : Target} (ht : Target.FollowsMarker t.known) {e : ModelElement}
    (hname : IsOwnerName e.declaration.name) {files : List GeneratedFile}
    (h : generate t e = .ok files) : (files.map (·.path)).Nodup := by
  obtain ⟨names, hnames, hpaths⟩ := generate_paths h
  have hstrip := (strip?_of_namesOf ht hnames).1
  have hdistinct : (destinations names e).Pairwise fun d d' => d.className ≠ d'.className := by
    have hattached : names.className ≠ names.className ++ "Attached" := by
      intro heq
      have hlength := congrArg String.length heq
      simp at hlength
    have hextensions : names.className ≠ names.className ++ "Extensions" := by
      intro heq
      have hlength := congrArg String.length heq
      simp at hlength
    have hendings : names.className ++ "Attached" ≠ names.className ++ "Extensions" := by
      intro heq
      have hending := (String.append_right_inj _).1 heq
      exact absurd hending (by decide)
    unfold destinations
    cases e.companion.isSome <;> cases e.isFluent <;>
      simp [hattached, hextensions, hendings]
  have hok : ((files.map (·.path)).map (Except.ok : Path → Except Fault Path)).Nodup := by
    rw [← paths_eq hpaths, List.Nodup, List.pairwise_map]
    refine List.Pairwise.imp_of_mem ?_ hdistinct
    intro d d' hd hd' hne heq
    obtain ⟨p, -, hp⟩ := exists_path_of_mem hpaths hd
    have hclass := isClassName_of_mem_destinations hname hstrip hd
    have hclass' := isClassName_of_mem_destinations hname hstrip hd'
    exact hne ((pathOf_eq_iff hclass hclass' hp).1 (heq.symm.trans hp)).2
  exact List.Nodup.of_map _ hok

/-! ## Two elements -/

/-- The stems of two class names with endings: the class of the first is that of the second with an
ending. -/
theorem append_className {name name' className className' : String}
    (hstrip : Marker.strip? name = some className) (hstrip' : Marker.strip? name' = some className')
    (ending : String) : className = className' ++ ending ↔ name = name' ++ ending := by
  rw [Marker.eq_append_of_strip? hstrip, Marker.eq_append_of_strip? hstrip', String.append_assoc,
    String.append_right_inj]

theorem attached_ne_extensions (s s' : String) : s ++ "Attached" ≠ s' ++ "Extensions" := by
  intro h
  have hlast := congrArg (fun s : String => s.toList.getLast?) h
  simp [String.toList_append] at hlast

theorem not_attached_of_strip? {name className : String} (hname : IsOwnerName name)
    (hstrip : Marker.strip? name = some className) (stem : String) :
    className ≠ stem ++ "Attached" := by
  rintro rfl
  have howner := ModelElement.ownerOf?_append ("I" ++ stem)
  rw [String.append_assoc, ModelElement.companionEnding, ← Marker.eq_append_of_strip? hstrip,
    hname.notAttached] at howner
  simp at howner

theorem home_of_namesOf {t : Target} (ht : Target.FollowsMarker t.known) {e : ModelElement}
    {names : Names} (h : namesOf t e = .ok names) : e.home t = t.directoryOf names.nameSpace := by
  rw [ModelElement.home, (strip?_of_namesOf ht h).2]
  rfl

/-- Some destinations of two elements coincide if and only if the elements clash. -/
theorem destinations_meet_iff {t : Target} (ht : Target.FollowsMarker t.known) {e e' : ModelElement}
    (hname : IsOwnerName e.declaration.name) (hname' : IsOwnerName e'.declaration.name)
    {names names' : Names} (h : namesOf t e = .ok names) (h' : namesOf t e' = .ok names') :
    (∃ d ∈ destinations names e, ∃ d' ∈ destinations names' e',
      t.directoryOf d.nameSpace = t.directoryOf d'.nameSpace ∧ d.className = d'.className) ↔
        Clash t e e' := by
  have hstrip := (strip?_of_namesOf ht h).1
  have hstrip' := (strip?_of_namesOf ht h').1
  have hhome := home_of_namesOf ht h
  have hhome' := home_of_namesOf ht h'
  have hsame : names.className = names'.className ↔ e.declaration.name = e'.declaration.name := by
    have happend := append_className hstrip hstrip' ""
    simpa using happend
  constructor
  · rintro ⟨d, hd, d', hd', hplace, hclass⟩
    rcases mem_destinations_iff.1 hd with rfl | ⟨-, rfl⟩ | ⟨hfluent, rfl⟩
    · rcases mem_destinations_iff.1 hd' with rfl | ⟨-, rfl⟩ | ⟨hfluent', rfl⟩
      · exact .classes (hsame.1 hclass) (hhome.trans (hplace.trans hhome'.symm))
      · exact absurd hclass (not_attached_of_strip? hname hstrip _)
      · exact .extensionsOfSecond hfluent' ((append_className hstrip hstrip' _).1 hclass)
          (hplace.symm.trans hhome.symm)
    · rcases mem_destinations_iff.1 hd' with rfl | ⟨-, rfl⟩ | ⟨-, rfl⟩
      · exact absurd hclass.symm (not_attached_of_strip? hname' hstrip' _)
      · have hsameClass := (String.append_left_inj _).1 hclass
        exact .classes (hsame.1 hsameClass) (hhome.trans (hplace.trans hhome'.symm))
      · exact absurd hclass (attached_ne_extensions _ _)
    · rcases mem_destinations_iff.1 hd' with rfl | ⟨-, rfl⟩ | ⟨hfluent', rfl⟩
      · exact .extensionsOfFirst hfluent ((append_className hstrip' hstrip _).1 hclass.symm)
          (hplace.trans hhome'.symm)
      · exact absurd hclass.symm (attached_ne_extensions _ _)
      · have hsameClass := (String.append_left_inj _).1 hclass
        exact .extensions (hsame.1 hsameClass) hfluent hfluent' hplace
  · intro hclash
    cases hclash with
    | classes hnames hplace =>
        refine ⟨_, mem_destinations_iff.2 (.inl rfl), _, mem_destinations_iff.2 (.inl rfl), ?_⟩
        exact ⟨hhome.symm.trans (hplace.trans hhome'), hsame.2 hnames⟩
    | extensions hnames hfluent hfluent' hplace =>
        refine ⟨_, mem_destinations_iff.2 (.inr (.inr ⟨hfluent, rfl⟩)), _,
          mem_destinations_iff.2 (.inr (.inr ⟨hfluent', rfl⟩)), hplace, ?_⟩
        show names.className ++ "Extensions" = names'.className ++ "Extensions"
        rw [hsame.2 hnames]
    | extensionsOfFirst hfluent hnames hplace =>
        refine ⟨_, mem_destinations_iff.2 (.inr (.inr ⟨hfluent, rfl⟩)), _,
          mem_destinations_iff.2 (.inl rfl), hplace.trans hhome', ?_⟩
        exact ((append_className hstrip' hstrip _).2 hnames).symm
    | extensionsOfSecond hfluent hnames hplace =>
        refine ⟨_, mem_destinations_iff.2 (.inl rfl), _,
          mem_destinations_iff.2 (.inr (.inr ⟨hfluent, rfl⟩)), hhome.symm.trans hplace.symm, ?_⟩
        exact (append_className hstrip hstrip' _).2 hnames

/-- Two elements have files of the same path if and only if they clash. -/
theorem paths_meet_iff {t : Target} (ht : Target.FollowsMarker t.known) {e e' : ModelElement}
    (hname : IsOwnerName e.declaration.name) (hname' : IsOwnerName e'.declaration.name)
    {files files' : List GeneratedFile} (h : generate t e = .ok files)
    (h' : generate t e' = .ok files') :
    List.Disjoint (files.map (·.path)) (files'.map (·.path)) ↔ ¬ Clash t e e' := by
  obtain ⟨names, hnames, hpaths⟩ := generate_paths h
  obtain ⟨names', hnames', hpaths'⟩ := generate_paths h'
  have hstrip := (strip?_of_namesOf ht hnames).1
  have hstrip' := (strip?_of_namesOf ht hnames').1
  rw [← destinations_meet_iff ht hname hname' hnames hnames']
  constructor
  · rintro hdisjoint ⟨d, hd, d', hd', hsame⟩
    obtain ⟨p, hmine, hp⟩ := exists_path_of_mem hpaths hd
    have hclass := isClassName_of_mem_destinations hname hstrip hd
    have hclass' := isClassName_of_mem_destinations hname' hstrip' hd'
    have htheirs : p ∈ files'.map (·.path) := by
      refine (mem_paths_iff hpaths' p).2 ⟨d', hd', ?_⟩
      exact (pathOf_eq_iff hclass hclass' hp).2 hsame
    exact hdisjoint hmine htheirs
  · intro hmeet p hmine htheirs
    obtain ⟨d, hd, hp⟩ := (mem_paths_iff hpaths p).1 hmine
    obtain ⟨d', hd', hp'⟩ := (mem_paths_iff hpaths' p).1 htheirs
    have hclass := isClassName_of_mem_destinations hname hstrip hd
    have hclass' := isClassName_of_mem_destinations hname' hstrip' hd'
    exact hmeet ⟨d, hd, d', hd', (pathOf_eq_iff hclass hclass' hp).1 hp'⟩

end ClassSet

end PlatformClasses
