import PlatformClasses.Proofs.Path.Names
import PlatformClasses.Proofs.Target.Known

/-!
# Where the classes of an element go

An element has up to three classes, and each has a name and a namespace.  `destinations` lists them
without generating anything, and `generate_paths` says that the files of an element are exactly those of
its destinations.  The names are the class name of the element with an ending, so they begin like names
and files can be told apart by them.
-/

namespace PlatformClasses

/-- Classes for Windows Presentation Foundation below `src`, with the usual settings. -/
def Target.wpfSrc : Target where
  platform := .wpf
  outputRoot := ⟨0, ["src"]⟩

/-- Classes for Windows Presentation Foundation of a model in the namespace `M`. -/
def Target.wpfOfM : Target where
  platform := .wpf
  outputRoot := ⟨0, ["out"]⟩
  rootNamespace := "M"

/-- A class by its namespace and its name. -/
structure Destination where
  nameSpace : String
  className : String
deriving Repr, DecidableEq

/-- Whether some property of an element asks for an extension method. -/
def ModelElement.isFluent (e : ModelElement) : Bool :=
  e.declaration.properties.any (·.isFluent)

namespace ClassSet

/-- The classes of an element: its own, the attached one and that of its extension methods. -/
def destinations (names : Names) (e : ModelElement) : List Destination :=
  ⟨names.nameSpace, names.className⟩ ::
    ((if e.companion.isSome then [⟨names.nameSpace, names.className ++ "Attached"⟩] else []) ++
      if e.isFluent then [⟨e.declaration.nameSpace, names.className ++ "Extensions"⟩] else [])

theorem mem_destinations_iff {names : Names} {e : ModelElement} {d : Destination} :
    d ∈ destinations names e ↔ d = ⟨names.nameSpace, names.className⟩ ∨
      (e.companion.isSome = true ∧ d = ⟨names.nameSpace, names.className ++ "Attached"⟩) ∨
        (e.isFluent = true ∧ d = ⟨e.declaration.nameSpace, names.className ++ "Extensions"⟩) := by
  unfold destinations
  cases e.companion.isSome <;> cases e.isFluent <;> simp

/-! ## From destinations to files -/

theorem property_of_ofProperty {t : Target} {ps : List Property} {bs : List BackedProperty}
    (h : allOrFault (BackedProperty.ofProperty t) ps = .ok bs) : bs.map (·.property) = ps := by
  rw [allOrFault_eq_ok_iff] at h
  induction ps generalizing bs with
  | nil =>
      obtain rfl : bs = [] := by simpa using h.symm
      rfl
  | cons p ps ih =>
      cases bs with
      | nil => simp at h
      | cons b bs =>
          simp only [List.map_cons, List.cons.injEq] at h ⊢
          obtain ⟨backing, -, rfl⟩ := map_eq_ok.1 h.1
          exact ⟨rfl, ih h.2⟩

/-- There are extension methods if and only if the element is fluent. -/
theorem filterMap_extensionMethod?_isEmpty (interfaceName receiver : String)
    (bs : List BackedProperty) :
    (bs.filterMap (·.extensionMethod? interfaceName receiver)).isEmpty =
      !(bs.map (·.property)).any (·.isFluent) := by
  induction bs with
  | nil => rfl
  | cons b bs ih =>
      cases h : b.property.isFluent with
      | false =>
          rw [List.filterMap_cons_none (by simp [BackedProperty.extensionMethod?, h]), ih]
          simp [h]
      | true =>
          have hsome : b.extensionMethod? interfaceName receiver =
              some ⟨interfaceName, b.property.name, receiver, b.backing.sourceText⟩ := by
            simp [BackedProperty.extensionMethod?, h]
          rw [List.filterMap_cons_some hsome]
          simp [h]

/-- The file of a class that an element may have. -/
def optionalFile {α : Type} (t : Target) (place : α → Destination) (draft : α → Draft) :
    Option α → Except Fault (List GeneratedFile)
  | none => .ok []
  | some c =>
    (t.pathOf (place c).nameSpace (place c).className).map fun path =>
      [⟨path, (place c).className, draft c⟩]

theorem optionalFile_eq_ok {α : Type} {t : Target} {place : α → Destination} {draft : α → Draft}
    {c : Option α} {files : List GeneratedFile} (h : optionalFile t place draft c = .ok files) :
    (c.map place).toList.map (fun d => (t.pathOf d.nameSpace d.className, d.className)) =
        files.map (fun f => (.ok f.path, f.className)) ∧
      (c.map draft).toList = files.map (·.draft) := by
  cases c with
  | none =>
      obtain rfl : [] = files := by simpa [optionalFile] using h
      exact ⟨rfl, rfl⟩
  | some c =>
      obtain ⟨path, hpath, rfl⟩ := map_eq_ok.1 h
      exact ⟨by simp [hpath], rfl⟩

theorem files_eq (t : Target) (s : ClassSet) :
    s.files t = (do
      let path ← t.pathOf s.primary.nameSpace s.primary.name
      let attached ← optionalFile t (fun c => ⟨c.nameSpace, c.name⟩)
        (AttachedClass.draft t.indentSize s.sourceName) s.attached
      let extensions ← optionalFile t (fun c => ⟨c.nameSpace, c.name⟩)
        (ExtensionClass.draft t.indentSize s.sourceName) s.extensions
      return ⟨path, s.primary.name, s.primary.draft t.platform t.indentSize⟩ ::
        (attached ++ extensions)) := by
  unfold ClassSet.files
  cases s.attached <;> cases s.extensions <;> rfl

/-- The namespaces and names of the classes, in the order of their files. -/
def places (s : ClassSet) : List Destination :=
  ⟨s.primary.nameSpace, s.primary.name⟩ ::
    ((s.attached.map fun c => Destination.mk c.nameSpace c.name).toList ++
      (s.extensions.map fun c => Destination.mk c.nameSpace c.name).toList)

/-- The drafts of the classes, in the order of their files. -/
def drafts (t : Target) (s : ClassSet) : List Draft :=
  s.primary.draft t.platform t.indentSize ::
    ((s.attached.map (AttachedClass.draft t.indentSize s.sourceName)).toList ++
      (s.extensions.map (ExtensionClass.draft t.indentSize s.sourceName)).toList)

/-- Each class has one file, with its path and its draft. -/
theorem files_eq_ok {t : Target} {s : ClassSet} {files : List GeneratedFile}
    (h : s.files t = .ok files) :
    s.places.map (fun d => (t.pathOf d.nameSpace d.className, d.className)) =
        files.map (fun f => (.ok f.path, f.className)) ∧
      s.drafts t = files.map (·.draft) := by
  rw [files_eq] at h
  obtain ⟨path, hpath, h⟩ := bind_eq_ok.1 h
  obtain ⟨attached, hattached, h⟩ := bind_eq_ok.1 h
  obtain ⟨extensions, hextensions, h⟩ := bind_eq_ok.1 h
  obtain rfl := pure_eq_ok.1 h
  obtain ⟨hattachedPaths, hattachedDrafts⟩ := optionalFile_eq_ok hattached
  obtain ⟨hextensionPaths, hextensionDrafts⟩ := optionalFile_eq_ok hextensions
  constructor
  · rw [places, List.map_cons, List.map_append, hattachedPaths, hextensionPaths, hpath,
      List.map_cons, List.map_append]
  · rw [drafts, hattachedDrafts, hextensionDrafts, List.map_cons, List.map_append]

theorem backings_of_ofAttached {t : Target} {p : AttachedProperty} {b : BackedAttached}
    (h : BackedAttached.ofAttached t p = .ok b) : b.property = p ∧
      Backing.ofText t p.valueType = .ok b.value ∧ Backing.ofText t p.elementType = .ok b.element := by
  obtain ⟨value, hvalue, h⟩ := bind_eq_ok.1 h
  obtain ⟨element, helement, h⟩ := bind_eq_ok.1 h
  obtain rfl := pure_eq_ok.1 h
  exact ⟨rfl, hvalue, helement⟩

/-- The classes of an element, by the names, properties, attached properties and base class that a target
gives it. -/
structure IsMadeOf (t : Target) (e : ModelElement) (s : ClassSet) (names : Names)
    (properties : List BackedProperty) (attached : List BackedAttached) (base : String) : Prop where
  named : namesOf t e = .ok names
  backed : allOrFault (BackedProperty.ofProperty t) e.declaration.properties = .ok properties
  backedAttached : allOrFault (BackedAttached.ofAttached t) e.attached = .ok attached
  derived : baseClass t names.className e.declaration = .ok base
  sourceName : s.sourceName = e.declaration.name
  primary : s.primary = primaryOf t names e.declaration base properties attached
  attachedClass : s.attached = e.companion.map fun c =>
    ⟨names.className ++ "Attached", c.name, names.className, names.nameSpace, s.primary.imports,
      attached.map (·.delegation)⟩
  extensions : s.extensions =
    if e.isFluent then
      some ⟨names.className ++ "Extensions", e.declaration.nameSpace, e.declaration.usings,
        properties.filterMap (·.extensionMethod? e.declaration.name names.variableName)⟩
    else none

theorem exists_isMadeOf {t : Target} {e : ModelElement} {s : ClassSet}
    (h : ofElement t e = .ok s) :
    ∃ names properties attached base, IsMadeOf t e s names properties attached base := by
  obtain ⟨names, hnames, h⟩ := bind_eq_ok.1 h
  obtain ⟨properties, hproperties, h⟩ := bind_eq_ok.1 h
  obtain ⟨attached, hattached, h⟩ := bind_eq_ok.1 h
  obtain ⟨base, hbase, h⟩ := bind_eq_ok.1 h
  obtain rfl := pure_eq_ok.1 h
  refine ⟨names, properties, attached, base, hnames, hproperties, hattached, hbase, rfl, rfl, rfl, ?_⟩
  have hfluent : (properties.filterMap
      (·.extensionMethod? e.declaration.name names.variableName)).isEmpty = !e.isFluent := by
    rw [filterMap_extensionMethod?_isEmpty, property_of_ofProperty hproperties]
    rfl
  simp only [hfluent]
  cases e.isFluent <;> rfl

/-- The classes of an element go to its destinations. -/
theorem places_of_ofElement {t : Target} {e : ModelElement} {s : ClassSet}
    (h : ofElement t e = .ok s) :
    ∃ names, namesOf t e = .ok names ∧ s.places = destinations names e := by
  obtain ⟨names, properties, attached, base, hs⟩ := exists_isMadeOf h
  refine ⟨names, hs.named, ?_⟩
  rw [places, destinations, hs.primary, hs.attachedClass, hs.extensions, primaryOf]
  congr 2
  · cases e.companion <;> rfl
  · cases e.isFluent <;> rfl

/-- The files of an element are those of its destinations, in order. -/
theorem generate_paths {t : Target} {e : ModelElement} {files : List GeneratedFile}
    (h : generate t e = .ok files) :
    ∃ names, namesOf t e = .ok names ∧
      (destinations names e).map (fun d => (t.pathOf d.nameSpace d.className, d.className)) =
        files.map fun f => (.ok f.path, f.className) := by
  obtain ⟨s, hs, hfiles⟩ := bind_eq_ok.1 h
  obtain ⟨names, hnames, hplaces⟩ := places_of_ofElement hs
  exact ⟨names, hnames, by rw [← hplaces, (files_eq_ok hfiles).1]⟩

/-! ## Class names -/

theorem beginsName_of_strip? {name stripped : String} (h : Marker.strip? name = some stripped) :
    Path.BeginsName stripped := by
  unfold Marker.strip? at h
  split at h
  · next c rest _ =>
    split at h
    · next hupper =>
      obtain rfl : String.ofList (c :: rest) = stripped := by simpa using h
      refine ⟨c, rest, String.toList_ofList, ?_, ?_⟩
      · rintro rfl
        exact absurd hupper (by decide)
      · rintro rfl
        exact absurd hupper (by decide)
    · simp at h
  · simp at h

theorem strip_eq_ok {name stripped : String} :
    Marker.strip name = .ok stripped ↔ Marker.strip? name = some stripped := by
  unfold Marker.strip
  cases Marker.strip? name <;> simp

theorem namesOf_eq (t : Target) (e : ModelElement) :
    namesOf t e = (do
      let _ ← Marker.strip e.declaration.name
      let _ ← (e.companion.map fun c => Marker.strip c.name).getD (.ok "")
      let className ← t.className e.declaration.name
      let variableName ← t.variableName e.declaration.name
      let nameSpace ← t.mapNamespace e.declaration.nameSpace
      return ⟨className, variableName, nameSpace⟩) := by
  unfold namesOf
  cases e.companion <;> rfl

/-- The names of an element are its class name and its mapped namespace. -/
theorem className_of_namesOf {t : Target} {e : ModelElement} {names : Names}
    (h : namesOf t e = .ok names) : t.className e.declaration.name = .ok names.className ∧
      t.mapNamespace e.declaration.nameSpace = .ok names.nameSpace := by
  rw [namesOf_eq] at h
  obtain ⟨_, -, h⟩ := bind_eq_ok.1 h
  obtain ⟨_, -, h⟩ := bind_eq_ok.1 h
  obtain ⟨className, hclass, h⟩ := bind_eq_ok.1 h
  obtain ⟨variableName, -, h⟩ := bind_eq_ok.1 h
  obtain ⟨nameSpace, hnameSpace, h⟩ := bind_eq_ok.1 h
  obtain rfl := pure_eq_ok.1 h
  exact ⟨hclass, hnameSpace⟩

/-- The class name of an element is its name without the marker. -/
theorem strip?_of_namesOf {t : Target} (ht : Target.FollowsMarker t.known) {e : ModelElement}
    {names : Names} (h : namesOf t e = .ok names) :
    Marker.strip? e.declaration.name = some names.className ∧
      t.mapNamespace e.declaration.nameSpace = .ok names.nameSpace := by
  obtain ⟨hclass, hnameSpace⟩ := className_of_namesOf h
  rw [Target.className_eq_strip ht, strip_eq_ok] at hclass
  exact ⟨hclass, hnameSpace⟩

theorem beginsName_of_mem_destinations {names : Names} {e : ModelElement} {d : Destination}
    (hnames : Path.BeginsName names.className) (h : d ∈ destinations names e) :
    Path.BeginsName d.className := by
  rcases mem_destinations_iff.1 h with rfl | ⟨-, rfl⟩ | ⟨-, rfl⟩
  · exact hnames
  · exact hnames.append _
  · exact hnames.append _

/-- Every generated file has a name below its directory. -/
theorem endsInName_of_generate {t : Target} (ht : Target.FollowsMarker t.known) {e : ModelElement}
    {files : List GeneratedFile} (h : generate t e = .ok files) {f : GeneratedFile} (hf : f ∈ files) :
    f.path.EndsInName := by
  obtain ⟨names, hnames, hpaths⟩ := generate_paths h
  have hmem : ((Except.ok f.path : Except Fault Path), f.className) ∈
      files.map fun f => (.ok f.path, f.className) := List.mem_map.2 ⟨f, hf, rfl⟩
  rw [← hpaths] at hmem
  obtain ⟨d, hd, heq⟩ := List.mem_map.1 hmem
  have hpath := (Prod.mk.inj heq).1
  obtain ⟨directory, -, hjoin⟩ := map_eq_ok.1 hpath
  have hname := beginsName_of_mem_destinations
    (beginsName_of_strip? (strip?_of_namesOf ht hnames).1) hd
  rw [← hjoin]
  exact Path.endsInName_of_beginsName directory (hname.append _)

end ClassSet

end PlatformClasses
