import PlatformClasses.Proofs.ClassFile.Destinations
import PlatformClasses.Proofs.Declaration.Accessors
import PlatformClasses.Proofs.TypeRef.Acceptance

/-!
# Why an element has no files

Generation goes through many steps that may fail: names lose their markers, namespaces are mapped and
placed, and the types of properties, accessors and bases are read.  Each step is given the exact
condition under which it fails (`FailsIff`), and the conditions are joined along the steps.  What is
left at the end is the list of `ModelElement.Unfit`: every other fault that a step could give is ruled
out by a step before it (`generate_fails_iff`).
-/

namespace PlatformClasses

/-! ## Steps with one kind of fault -/

/-- A step fails if and only if something is wrong, and then with a fault of the given category. -/
structure FailsIff {α : Type} (category : Fault.Category) (wrong : Prop) (x : Except Fault α) :
    Prop where
  ok_of_not : ¬wrong → ∃ a, x = .ok a
  error_of : wrong → ∃ fault, x = .error fault ∧ fault.category = category

namespace FailsIff

variable {α β : Type} {category : Fault.Category} {wrong wrong' : Prop} {x : Except Fault α}

theorem ok (category : Fault.Category) (a : α) : FailsIff category False (.ok a) :=
  ⟨fun _ => ⟨a, rfl⟩, False.elim⟩

theorem congr (h : FailsIff category wrong x) (hiff : wrong ↔ wrong') : FailsIff category wrong' x :=
  ⟨fun hnot => h.ok_of_not (mt hiff.1 hnot), fun hwrong => h.error_of (hiff.2 hwrong)⟩

theorem map (h : FailsIff category wrong x) (f : α → β) : FailsIff category wrong (x.map f) := by
  constructor
  · intro hnot
    obtain ⟨a, rfl⟩ := h.ok_of_not hnot
    exact ⟨f a, rfl⟩
  · intro hwrong
    obtain ⟨fault, rfl, hfault⟩ := h.error_of hwrong
    exact ⟨fault, rfl, hfault⟩

/-- Two steps fail if something is wrong with either; the second is only looked at if the first gives
a result. -/
theorem bind {f : α → Except Fault β} (h : FailsIff category wrong x)
    (hf : ∀ a, x = .ok a → FailsIff category wrong' (f a)) :
    FailsIff category (wrong ∨ wrong') (x >>= f) := by
  constructor
  · intro hnot
    obtain ⟨hfirst, hsecond⟩ := not_or.1 hnot
    obtain ⟨a, rfl⟩ := h.ok_of_not hfirst
    exact (hf a rfl).ok_of_not hsecond
  · intro hwrong
    by_cases hfirst : wrong
    · obtain ⟨fault, rfl, hfault⟩ := h.error_of hfirst
      exact ⟨fault, rfl, hfault⟩
    · obtain ⟨a, rfl⟩ := h.ok_of_not hfirst
      exact (hf a rfl).error_of (hwrong.resolve_left hfirst)

/-- Of computations one after the other, some one fails if and only if something is wrong for it. -/
theorem each {f : α → Except Fault β} {wrongAt : α → Prop} (xs : List α)
    (h : ∀ a ∈ xs, FailsIff category (wrongAt a) (f a)) :
    FailsIff category (∃ a ∈ xs, wrongAt a) (allOrFault f xs) := by
  induction xs with
  | nil => exact (FailsIff.ok category []).congr (by simp)
  | cons a rest ih =>
      have hrest := ih fun b hb => h b (List.mem_cons_of_mem a hb)
      have hstep : allOrFault f (a :: rest) =
          (f a >>= fun b => (allOrFault f rest).map (b :: ·)) := by
        rw [allOrFault]
        cases f a <;> rfl
      rw [hstep]
      have hboth := (h a List.mem_cons_self).bind fun b _ => hrest.map (b :: ·)
      exact hboth.congr (by simp)

/-- A fault of such a step has the category, and something is wrong. -/
theorem of_error {fault : Fault} (h : FailsIff category wrong x) (hx : x = .error fault) :
    wrong ∧ fault.category = category := by
  by_cases hwrong : wrong
  · obtain ⟨fault', hx', hfault'⟩ := h.error_of hwrong
    obtain rfl : fault = fault' := by simpa [hx] using hx'
    exact ⟨hwrong, hfault'⟩
  · obtain ⟨a, ha⟩ := h.ok_of_not hwrong
    simp [hx] at ha

end FailsIff

/-! ## Types -/

namespace TypeRef

/-- A text is accepted as a type reference. -/
def Accepted (text : String) : Prop := ∃ t, parse text = .ok t

/-- Reading a type fails exactly on the texts that are not accepted, as a fault of the configuration. -/
theorem failsIff_parse (text : String) :
    FailsIff .configuration (¬Accepted text) (parse text) := by
  constructor
  · exact not_not.1
  · intro hnone
    cases hparse : parse text with
    | ok t => exact absurd ⟨t, hparse⟩ hnone
    | error fault => exact ⟨fault, rfl, (category_subject_of_parse hparse).1⟩

end TypeRef

theorem Backing.failsIff_ofText (t : Target) (type : String) :
    FailsIff .configuration (¬TypeRef.Accepted type) (ofText t type) :=
  (TypeRef.failsIff_parse type).map _

theorem BackedProperty.failsIff_ofProperty (t : Target) (p : Property) :
    FailsIff .configuration (¬TypeRef.Accepted p.type) (ofProperty t p) :=
  (Backing.failsIff_ofText t p.type).map _

theorem BackedAttached.failsIff_ofAttached (t : Target) (p : AttachedProperty) :
    FailsIff .configuration (¬TypeRef.Accepted p.valueType ∨ ¬TypeRef.Accepted p.elementType)
      (ofAttached t p) := by
  have hboth := (Backing.failsIff_ofText t p.valueType).bind fun value _ =>
    (Backing.failsIff_ofText t p.elementType).bind fun element _ =>
      FailsIff.ok .configuration (BackedAttached.mk p value element)
  exact hboth.congr (by simp)

/-! ## Names, namespaces and places -/

namespace Marker

theorem strip_of_isMarked {name : String} (h : isMarked name = true) :
    ∃ stripped, strip name = .ok stripped := by
  obtain ⟨stripped, hstripped⟩ := Option.isSome_iff_exists.1 h
  exact ⟨stripped, by simp [strip, hstripped]⟩

theorem strip_of_not_isMarked {name : String} (h : isMarked name = false) :
    strip name = .error (.unmarkedName name) := by
  have hnone : strip? name = none := by simpa [isMarked] using h
  simp [strip, hnone]

end Marker

namespace Target

/-- What is below a root is nothing, or follows a dot. -/
theorem eq_append_of_below? {root nameSpace rest : String} (h : below? root nameSpace = some rest) :
    nameSpace = root ++ rest ∧ (rest = "" ∨ ∃ more, rest = "." ++ more) := by
  unfold below? at h
  split at h
  · next heq =>
    cases h
    exact ⟨by simp [heq], .inl rfl⟩
  · obtain ⟨more, hmore, hrest⟩ := Option.map_eq_some_iff.1 h
    rw [Text.afterLead?_eq_some_iff] at hmore
    exact ⟨by rw [hmore, ← hrest, String.append_assoc], .inr ⟨more, hrest.symm⟩⟩

/-- A mapped namespace is in the root namespace of the platform. -/
theorem below?_append (root : String) {rest : String} (h : rest = "" ∨ ∃ more, rest = "." ++ more) :
    (below? root (root ++ rest)).isSome = true := by
  unfold below?
  split
  · rfl
  · next hne =>
    rcases h with rfl | ⟨more, rfl⟩
    · simp at hne
    · rw [Text.afterLead?_eq_some_iff.2 (String.append_assoc ..).symm]
      rfl

theorem failsIff_mapNamespace (t : Target) (nameSpace : String) :
    FailsIff .configuration (t.isUnderRoot nameSpace = false) (t.mapNamespace nameSpace) := by
  unfold isUnderRoot mapNamespace
  cases below? t.rootNamespace nameSpace with
  | none => exact ⟨fun h => absurd rfl h, fun _ => ⟨_, rfl, rfl⟩⟩
  | some rest => exact (FailsIff.ok _ _).congr (by simp)

theorem isUnderRoot_of_mapNamespace {t : Target} {nameSpace mapped : String}
    (h : t.mapNamespace nameSpace = .ok mapped) : t.isUnderRoot nameSpace = true := by
  unfold mapNamespace at h
  unfold isUnderRoot
  cases hbelow : below? t.rootNamespace nameSpace with
  | none => simp [hbelow] at h
  | some rest => rfl

/-- Files of a namespace of the model have a place: in the shared project, or in that of the platform
if the root namespace of the platform holds it too. -/
theorem exists_directory_of_isUnderRoot {t : Target} {nameSpace : String}
    (h : t.isUnderRoot nameSpace = true) : ∃ directory, t.directoryOf nameSpace = .ok directory := by
  unfold directoryOf
  cases below? t.platform.destinationRoot nameSpace with
  | some rest => exact ⟨_, rfl⟩
  | none =>
      obtain ⟨rest, hrest⟩ := Option.isSome_iff_exists.1 h
      exact ⟨t.directoryIn t.sharedProject rest, by simp [hrest]⟩

/-- Files of a mapped namespace have a place in the project of the platform. -/
theorem exists_directory_of_mapNamespace {t : Target} {nameSpace mapped : String}
    (h : t.mapNamespace nameSpace = .ok mapped) : ∃ directory, t.directoryOf mapped = .ok directory := by
  unfold mapNamespace at h
  split at h
  · next rest hbelow =>
    cases h
    obtain ⟨below, hmapped⟩ := Option.isSome_iff_exists.1
      (below?_append t.platform.destinationRoot (eq_append_of_below? hbelow).2)
    exact ⟨t.directoryIn t.platform.projectDirectory below, by simp [directoryOf, hmapped]⟩
  · simp at h

/-- A marked name gives a class name. -/
theorem className_of_isMarked (t : Target) {name : String} (h : Marker.isMarked name = true) :
    ∃ className, t.className name = .ok className := by
  unfold className
  cases t.known.get? name with
  | some className => exact ⟨className, rfl⟩
  | none => exact Marker.strip_of_isMarked h

end Target

/-! ## What can be wrong with an element -/

namespace ModelElement

/-- All declarations of the element are marked. -/
def Marked (e : ModelElement) : Prop := ∀ d ∈ e.declarations, Marker.isMarked d.name = true

/-- What can be wrong with a marked element for a target.  The base type is only read if the class is
no collection. -/
inductive Unfit (t : Target) (e : ModelElement) : Prop
  | nameSpace (h : t.isUnderRoot e.declaration.nameSpace = false)
  | property (p : Property) (hp : p ∈ e.declaration.properties) (h : ¬TypeRef.Accepted p.type)
  | attachedValue (p : AttachedProperty) (hp : p ∈ e.attached) (h : ¬TypeRef.Accepted p.valueType)
  | attachedElement (p : AttachedProperty) (hp : p ∈ e.attached)
      (h : ¬TypeRef.Accepted p.elementType)
  | base (className base : String) (hclass : t.className e.declaration.name = .ok className)
      (hplain : t.elementTypeOf? className = none) (hbase : e.declaration.baseType? = some base)
      (h : ¬TypeRef.Accepted base)

end ModelElement

namespace ClassSet

/-- The base class cannot be had if the element is no collection and its first base is refused. -/
theorem failsIff_baseClass (t : Target) (className : String) (d : Declaration) :
    FailsIff .configuration
      (t.elementTypeOf? className = none ∧ ∃ base, d.baseType? = some base ∧ ¬TypeRef.Accepted base)
      (baseClass t className d) := by
  unfold baseClass
  cases t.elementTypeOf? className with
  | some elementType => exact (FailsIff.ok _ _).congr (by simp)
  | none =>
      cases d.baseType? with
      | none => exact (FailsIff.ok _ _).congr (by simp)
      | some base => exact ((TypeRef.failsIff_parse base).map _).congr (by simp)

/-- An unmarked name is found before anything else, known or not. -/
theorem namesOf_of_not_marked (t : Target) {e : ModelElement} (h : ¬e.Marked) :
    ∃ d ∈ e.declarations, Marker.isMarked d.name = false ∧
      namesOf t e = .error (.unmarkedName d.name) := by
  rw [namesOf_eq]
  cases hown : Marker.isMarked e.declaration.name with
  | false =>
      refine ⟨e.declaration, List.mem_cons_self, hown, ?_⟩
      rw [Marker.strip_of_not_isMarked hown]
      rfl
  | true =>
      obtain ⟨stripped, hstripped⟩ := Marker.strip_of_isMarked hown
      rw [hstripped]
      unfold ModelElement.Marked ModelElement.declarations at h
      cases hcompanion : e.companion with
      | none => simp [hcompanion, hown] at h
      | some c =>
          have hc : Marker.isMarked c.name = false := by simpa [hcompanion, hown] using h
          refine ⟨c, by simp [ModelElement.declarations, hcompanion], hc, ?_⟩
          rw [Option.map_some, Option.getD_some, Marker.strip_of_not_isMarked hc]
          rfl

/-- With all markers in place, only the namespace can keep an element from having names. -/
theorem failsIff_namesOf (t : Target) {e : ModelElement} (h : e.Marked) :
    FailsIff .configuration (t.isUnderRoot e.declaration.nameSpace = false) (namesOf t e) := by
  have hown : Marker.isMarked e.declaration.name = true := h e.declaration List.mem_cons_self
  obtain ⟨stripped, hstripped⟩ := Marker.strip_of_isMarked hown
  obtain ⟨className, hclass⟩ := t.className_of_isMarked hown
  have hcompanion : ∃ name, (e.companion.map fun c => Marker.strip c.name).getD (.ok "") = .ok name := by
    cases hc : e.companion with
    | none => exact ⟨"", rfl⟩
    | some c => exact Marker.strip_of_isMarked (h c (by simp [ModelElement.declarations, hc]))
  obtain ⟨name, hname⟩ := hcompanion
  have hnames : namesOf t e = (t.mapNamespace e.declaration.nameSpace).map fun nameSpace =>
      ⟨className, Target.variableOfClass className, nameSpace⟩ := by
    rw [namesOf_eq, hstripped, hname]
    simp only [Target.variableName, hclass]
    cases t.mapNamespace e.declaration.nameSpace <;> rfl
  rw [hnames]
  exact (t.failsIff_mapNamespace _).map _

/-- Every class of an element that has names has a place. -/
theorem exists_path_of_mem_destinations {t : Target} {e : ModelElement} {names : Names}
    (h : namesOf t e = .ok names) {place : Destination} (hplace : place ∈ destinations names e) :
    ∃ path, t.pathOf place.nameSpace place.className = .ok path := by
  have hmap := (className_of_namesOf h).2
  have hdirectory : ∃ directory, t.directoryOf place.nameSpace = .ok directory := by
    rcases mem_destinations_iff.1 hplace with rfl | ⟨-, rfl⟩ | ⟨-, rfl⟩
    · exact Target.exists_directory_of_mapNamespace hmap
    · exact Target.exists_directory_of_mapNamespace hmap
    · exact Target.exists_directory_of_isUnderRoot (Target.isUnderRoot_of_mapNamespace hmap)
  obtain ⟨directory, hdirectory⟩ := hdirectory
  exact ⟨directory.join (Target.fileName place.className t.fileExtension), by
    rw [Target.pathOf, hdirectory]; rfl⟩

theorem exists_optionalFile {α : Type} {t : Target} {place : α → Destination} (draft : α → Draft)
    {c : Option α} (h : ∀ d ∈ (c.map place).toList, ∃ path, t.pathOf d.nameSpace d.className = .ok path) :
    ∃ files, optionalFile t place draft c = .ok files := by
  cases c with
  | none => exact ⟨[], rfl⟩
  | some c =>
      obtain ⟨path, hpath⟩ := h (place c) (by simp)
      exact ⟨_, by rw [optionalFile, hpath]; rfl⟩

/-- A class set whose classes have paths has its files. -/
theorem exists_files_of_places {t : Target} {s : ClassSet}
    (h : ∀ place ∈ s.places, ∃ path, t.pathOf place.nameSpace place.className = .ok path) :
    ∃ files, s.files t = .ok files := by
  obtain ⟨path, hpath⟩ := h ⟨s.primary.nameSpace, s.primary.name⟩ List.mem_cons_self
  obtain ⟨attached, hattached⟩ := exists_optionalFile
    (AttachedClass.draft t.indentSize s.sourceName)
    fun d hd => h d (List.mem_cons_of_mem _ (List.mem_append_left _ hd))
  obtain ⟨extensions, hextensions⟩ := exists_optionalFile
    (ExtensionClass.draft t.indentSize s.sourceName)
    fun d hd => h d (List.mem_cons_of_mem _ (List.mem_append_right _ hd))
  refine ⟨⟨path, s.primary.name, s.primary.draft t.platform t.indentSize⟩ ::
    (attached ++ extensions), ?_⟩
  rw [files_eq, hpath, hattached, hextensions]
  rfl

/-- The classes of a marked element fail to exist exactly if the element is unfit. -/
theorem failsIff_ofElement (t : Target) {e : ModelElement} (h : e.Marked) :
    FailsIff .configuration (e.Unfit t) (ofElement t e) := by
  obtain ⟨className, hclass⟩ := t.className_of_isMarked (h e.declaration List.mem_cons_self)
  have hsteps : FailsIff .configuration
      (t.isUnderRoot e.declaration.nameSpace = false ∨
        (∃ p ∈ e.declaration.properties, ¬TypeRef.Accepted p.type) ∨
          (∃ p ∈ e.attached, ¬TypeRef.Accepted p.valueType ∨ ¬TypeRef.Accepted p.elementType) ∨
            (t.elementTypeOf? className = none ∧
              ∃ base, e.declaration.baseType? = some base ∧ ¬TypeRef.Accepted base) ∨ False)
      (ofElement t e) := by
    refine (failsIff_namesOf t h).bind fun names hnames => ?_
    obtain rfl : className = names.className := by
      simpa [hclass] using (className_of_namesOf hnames).1
    refine (FailsIff.each _ fun p _ => BackedProperty.failsIff_ofProperty t p).bind
      fun properties _ => ?_
    refine (FailsIff.each _ fun p _ => BackedAttached.failsIff_ofAttached t p).bind
      fun attached _ => ?_
    exact (failsIff_baseClass t names.className e.declaration).bind fun base _ => FailsIff.ok _ _
  refine hsteps.congr ⟨?_, ?_⟩
  · rintro (hroot | ⟨p, hp, htype⟩ | ⟨p, hp, hvalue | helement⟩ |
      ⟨hplain, base, hbase, htype⟩ | hfalse)
    · exact .nameSpace hroot
    · exact .property p hp htype
    · exact .attachedValue p hp hvalue
    · exact .attachedElement p hp helement
    · exact .base className base hclass hplain hbase htype
    · exact hfalse.elim
  · rintro (hroot | ⟨p, hp, htype⟩ | ⟨p, hp, hvalue⟩ | ⟨p, hp, helement⟩ |
      ⟨className', base, hclass', hplain, hbase, htype⟩)
    · exact .inl hroot
    · exact .inr (.inl ⟨p, hp, htype⟩)
    · exact .inr (.inr (.inl ⟨p, hp, .inl hvalue⟩))
    · exact .inr (.inr (.inl ⟨p, hp, .inr helement⟩))
    · obtain rfl : className = className' := by simpa [hclass] using hclass'
      exact .inr (.inr (.inr (.inl ⟨hplain, base, hbase, htype⟩)))

end ClassSet

open ClassSet

/-- Once the classes of a marked element exist, placing their files cannot fail. -/
theorem failsIff_generate (t : Target) {e : ModelElement} (h : e.Marked) :
    FailsIff .configuration (e.Unfit t) (generate t e) := by
  have hsteps := (failsIff_ofElement t h).bind (f := fun s => s.files t) fun s hs => by
    obtain ⟨names, hnames, hplaces⟩ := places_of_ofElement hs
    obtain ⟨files, hfiles⟩ := exists_files_of_places (s := s) (t := t) fun place hplace =>
      exists_path_of_mem_destinations hnames (hplaces ▸ hplace)
    rw [hfiles]
    exact FailsIff.ok .configuration files
  exact hsteps.congr (by simp)

/-- An element without a marker is a fault of naming, whatever else is wrong with it. -/
theorem generate_of_not_marked (t : Target) {e : ModelElement} (h : ¬e.Marked) :
    ∃ fault, generate t e = .error fault ∧ fault.category = .naming := by
  obtain ⟨d, -, -, hnames⟩ := namesOf_of_not_marked t h
  refine ⟨.unmarkedName d.name, ?_, rfl⟩
  rw [generate, ofElement, hnames]
  rfl

/-- Generating the files of an element fails for a name if and only if one of its declarations is not
marked, and otherwise for the configuration if and only if the element is unfit.  In every other case
there are files, one for each class in their order, each at the place of its class.  Once an element has
names, mapping the namespaces that it uses and placing its classes cannot fail, and its accessors always
have the parameters that are read of them. -/
theorem generate_fails_iff {d : Declaration} {companion : Option Declaration} {e : ModelElement}
    (h : ModelElement.ofDeclarations d companion = .ok e) (t : Target) :
    ((∃ fault, generate t e = .error fault ∧ fault.category = .naming) ↔ ¬e.Marked) ∧
      ((∃ fault, generate t e = .error fault ∧ fault.category = .configuration) ↔
        e.Marked ∧ e.Unfit t) ∧
        ((e.Marked ∧ ¬e.Unfit t) ↔ ∃ names classes files, namesOf t e = .ok names ∧
          ofElement t e = .ok classes ∧ generate t e = .ok files ∧
            (destinations names e).map
                (fun place => (t.pathOf place.nameSpace place.className, place.className)) =
              files.map (fun f => (.ok f.path, f.className)) ∧
            classes.drafts t = files.map (·.draft)) ∧
          (∀ names, namesOf t e = .ok names →
            (∀ name ∈ e.declaration.usings, t.isUnderRoot name = true →
              ∃ mapped, t.mapNamespace name = .ok mapped) ∧
              ∀ place ∈ destinations names e,
                ∃ path, t.pathOf place.nameSpace place.className = .ok path) ∧
            ∀ p ∈ e.attached, p.HasParameters := by
  refine ⟨?_, ?_, ?_, ?_, ModelElement.attached_of_ofDeclarations h⟩
  · constructor
    · rintro ⟨fault, hfault, hnaming⟩ hmarked
      have hconfiguration := ((failsIff_generate t hmarked).of_error hfault).2
      simp [hnaming] at hconfiguration
    · exact generate_of_not_marked t
  · constructor
    · rintro ⟨fault, hfault, hconfiguration⟩
      by_cases hmarked : e.Marked
      · exact ⟨hmarked, ((failsIff_generate t hmarked).of_error hfault).1⟩
      · obtain ⟨fault', hfault', hnaming⟩ := generate_of_not_marked t hmarked
        obtain rfl : fault = fault' := by simpa [hfault] using hfault'
        simp [hnaming] at hconfiguration
    · rintro ⟨hmarked, hunfit⟩
      exact (failsIff_generate t hmarked).error_of hunfit
  · constructor
    · rintro ⟨hmarked, hfit⟩
      obtain ⟨files, hfiles⟩ := (failsIff_generate t hmarked).ok_of_not hfit
      obtain ⟨classes, hclasses, hplaced⟩ := bind_eq_ok.1 hfiles
      obtain ⟨names, hnames, hplaces⟩ := places_of_ofElement hclasses
      obtain ⟨hpaths, hdrafts⟩ := files_eq_ok hplaced
      exact ⟨names, classes, files, hnames, hclasses, hfiles, hplaces ▸ hpaths, hdrafts⟩
    · rintro ⟨names, classes, files, -, -, hfiles, -, -⟩
      have hmarked : e.Marked := by
        by_contra hnot
        obtain ⟨fault, hfault, -⟩ := generate_of_not_marked t hnot
        simp [hfiles] at hfault
      refine ⟨hmarked, fun hunfit => ?_⟩
      obtain ⟨fault, hfault, -⟩ := (failsIff_generate t hmarked).error_of hunfit
      simp [hfiles] at hfault
  · intro names hnames
    constructor
    · intro name _ hroot
      exact (t.failsIff_mapNamespace name).ok_of_not (by simp [hroot])
    · intro place hplace
      exact exists_path_of_mem_destinations hnames hplace

/-! A canvas with an attached interface, whose base type breaks off. -/

private def canvas : Declaration :=
  ⟨"ICanvas", "Microsoft.StandardUI", ["System", "Microsoft.StandardUI.Shapes"],
    [⟨"Width", "double", none, true, []⟩], [], ["IList<"], none⟩

private def getLeft : Method := ⟨"GetLeft", "double", [⟨"element", "IElement"⟩]⟩

private def setLeft : Method :=
  ⟨"SetLeft", "void", [⟨"element", "IElement"⟩, ⟨"left", "double"⟩]⟩

private def canvasAttached : Declaration :=
  ⟨"ICanvasAttached", "Microsoft.StandardUI", [], [], [getLeft, setLeft], [], none⟩

private def canvasElement : ModelElement where
  declaration := canvas
  companion := some canvasAttached
  attached := [⟨"Left", getLeft, some setLeft⟩]

theorem generate_fails_iff_canvas :
    ModelElement.ofDeclarations canvas (some canvasAttached) = .ok canvasElement ∧
      (canvasElement.Marked ∧ canvasElement.Unfit Target.wpfSrc) ∧
        (∃ fault, generate Target.wpfSrc canvasElement = .error fault ∧
          fault.category = .configuration) ∧
          ∀ p ∈ canvasElement.attached, p.HasParameters := by
  have hpaired : ModelElement.ofDeclarations canvas (some canvasAttached) = .ok canvasElement := by
    decide +kernel
  have hmarked : canvasElement.Marked := by
    intro d hd
    have hall : canvasElement.declarations.all fun d => Marker.isMarked d.name := by decide +kernel
    exact List.all_eq_true.1 hall d hd
  have hbase : ¬TypeRef.Accepted "IList<" := by
    rintro ⟨t, ht⟩
    have hparse : TypeRef.parse "IList<" = .error (.malformedType "IList<") := by decide +kernel
    simp [hparse] at ht
  have hunfit : canvasElement.Unfit Target.wpfSrc :=
    .base "Canvas" "IList<" (by decide +kernel) rfl rfl hbase
  obtain ⟨-, hconfiguration, -, -, hparameters⟩ := generate_fails_iff hpaired Target.wpfSrc
  exact ⟨hpaired, ⟨hmarked, hunfit⟩, hconfiguration.2 ⟨hmarked, hunfit⟩, hparameters⟩

end PlatformClasses
