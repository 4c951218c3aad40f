import Mathlib.Data.List.Count
import Mathlib.Data.List.Nodup
import PlatformClasses.Proofs.Backing.Defaults
import PlatformClasses.Proofs.ClassFile.Contents

/-!
# Imports

A primary class imports each of its namespaces once (`nodup_imports`), and `System` among them if one of
the properties of the interface is an array (`mem_imports_iff`).  What the class makes empty arrays for is
another matter: also for an attached property that is an array, and for a property of any type whose
default value says so.  Empty arrays need `System`, which is therefore missing for these if nothing else
imports it, and for no others (`emptyArrays_resolved_iff`).
-/

namespace PlatformClasses

namespace ClassSet

/-! ## Names without repetitions -/

/-- A name that is added comes last, unless it is there. -/
theorem firstOccurrences_concat (names : List String) (name : String) :
    firstOccurrences (names ++ [name]) =
      if name ∈ firstOccurrences names then firstOccurrences names
      else firstOccurrences names ++ [name] := by
  simp [firstOccurrences]

/-- The first occurrences are the names that there are. -/
theorem mem_firstOccurrences {names : List String} {name : String} :
    name ∈ firstOccurrences names ↔ name ∈ names := by
  induction names using List.reverseRecOn with
  | nil => simp [firstOccurrences]
  | append_singleton names last ih =>
      rw [firstOccurrences_concat, List.mem_append, List.mem_singleton]
      split
      · next hseen =>
        rw [ih]
        refine (or_iff_left_of_imp ?_).symm
        rintro rfl
        exact ih.1 hseen
      · rw [List.mem_append, List.mem_singleton, ih]

/-- No name comes twice. -/
theorem nodup_firstOccurrences (names : List String) : (firstOccurrences names).Nodup := by
  induction names using List.reverseRecOn with
  | nil => simp [firstOccurrences]
  | append_singleton names last ih =>
      rw [firstOccurrences_concat]
      split
      · exact ih
      · next hnew =>
        rw [← List.concat_eq_append]
        exact ih.concat hnew

/-! ## Import lists -/

theorem nodup_imports (t : Target) (className : String) (d : Declaration)
    (properties : List BackedProperty) : (imports t className d properties).Nodup :=
  nodup_firstOccurrences _

/-- The properties add `System` to the other imports if one of them is an array. -/
theorem mem_imports_iff {t : Target} {className : String} {d : Declaration}
    {properties : List BackedProperty} {name : String} :
    name ∈ imports t className d properties ↔ name ∈ imports t className d [] ∨
      (name = "System" ∧ ∃ p ∈ properties, p.backing.isArray = true) := by
  have harrays : name ∈ (if properties.any fun p => p.backing.isArray then ["System"] else []) ↔
      name = "System" ∧ ∃ p ∈ properties, p.backing.isArray = true := by
    rw [← List.any_eq_true (p := fun p : BackedProperty => p.backing.isArray)]
    split <;> simp [*]
  simp only [imports, mem_firstOccurrences, List.mem_append, harrays, List.any_nil,
    Bool.false_eq_true, if_false, List.not_mem_nil, or_false]
  exact or_right_comm

end ClassSet

/-! ## The lines of a primary class -/

open ClassFile

/-- The import lines of a class stand between the first line and that of the namespace, and its
descriptors stand together. -/
structure PrimaryClass.StandsIn (p : Platform) (c : PrimaryClass) (lines : List String) : Prop where
  imports : ∃ first rest, lines =
    first :: (c.imports.map importLine ++ s!"namespace {c.nameSpace}" :: rest)
  descriptors : c.descriptors.map (Descriptor.line p c.name) <:+: lines

/-- A class stands in its draft. -/
theorem PrimaryClass.standsIn_draft (p : Platform) (indentSize : Int) (c : PrimaryClass) :
    c.StandsIn p (c.draft p indentSize).filledLines := by
  rw [filledLines_draft]
  constructor
  · exact ⟨_, _, rfl⟩
  · refine List.IsInfix.trans ?_ (c.suffix_memberLines p).isInfix
    rw [memberLines, List.append_assoc]
    exact (List.prefix_append _ _).isInfix

theorem ClassFile.importLine_injective : Function.Injective importLine := by
  intro name name' h
  simpa [importLine, ToString.toString] using h

/-- A class has one line for each namespace that it imports. -/
theorem PrimaryClass.count_importLine {c : PrimaryClass} (hnodup : c.imports.Nodup) (name : String) :
    (c.imports.map importLine).count (importLine name) = 1 ↔ name ∈ c.imports := by
  rw [List.count_map_of_injective _ _ importLine_injective]
  constructor
  · intro hone
    exact List.count_pos_iff.1 (by omega)
  · exact List.count_eq_one_of_mem hnodup

/-! ## What makes empty arrays -/

/-- The text of an array type. -/
def IsArrayText (type : String) : Prop :=
  ∃ parsed, TypeRef.parse type = .ok parsed ∧ parsed.isArray = true

/-- A backing is an array if the text of its type is one of an array. -/
theorem Backing.isArray_iff {t : Target} {type : String} {b : Backing} (h : ofText t type = .ok b) :
    b.isArray = true ↔ IsArrayText type := by
  obtain ⟨parsed, hparsed, rfl⟩ := ofText_eq_ok.1 h
  have hmapped : (ofTypeRef t parsed).isArray = parsed.isArray :=
    TypeRef.isArray_mapNames t.mapName parsed
  simp [IsArrayText, hparsed, hmapped]

/-- The default value that a property asks for is an empty array, and the class uses it: the property is
no collection, and the platform does not wrap its type. -/
def Property.AsksForEmptyArray (t : Target) (p : Property) : Prop :=
  ∃ b value, Backing.ofText t p.type = .ok b ∧ t.elementTypeOf? b.text = none ∧ b.wrapper = none ∧
    p.defaultValue = some value ∧ IsEmptyArray value

/-- The descriptor of a property makes an empty array if the property asks for it, or if it is an array
and asks for nothing else. -/
theorem BackedProperty.isEmptyArray_descriptor_iff {t : Target} {p : Property} {b : BackedProperty}
    (h : ofProperty t p = .ok b) : IsEmptyArray (b.descriptor t).defaultValue ↔
      p.AsksForEmptyArray t ∨
        (IsArrayText p.type ∧ p.defaultValue = none ∧ b.isCollection t = false) := by
  obtain ⟨backing, hbacking, rfl⟩ := map_eq_ok.1 h
  have hasks : p.AsksForEmptyArray t ↔ t.elementTypeOf? backing.text = none ∧
      backing.wrapper = none ∧ ∃ value, p.defaultValue = some value ∧ IsEmptyArray value := by
    simp [Property.AsksForEmptyArray, hbacking]
  rw [hasks, ← Backing.isArray_iff hbacking]
  cases hcollection : t.elementTypeOf? backing.text with
  | some elementType =>
      have hnull : ¬IsEmptyArray "null" := fun hempty => absurd hempty.head (by decide)
      simp [descriptor, isCollection, hcollection, hnull]
  | none =>
      cases hdefault : p.defaultValue with
      | none =>
          have hnone := Backing.isEmptyArray_defaultValue_none_iff hbacking
          simpa [descriptor, isCollection, hcollection, hdefault] using hnone
      | some value =>
          have hsome := @Backing.isEmptyArray_defaultValue_some_iff backing value
          simpa [descriptor, isCollection, hcollection, hdefault] using hsome

/-- An attached property asks for an empty array if its type is an array. -/
theorem BackedAttached.isEmptyArray_descriptor_iff {t : Target} {p : AttachedProperty}
    {b : BackedAttached} (h : ofAttached t p = .ok b) :
    IsEmptyArray b.descriptor.defaultValue ↔ IsArrayText p.valueType := by
  obtain ⟨-, hvalue, -⟩ := ClassSet.backings_of_ofAttached h
  rw [← Backing.isArray_iff hvalue]
  exact Backing.isEmptyArray_defaultValue_none_iff hvalue

namespace ModelElement

/-- An empty array is made for something other than a property of an array type. -/
def MakesOtherArrays (t : Target) (e : ModelElement) : Prop :=
  (∃ p ∈ e.attached, IsArrayText p.valueType) ∨
    ∃ p ∈ e.declaration.properties, p.AsksForEmptyArray t

/-- The class of an element imports `System`, for the sake of an array property or otherwise. -/
def ImportsSystem (t : Target) (className : String) (e : ModelElement) : Prop :=
  (∃ p ∈ e.declaration.properties, IsArrayText p.type) ∨
    "System" ∈ ClassSet.imports t className e.declaration []

end ModelElement

/-- The first file of an element has the import lines of the primary class and its descriptors.  Empty
arrays among the default values have the one line that they need if and only if `System` is imported
wherever something other than a property of an array type makes an empty array. -/
theorem emptyArrays_resolved_iff {t : Target} {e : ModelElement} {files : List GeneratedFile}
    (h : generate t e = .ok files) :
    ∃ f s, files.head? = some f ∧ ClassSet.ofElement t e = .ok s ∧
      s.primary.StandsIn t.platform f.draft.filledLines ∧
      (((∃ d ∈ s.primary.descriptors, IsEmptyArray d.defaultValue) →
          (s.primary.imports.map importLine).count "using System;" = 1) ↔
        (e.MakesOtherArrays t → e.ImportsSystem t s.primary.name)) := by
  obtain ⟨s, hs, hfiles⟩ := bind_eq_ok.1 h
  obtain ⟨f, rest, rfl, hdraft, -⟩ :=
    List.map_eq_cons_iff.1 (ClassSet.files_eq_ok hfiles).2.symm
  obtain ⟨names, properties, attached, base, hmade⟩ := ClassSet.exists_isMadeOf hs
  have hbacked := forall₂_of_allOrFault hmade.backed
  have hattached := forall₂_of_allOrFault hmade.backedAttached
  have himports : (s.primary.imports.map importLine).count "using System;" = 1 ↔
      e.ImportsSystem t s.primary.name := by
    have hnodup : s.primary.imports.Nodup := by
      rw [hmade.primary]
      exact ClassSet.nodup_imports ..
    have harrays : (∃ p ∈ e.declaration.properties, IsArrayText p.type) ↔
        ∃ b ∈ properties, b.backing.isArray = true := by
      refine exists_mem_iff_of_forall₂ hbacked ?_
      intro p b hb
      obtain ⟨backing, hbacking, rfl⟩ := map_eq_ok.1 hb
      exact (Backing.isArray_iff hbacking).symm
    refine (PrimaryClass.count_importLine hnodup "System").trans ?_
    rw [ModelElement.ImportsSystem, harrays, hmade.primary]
    refine ClassSet.mem_imports_iff.trans ?_
    rw [or_comm, and_iff_right rfl]
    rfl
  have hdescriptors : (∃ d ∈ s.primary.descriptors, IsEmptyArray d.defaultValue) ↔
      (∃ b ∈ properties, IsEmptyArray (b.descriptor t).defaultValue) ∨
        ∃ p ∈ e.attached, IsArrayText p.valueType := by
    have hempty := exists_mem_iff_of_forall₂ hattached
      fun p b hb => (BackedAttached.isEmptyArray_descriptor_iff hb).symm
    rw [hempty, hmade.primary]
    simp [ClassSet.primaryOf, or_and_right, exists_or]
  refine ⟨f, s, rfl, hs, ?_, ?_⟩
  · rw [hdraft]
    exact s.primary.standsIn_draft t.platform t.indentSize
  rw [himports, hdescriptors]
  constructor
  · rintro hneeded (hofAttached | ⟨p, hp, hasks⟩)
    · exact hneeded (.inr hofAttached)
    · obtain ⟨b, hb, hof⟩ := exists_of_forall₂ hbacked hp
      exact hneeded (.inl ⟨b, hb, (BackedProperty.isEmptyArray_descriptor_iff hof).2 (.inl hasks)⟩)
  -- a property of an array type imports `System` itself, so that only the others are left
  · rintro hother (⟨b, hb, hempty⟩ | hofAttached)
    · obtain ⟨p, hp, hof⟩ := exists_of_forall₂ hbacked.flip hb
      rcases (BackedProperty.isEmptyArray_descriptor_iff hof).1 hempty with hasks | ⟨harray, -⟩
      · exact hother (.inr ⟨p, hp, hasks⟩)
      · exact .inl ⟨p, hp, harray⟩
    · exact hother (.inl hofAttached)

/-! A path with an attached array of points, with and without a directive for `System`. -/

private def getPoints : Method := ⟨"GetPoints", "int[]", [⟨"element", "IElement"⟩]⟩

private def pathElement (usings : List String) : ModelElement where
  declaration := ⟨"IPath", "Microsoft.StandardUI", usings, [], [], [], none⟩
  companion := some ⟨"IPathAttached", "Microsoft.StandardUI", usings, [], [getPoints], [], none⟩
  attached := [⟨"Points", getPoints, none⟩]

private def pointsDescriptor : Descriptor := ⟨"Points", true, "int[]", "Array.Empty<int>()"⟩

theorem emptyArrays_resolved_of_path :
    ∃ files f, ∃ s : ClassSet, generate Target.wpfOut (pathElement ["System"]) = .ok files ∧
      files.head? = some f ∧ s.primary.StandsIn Target.wpfOut.platform f.draft.filledLines ∧
        s.primary.descriptors = [pointsDescriptor] ∧
          (s.primary.imports.map importLine).count "using System;" = 1 := by
  have hgenerate : (generate Target.wpfOut (pathElement ["System"])).map List.length = .ok 2 := by
    decide +kernel
  have hprimary : (ClassSet.ofElement Target.wpfOut (pathElement ["System"])).map
      (fun s => (s.primary.name, s.primary.descriptors)) = .ok ("Path", [pointsDescriptor]) := by
    decide +kernel
  obtain ⟨files, hfiles, -⟩ := map_eq_ok.1 hgenerate
  obtain ⟨f, s, hf, hs, hstands, hresolved⟩ := emptyArrays_resolved_iff hfiles
  rw [hs] at hprimary
  obtain ⟨hname, hdescriptors⟩ := Prod.mk.inj (Except.ok.inj hprimary)
  refine ⟨files, f, s, hfiles, hf, hstands, hdescriptors, hresolved.2 ?_ ?_⟩
  · intro _
    rw [hname]
    exact .inr (by decide +kernel)
  · rw [hdescriptors]
    exact ⟨pointsDescriptor, List.mem_cons_self, "int", rfl⟩

/-- Nothing imports `System` for the sake of an attached array. -/
theorem attached_array_unresolved :
    ∃ f rest, generate Target.wpfOut (pathElement []) = .ok (f :: rest) ∧
      pointsDescriptor.line Target.wpfOut.platform "Path" ∈ f.draft.filledLines ∧
        "using System;" ∉ f.draft.filledLines := by
  have hlines : (generate Target.wpfOut (pathElement [])).map
      (fun files => files.map fun f =>
        (decide (pointsDescriptor.line Target.wpfOut.platform "Path" ∈ f.draft.filledLines),
          decide ("using System;" ∉ f.draft.filledLines))) = .ok [(true, true), (false, true)] := by
    decide +kernel
  obtain ⟨files, hfiles, hlines⟩ := map_eq_ok.1 hlines
  obtain ⟨f, rest, rfl, hf, -⟩ := List.map_eq_cons_iff.1 hlines
  obtain ⟨hdescriptor, hsystem⟩ := Prod.mk.inj hf
  exact ⟨f, rest, hfiles, of_decide_eq_true hdescriptor, of_decide_eq_true hsystem⟩

end PlatformClasses
