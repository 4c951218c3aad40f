import Mathlib.Data.List.Basic
import PlatformClasses.Proofs.ClassFile.Contents
import PlatformClasses.Proofs.ClassFile.Imports

/-!
# The order of imports

The primary class of an element imports what the using directives name, what these are mapped to, and
some namespaces of its own.  Names from these sources may coincide in any way.  `importEntries` lists the
names of all sources one after the other, with repetitions, and the class has an import line for each of
them at its first occurrence (`imports_in_order`); the attached class has the same lines.
-/

namespace PlatformClasses

/-- A list has the entries of another one, each of them once and in the order in which they first occur
there. -/
structure FirstOccurrences (entries listed : List String) : Prop where
  nodup : listed.Nodup
  mem_iff : ∀ name, name ∈ listed ↔ name ∈ entries
  order : listed.Pairwise fun a b => entries.idxOf a < entries.idxOf b

namespace ClassSet

/-- First occurrences stand in the order in which the names come up. -/
theorem pairwise_firstOccurrences (names : List String) :
    (firstOccurrences names).Pairwise fun a b => names.idxOf a < names.idxOf b := by
  induction names using List.reverseRecOn with
  | nil => simp [firstOccurrences]
  | append_singleton names last ih =>
      have hseen : ∀ {a}, a ∈ firstOccurrences names → (names ++ [last]).idxOf a = names.idxOf a :=
        fun ha => List.idxOf_append_of_mem (mem_firstOccurrences.1 ha)
      have hkept : (firstOccurrences names).Pairwise
          fun a b => (names ++ [last]).idxOf a < (names ++ [last]).idxOf b := by
        refine ih.imp_of_mem ?_
        intro a b ha hb hab
        rwa [hseen ha, hseen hb]
      rw [firstOccurrences_concat]
      by_cases hmem : last ∈ firstOccurrences names
      · rwa [if_pos hmem]
      -- a new name first occurs at the end, behind all that are kept
      · rw [if_neg hmem, List.pairwise_append]
        refine ⟨hkept, List.pairwise_singleton _ _, ?_⟩
        intro a ha b hb
        obtain rfl := List.mem_singleton.1 hb
        have hbefore : names.idxOf a < names.length :=
          List.idxOf_lt_length_of_mem (mem_firstOccurrences.1 ha)
        rw [hseen ha, List.idxOf_append_of_notMem fun h => hmem (mem_firstOccurrences.2 h)]
        omega

/-- What is computed as first occurrences are the first occurrences. -/
theorem firstOccurrences_spec (names : List String) :
    FirstOccurrences names (firstOccurrences names) :=
  ⟨nodup_firstOccurrences names, fun _ => mem_firstOccurrences, pairwise_firstOccurrences names⟩

end ClassSet

/-! ## What is imported -/

/-- The names that a using directive gives: its own, and after it that of the platform if it lies in the
root namespace. -/
inductive Target.UsingGives (t : Target) (name : String) : List String → Prop
  | foreign (h : t.isUnderRoot name = false) : UsingGives t name [name]
  | mapped {image : String} (h : t.isUnderRoot name = true) (himage : t.mapNamespace name = .ok image) :
      UsingGives t name [name, image]

/-- A directive gives its namespace, and before it that of the platform if this is another one. -/
theorem Target.usingGives_importsOfUsing (t : Target) (name : String) :
    t.UsingGives name (ClassSet.importsOfUsing t name) := by
  unfold ClassSet.importsOfUsing mapNamespace
  cases hbelow : below? t.rootNamespace name with
  | none => exact .foreign (by simp [isUnderRoot, hbelow])
  | some rest => exact .mapped (by simp [isUnderRoot, hbelow]) (by simp [mapNamespace, hbelow])

/-- The names that a primary class imports, with repetitions: those of the using directives, the namespace
of the declaration, what the platform requires, and what arrays and converters need. -/
def importEntries (t : Target) (d : Declaration) (ofUsings : List (List String))
    (arrays converters : Bool) : List String :=
  ofUsings.flatten ++ d.nameSpace :: (t.platform.requiredImports ++
    ((if arrays then ["System"] else []) ++
      if converters then [t.platform.convertersNamespace] else []))

/-- The imports are the first occurrences among the entries. -/
theorem ClassSet.imports_eq (t : Target) (className : String) (d : Declaration)
    (properties : List BackedProperty) :
    imports t className d properties = firstOccurrences
      (importEntries t d (d.usings.map (importsOfUsing t)) (properties.any (·.backing.isArray))
        (t.platform.hasConverter className)) := by
  simp only [imports, importEntries, List.flatMap_def, List.append_assoc, List.cons_append,
    List.nil_append]

/-- The primary class of an element has one import line for each name that it imports, in the order in
which these first occur among the names of the using directives with those of the platform, the namespace
of the element, the required imports, `System` if some property is an array, and the namespace of the
converters if the class carries a converter.  The attached class has the same import lines. -/
theorem imports_in_order {t : Target} {e : ModelElement} {files : List GeneratedFile}
    (h : generate t e = .ok files) :
    ∃ fs s ofUsings arrays converters, files = ElementFiles.toList fs ∧ fs.Hold t.platform s ∧
      List.Forall₂ t.UsingGives e.declaration.usings ofUsings ∧
      (arrays = true ↔ ∃ p ∈ e.declaration.properties, IsArrayText p.type) ∧
      (converters = true ↔
        PrimaryClass.converterAttribute s.primary.name ∈ s.primary.attributes) ∧
      FirstOccurrences (importEntries t e.declaration ofUsings arrays converters)
        s.primary.imports ∧
      (s.primary.imports.map ClassFile.importLine).Nodup ∧
      ∀ c ∈ s.attached, c.imports = s.primary.imports := by
  obtain ⟨fs, s, names, properties, attached, base, rfl, hold, hmade⟩ :=
    ElementFiles.exists_of_generate h
  have himports : s.primary.imports =
      ClassSet.imports t names.className e.declaration properties := by
    rw [hmade.primary]
    rfl
  refine ⟨fs, s, e.declaration.usings.map (ClassSet.importsOfUsing t),
    properties.any (·.backing.isArray), s.primary.hasConverter, rfl, hold, ?_, ?_, ?_, ?_, ?_, ?_⟩
  · rw [List.forall₂_map_right_iff, List.forall₂_same]
    exact fun name _ => t.usingGives_importsOfUsing name
  · rw [List.any_eq_true, exists_mem_iff_of_forall₂ (forall₂_of_allOrFault hmade.backed)]
    intro p b hb
    obtain ⟨backing, hbacking, rfl⟩ := map_eq_ok.1 hb
    exact (Backing.isArray_iff hbacking).symm
  · cases hconverter : s.primary.hasConverter <;> simp [PrimaryClass.attributes, hconverter]
  · have hconverter : s.primary.hasConverter = t.platform.hasConverter names.className := by
      rw [hmade.primary]
      rfl
    rw [himports, ClassSet.imports_eq, hconverter]
    exact ClassSet.firstOccurrences_spec _
  · rw [himports]
    exact (ClassSet.nodup_imports ..).map ClassFile.importLine_injective
  · intro c hc
    have hsome : s.attached = some c := hc
    rw [hmade.attachedClass] at hsome
    obtain ⟨companion, -, rfl⟩ := Option.map_eq_some_iff.1 hsome
    rfl

/-! A brush with an array, whose using directives name the platform's namespaces themselves, some of them
again. -/

private def gradient : ModelElement where
  declaration :=
    ⟨"IBrush", "Microsoft.StandardUI",
      ["System.Windows", "Microsoft.StandardUI", "Microsoft.StandardUI.Wpf", "System.Windows"],
      [⟨"Stops", "double[]", none, false, []⟩], [], [], none⟩
  companion := none
  attached := []

theorem imports_in_order_gradient :
    ∃ files fs s ofUsings converters, generate Target.wpfSrc gradient = .ok files ∧
      files = ElementFiles.toList fs ∧ fs.Hold Target.wpfSrc.platform s ∧
      FirstOccurrences (importEntries Target.wpfSrc gradient.declaration ofUsings true converters)
        s.primary.imports ∧
      (s.primary.imports.map ClassFile.importLine).Nodup ∧ "System" ∈ s.primary.imports := by
  have hgenerate : (generate Target.wpfSrc gradient).map List.length = .ok 1 := by decide +kernel
  have harray : (TypeRef.parse "double[]").map (·.isArray) = .ok true := by decide +kernel
  obtain ⟨files, hfiles, -⟩ := map_eq_ok.1 hgenerate
  obtain ⟨fs, s, ofUsings, arrays, converters, hlist, hold, -, harrays, -, hfirst, hnodup, -⟩ :=
    imports_in_order hfiles
  obtain rfl : arrays = true := harrays.2 ⟨_, .head _, map_eq_ok.1 harray⟩
  have hsystem : "System" ∈ importEntries Target.wpfSrc gradient.declaration ofUsings true converters := by
    simp [importEntries]
  exact ⟨files, fs, s, ofUsings, converters, hfiles, hlist, hold, hfirst, hnodup,
    (hfirst.mem_iff "System").2 hsystem⟩

end PlatformClasses
