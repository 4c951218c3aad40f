import PlatformClasses.Proofs.ClassFile.Contents

/-!
# The members of properties

Each property of an interface makes members of four kinds: a descriptor, an accessor with the conversion
to the declared type, an assignment in the constructor and an extension method.  The kinds stand in
different places of two files, and whether a property has a conversion, an assignment or a method is
decided separately for each.  Here the members of one property are put together (`AreOf`): the assigned
properties are those whose descriptor has null for a default value, whatever they ask for.

The places are then filled with the members of all properties in the order of declaration, each once, and
with nothing else (`properties_generated_in_order`).
-/

namespace PlatformClasses

/-- What is generated for a property of an interface. -/
structure PropertyMembers where
  descriptor : Descriptor
  accessor : Accessor
  /-- What the constructor gives the property. -/
  assignment : Option Assignment
  method : Option ExtensionMethod

/-- The backing type of a property is a collection. -/
def Property.IsCollection (t : Target) (p : Property) : Prop :=
  ∃ b, Backing.ofText t p.type = .ok b ∧ (t.elementTypeOf? b.text).isSome = true

namespace PropertyMembers

/-- The members are those of a property that is stored as its backing type. -/
structure AreOf (t : Target) (interfaceName receiver : String) (p : Property) (b : Backing)
    (m : PropertyMembers) : Prop where
  backed : Backing.ofText t p.type = .ok b
  declared : TypeRef.parse p.type = .ok b.source
  descriptor : m.descriptor = BackedProperty.descriptor t ⟨p, b⟩
  registered : m.descriptor.property = p.name ∧ m.descriptor.isAttached = false ∧
    m.descriptor.valueType = b.text
  accessor : m.accessor.property = p.name ∧ m.accessor.backingType = b.text
  conversion_iff : m.accessor.conversion.isSome = true ↔ b.sourceText ≠ b.text
  conversion : ∀ c ∈ m.accessor.conversion,
    c.interfaceName = interfaceName ∧ c.declaredType = b.sourceText
  assignment_iff : m.assignment.isSome = true ↔ (t.elementTypeOf? b.text).isSome = true
  assignment : ∀ a ∈ m.assignment, a.property = p.name ∧ a.type = m.descriptor.valueType
  /-- The assigned properties are those whose default value is null, whatever they ask for. -/
  default_iff : m.assignment.isSome = true ↔ ∀ asked,
    (BackedProperty.descriptor t ⟨{ p with defaultValue := asked }, b⟩).defaultValue = "null"
  method_iff : m.method.isSome = true ↔ p.isFluent = true
  method : ∀ x ∈ m.method, x = ⟨interfaceName, p.name, receiver, b.sourceText⟩

/-- The classes of an element have these members and no others of their kinds, but for the descriptors of
attached properties, which come after them. -/
structure AreIn (s : ClassSet) (members : List PropertyMembers) (attached : List Descriptor) :
    Prop where
  descriptors : s.primary.descriptors = members.map (·.descriptor) ++ attached
  accessors : s.primary.accessors = members.map (·.accessor)
  assignments : s.primary.assignments = members.filterMap (·.assignment)
  methods : ∀ c ∈ s.extensions, c.methods = members.filterMap (·.method)

end PropertyMembers

/-- A descriptor registers an attached property with the backing type of its value. -/
structure Descriptor.Registers (t : Target) (p : AttachedProperty) (d : Descriptor) : Prop where
  property : d.property = p.name
  isAttached : d.isAttached = true
  valueType : ∃ b, Backing.ofText t p.valueType = .ok b ∧ d.valueType = b.text

/-! ## One property -/

/-- A backing type does not replace what a property asks for by null. -/
theorem Backing.defaultValue_one_ne_null (b : Backing) : b.defaultValue (some "1") ≠ "null" := by
  unfold defaultValue
  cases b.wrapper with
  | none => simp
  | some wrapper =>
      intro hnull
      have hchars := congrArg String.toList hnull
      simp [ToString.toString] at hchars

/-- The descriptor of an attached property registers it. -/
theorem BackedAttached.registers_descriptor {t : Target} {p : AttachedProperty} {b : BackedAttached}
    (h : ofAttached t p = .ok b) : b.descriptor.Registers t p := by
  obtain ⟨rfl, hvalue, -⟩ := ClassSet.backings_of_ofAttached h
  exact ⟨rfl, rfl, b.value, hvalue, rfl⟩

namespace BackedProperty

/-- The members of a property with its backing type. -/
def members (t : Target) (interfaceName receiver : String) (b : BackedProperty) : PropertyMembers where
  descriptor := b.descriptor t
  accessor := .ofProperty interfaceName b.backing b.property.name
  assignment := if b.isCollection t then some ⟨b.property.name, b.backing.text⟩ else none
  method := b.extensionMethod? interfaceName receiver

/-- The default value is null for all that a property may ask for if and only if it is a collection. -/
theorem forall_defaultValue_eq_null_iff (t : Target) (p : Property) (b : Backing) :
    (∀ asked, (descriptor t ⟨{ p with defaultValue := asked }, b⟩).defaultValue = "null") ↔
      (t.elementTypeOf? b.text).isSome = true := by
  constructor
  · intro hnull
    by_contra hother
    -- another property would be given what it asks for
    have hone := hnull (some "1")
    rw [descriptor, isCollection, if_neg hother] at hone
    exact b.defaultValue_one_ne_null hone
  · intro hcollection asked
    rw [descriptor, isCollection, if_pos hcollection]

/-- The members that are generated for a property are those of the property. -/
theorem members_areOf {t : Target} {p : Property} {b : BackedProperty} (h : ofProperty t p = .ok b)
    (interfaceName receiver : String) :
    PropertyMembers.AreOf t interfaceName receiver p b.backing (b.members t interfaceName receiver) := by
  obtain ⟨backing, hbacking, rfl⟩ := map_eq_ok.1 h
  obtain ⟨parsed, hparsed, hof⟩ := map_eq_ok.1 hbacking
  have hassigned : (members t interfaceName receiver ⟨p, backing⟩).assignment.isSome = true ↔
      (t.elementTypeOf? backing.text).isSome = true := by
    unfold members isCollection
    split <;> simp [*]
  constructor
  case backed => exact hbacking
  case declared =>
    rw [← hof]
    exact hparsed
  case descriptor => rfl
  case registered => exact ⟨rfl, rfl, rfl⟩
  case accessor => exact ⟨rfl, rfl⟩
  case conversion_iff =>
    rw [members, Accessor.ofProperty, Backing.differs]
    by_cases hsame : backing.sourceText = backing.text
    · simp [hsame]
    · simp [hsame, Ne.symm hsame]
  case conversion =>
    intro c hc
    rw [members, Accessor.ofProperty] at hc
    obtain ⟨-, rfl⟩ : backing.differs = true ∧ _ = c := by simpa using hc
    exact ⟨rfl, rfl⟩
  case assignment_iff => exact hassigned
  case assignment =>
    intro a ha
    obtain ⟨-, rfl⟩ : isCollection t ⟨p, backing⟩ = true ∧ _ = a := by simpa [members] using ha
    exact ⟨rfl, rfl⟩
  case default_iff => rw [hassigned, forall_defaultValue_eq_null_iff]
  case method_iff => cases hfluent : p.isFluent <;> simp [members, extensionMethod?, hfluent]
  case method =>
    intro x hx
    obtain ⟨-, rfl⟩ : p.isFluent = true ∧ _ = x := by simpa [members, extensionMethod?] using hx
    rfl

end BackedProperty

/-! ## All properties -/

/-- There is a constructor if there is anything to assign. -/
theorem PrimaryClass.isSome_constructor?_iff (c : PrimaryClass) :
    c.constructor?.isSome = true ↔ ∃ a, a ∈ c.assignments := by
  cases h : c.assignments with
  | nil => simp [constructor?, h]
  | cons a rest =>
      rw [constructor?, if_neg (by simp [h])]
      exact iff_of_true rfl ⟨a, List.mem_cons_self⟩

namespace ClassSet.IsMadeOf

variable {t : Target} {e : ModelElement} {s : ClassSet} {names : Names}
  {properties : List BackedProperty} {attached : List BackedAttached} {base : String}

/-- The classes of an element hold the members of all of its properties, in order. -/
theorem propertyMembers_areIn (h : IsMadeOf t e s names properties attached base) :
    PropertyMembers.AreIn s
      (properties.map (·.members t e.declaration.name names.variableName))
      (attached.map (·.descriptor)) := by
  constructor
  case descriptors =>
    rw [h.primary, List.map_map]
    rfl
  case accessors =>
    rw [h.primary, List.map_map]
    rfl
  case assignments =>
    -- the model filters the collections before it makes assignments of them
    rw [h.primary, List.filterMap_map]
    show (properties.filter (·.isCollection t)).map _ = _
    rw [← List.filterMap_eq_map, List.filterMap_filter]
    rfl
  case methods =>
    intro c hc
    have hsome : s.extensions = some c := hc
    rw [h.extensions] at hsome
    split at hsome
    · rw [List.filterMap_map, ← Option.some.inj hsome]
      rfl
    · simp at hsome

/-- There is a constructor if some property is a collection. -/
theorem constructor?_iff (h : IsMadeOf t e s names properties attached base) :
    s.primary.constructor?.isSome = true ↔ ∃ p ∈ e.declaration.properties, p.IsCollection t := by
  have hcollection : (∃ p ∈ e.declaration.properties, p.IsCollection t) ↔
      ∃ b ∈ properties, b.isCollection t = true := by
    refine exists_mem_iff_of_forall₂ (forall₂_of_allOrFault h.backed) ?_
    intro p b hb
    obtain ⟨backing, hbacking, rfl⟩ := map_eq_ok.1 hb
    simp [Property.IsCollection, BackedProperty.isCollection, hbacking]
  rw [hcollection, PrimaryClass.isSome_constructor?_iff, h.primary]
  simp [primaryOf]

/-- There are extension methods if some property is fluent. -/
theorem extensions_iff (h : IsMadeOf t e s names properties attached base) :
    s.extensions.isSome = true ↔ ∃ p ∈ e.declaration.properties, p.isFluent = true := by
  rw [← List.any_eq_true (p := fun p : Property => p.isFluent), h.extensions, ModelElement.isFluent]
  split <;> simp [*]

end ClassSet.IsMadeOf

/-- Whatever properties an interface has, the class has one descriptor and one accessor of the backing
type for each of them in order, the accessor with a conversion if the declared type is another one; the
descriptors of attached properties come last.  There is a constructor if and only if some property is a
collection, and it assigns just these, which are those whose default value is null whatever they ask for.
There is a file of extension methods if and only if some property is fluent, and it has one method for each
of these. -/
theorem properties_generated_in_order {t : Target} {e : ModelElement} {files : List GeneratedFile}
    (h : generate t e = .ok files) :
    ∃ fs s receiver members attached, files = ElementFiles.toList fs ∧ fs.Hold t.platform s ∧
      List.Forall₂
        (fun p m => ∃ b, PropertyMembers.AreOf t e.declaration.name receiver p b m)
        e.declaration.properties members ∧
      List.Forall₂ (Descriptor.Registers t) e.attached attached ∧
      PropertyMembers.AreIn s members attached ∧
      (s.primary.constructor?.isSome = true ↔
        ∃ p ∈ e.declaration.properties, p.IsCollection t) ∧
      (fs.extensions.isSome = true ↔ ∃ p ∈ e.declaration.properties, p.isFluent = true) := by
  obtain ⟨fs, s, names, properties, attached, base, rfl, hold, hmade⟩ :=
    ElementFiles.exists_of_generate h
  refine ⟨fs, s, names.variableName, _, _, rfl, hold, ?_, ?_, hmade.propertyMembers_areIn,
    hmade.constructor?_iff, ?_⟩
  · rw [List.forall₂_map_right_iff]
    refine (forall₂_of_allOrFault hmade.backed).imp ?_
    exact fun p b hb => ⟨b.backing, BackedProperty.members_areOf hb _ _⟩
  · rw [List.forall₂_map_right_iff]
    exact (forall₂_of_allOrFault hmade.backedAttached).imp fun _ _ => BackedAttached.registers_descriptor
  · rw [isSome_of_rel hold.extensions]
    exact hmade.extensions_iff

/-! A panel with a fluent property, one that is converted, and a collection that asks for a default
value. -/

private def stackChildren : Property := ⟨"Children", "IElementCollection", some "Shared", false, []⟩

private def stackElement : ModelElement where
  declaration :=
    ⟨"IStack", "Microsoft.StandardUI", [],
      [⟨"Width", "double", none, true, []⟩, ⟨"Origin", "Point", some "1, 2", false, []⟩,
        stackChildren], [], [], none⟩
  companion := some ⟨"IStackAttached", "Microsoft.StandardUI", [], [], [], [], none⟩
  attached := [⟨"Row", ⟨"GetRow", "int", [⟨"element", "IElement"⟩]⟩, none⟩]

theorem properties_generated_for_stack :
    ∃ files fs s members attached, generate Target.wpfElements stackElement = .ok files ∧
      files = ElementFiles.toList fs ∧ fs.Hold Target.wpfElements.platform s ∧
      PropertyMembers.AreIn s members attached ∧
      (∃ m ∈ members, m.assignment.isSome = true ∧ m.descriptor.defaultValue = "null") ∧
      s.primary.constructor?.isSome = true ∧ fs.extensions.isSome = true := by
  have hgenerate : (generate Target.wpfElements stackElement).map List.length = .ok 3 := by decide +kernel
  have hchildren : (Backing.ofText Target.wpfElements stackChildren.type).map
      (fun b => (Target.wpfElements.elementTypeOf? b.text).isSome) = .ok true := by
    decide +kernel
  have hmem : stackChildren ∈ stackElement.declaration.properties := by
    simp [stackElement]
  obtain ⟨files, hfiles, -⟩ := map_eq_ok.1 hgenerate
  obtain ⟨b, hb, hcollection⟩ := map_eq_ok.1 hchildren
  obtain ⟨fs, s, receiver, members, attached, hlist, hold, hmembers, -, hin, hconstructor, hfluent⟩ :=
    properties_generated_in_order hfiles
  obtain ⟨m, hm, b', hof⟩ := exists_of_forall₂ hmembers hmem
  obtain rfl : b' = b := Except.ok.inj (hof.backed.symm.trans hb)
  have hassigned : m.assignment.isSome = true := hof.assignment_iff.2 hcollection
  refine ⟨files, fs, s, members, attached, hfiles, hlist, hold, hin, ⟨m, hm, hassigned, ?_⟩, ?_, ?_⟩
  · rw [hof.descriptor]
    exact hof.default_iff.1 hassigned stackChildren.defaultValue
  · exact hconstructor.2 ⟨stackChildren, hmem, b', hb, hcollection⟩
  · exact hfluent.2 ⟨_, .head _, rfl⟩

end PlatformClasses
