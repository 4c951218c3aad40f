import PlatformClasses.Proofs.ClassFile.AttachedMembers
import PlatformClasses.Proofs.ClassFile.PropertyMembers

/-!
# Delegation of attached properties

An attached property is stored by the primary class, which registers it and has static methods to get and
set it, the wrappers; the attached class implements the accessors by calling these.  The two classes are
in different files and the types of the accessors are those of the model, so that a call casts the element
and converts the value.

`AttachedMembers.AreOf` says that what is made of one attached property fits together: every line of the
wrappers has its line that calls it with what it takes (`DelegatesTo`).  The files then consist of the
members of all attached properties, in the same order (`attached_members_agree`).
-/

namespace PlatformClasses

/-- An expression of one type, converted to another one. -/
inductive IsConverted (source target expression : String) : String → Prop
  | same (h : source = target) : IsConverted source target expression expression
  | cast : IsConverted source target expression (castTo target expression)
  | made : IsConverted source target expression s!"new {target}({expression})"

/-- What a call returns, or the member of it that has the declared type. -/
inductive IsReturned (declared call : String) : String → Prop
  | itself : IsReturned declared call call
  | member : IsReturned declared call s!"{call}.{declared}"

/-- A line with a wrapper of a class, and one with a method that calls it.  The element that the method
takes is cast to the type of the one that the wrapper takes, and the value is converted likewise. -/
inductive DelegatesTo (className valueType elementType element : String) (w : Wrapper) :
    String → String → Prop
  | getter {result : String}
      (h : IsReturned valueType s!"{className}.Get{w.property}({castTo w.elementType element})" result) :
      DelegatesTo className valueType elementType element w w.getterLine
        s!"public {valueType} Get{w.property}({elementType} {element}) => {result};"
  | setter {value passed : String} (h : IsConverted valueType w.valueType value passed) :
      DelegatesTo className valueType elementType element w (w.setterLine value)
        (s!"public void Set{w.property}({elementType} {element}, {valueType} {value}) => " ++
          s!"{className}.Set{w.property}({castTo w.elementType element}, {passed});")

/-- What is generated for an attached property. -/
structure AttachedMembers where
  descriptor : Descriptor
  wrapper : Wrapper
  delegation : Delegation

/-- The members are those of an attached property and fit together. -/
structure AttachedMembers.AreOf (t : Target) (className : String) (p : AttachedProperty)
    (m : AttachedMembers) : Prop where
  registered : m.descriptor.Registers t p
  wrapper : m.wrapper.property = p.name ∧ m.wrapper.valueType = m.descriptor.valueType
  element : ∃ b, Backing.ofText t p.elementType = .ok b ∧ m.wrapper.elementType = b.text ∧
    m.delegation.elementType = b.sourceText
  value : ∃ b, Backing.ofText t p.valueType = .ok b ∧ m.delegation.valueType = b.sourceText
  delegates : List.Forall₂
    (DelegatesTo className m.delegation.valueType m.delegation.elementType m.delegation.element m.wrapper)
    m.wrapper.lines (m.delegation.lines className)
  /-- Only a property that can be set has methods that set it. -/
  setters : m.wrapper.value.isSome = !p.isReadOnly ∧ m.delegation.setter.isSome = !p.isReadOnly

/-- The classes of an element have these members, and of their kinds no others but the descriptors of
properties. -/
structure AttachedMembers.AreIn (s : ClassSet) (plain : List Descriptor)
    (members : List AttachedMembers) : Prop where
  descriptors : s.primary.descriptors = plain ++ members.map (·.descriptor)
  wrappers : s.primary.wrappers = members.map (·.wrapper)
  delegations : ∀ c ∈ s.attached, c.primaryName = s.primary.name ∧
    c.delegations = members.map (·.delegation)

/-! ## One property -/

/-- A value that comes in is converted to the type that is stored, if this is another one. -/
theorem Backing.isConverted_toBacking (b : Backing) (expression : String) :
    IsConverted b.sourceText b.text expression (b.toBacking expression) := by
  unfold toBacking
  cases hwrapper : b.wrapper with
  | some wrapper =>
      have htext : b.text = wrapper := by simp [text, hwrapper]
      rw [htext]
      exact .made
  | none =>
      show IsConverted _ _ _ (if b.differs then s!"({b.text}) {expression}" else expression)
      by_cases hdiffers : b.differs = true
      · rw [if_pos hdiffers]
        exact .cast
      · rw [if_neg hdiffers]
        have hsame : b.text = b.sourceText := by simpa [differs] using hdiffers
        exact .same hsame.symm

/-- A value that goes out is converted back. -/
theorem Backing.isReturned_toAbstract (b : Backing) (call : String) :
    IsReturned b.sourceText call (b.toAbstract call) := by
  unfold toAbstract
  cases b.wrapper with
  | none => exact .itself
  | some wrapper => exact .member

namespace BackedAttached

/-- The members of an attached property with its backing types. -/
def members (b : BackedAttached) : AttachedMembers where
  descriptor := b.descriptor
  wrapper := b.wrapper
  delegation := b.delegation

/-- Each member line delegates to the wrapper line of its kind, getter to getter and setter to setter. -/
theorem delegatesTo_members (className : String) (b : BackedAttached) :
    List.Forall₂ (DelegatesTo className b.delegation.valueType b.delegation.elementType
      b.delegation.element b.wrapper) b.wrapper.lines (b.delegation.lines className) := by
  have hgetter : DelegatesTo className b.value.sourceText b.element.sourceText b.property.elementName
      b.wrapper b.wrapper.getterLine (b.delegation.getterLine className) :=
    .getter (b.value.isReturned_toAbstract _)
  -- both classes have a setter if and only if there is a name for the value
  cases hvalue : b.property.valueName? with
  | none =>
      have hwrapper : b.wrapper.lines = [b.wrapper.getterLine] := by
        simp [Wrapper.lines, wrapper, hvalue]
      have hdelegation : b.delegation.lines className = [b.delegation.getterLine className] := by
        simp [Delegation.lines, delegation, hvalue]
      rw [hwrapper, hdelegation]
      exact .cons hgetter .nil
  | some value =>
      have hwrapper : b.wrapper.lines = [b.wrapper.getterLine, b.wrapper.setterLine value] := by
        simp [Wrapper.lines, wrapper, hvalue]
      have hdelegation : b.delegation.lines className = [b.delegation.getterLine className,
          b.delegation.setterLine className ⟨value, b.value.toBacking value⟩] := by
        simp [Delegation.lines, delegation, hvalue]
      rw [hwrapper, hdelegation]
      exact .cons hgetter (.cons (.setter (b.value.isConverted_toBacking value)) .nil)

/-- The members that are generated for an attached property are those of the property. -/
theorem members_areOf {t : Target} {p : AttachedProperty} {b : BackedAttached}
    (h : ofAttached t p = .ok b) (className : String) : b.members.AreOf t className p := by
  obtain ⟨rfl, hvalue, helement⟩ := ClassSet.backings_of_ofAttached h
  constructor
  case registered => exact registers_descriptor h
  case wrapper => exact ⟨rfl, rfl⟩
  case element => exact ⟨b.element, helement, rfl, rfl⟩
  case value => exact ⟨b.value, hvalue, rfl⟩
  case delegates => exact b.delegatesTo_members className
  case setters =>
    simp [members, wrapper, delegation, AttachedProperty.valueName?, AttachedProperty.isReadOnly]

end BackedAttached

/-! ## All properties -/

/-- An element keeps its declarations, and its attached properties have different names. -/
theorem ModelElement.parts_of_ofDeclarations {d : Declaration} {companion : Option Declaration}
    {e : ModelElement} (h : ofDeclarations d companion = .ok e) :
    e.declaration = d ∧ e.companion = companion ∧ (e.attached.map (·.name)).Nodup := by
  cases companion with
  | none =>
      obtain rfl : (⟨d, none, []⟩ : ModelElement) = e := by simpa [ofDeclarations] using h
      exact ⟨rfl, rfl, .nil⟩
  | some c =>
      obtain ⟨attached, hattached, rfl⟩ := ofDeclarations_eq_ok h
      exact ⟨rfl, rfl, (AttachedProperty.paired_kept hattached).nodup⟩

/-- The classes of an element hold the members of all of its attached properties. -/
theorem ClassSet.IsMadeOf.attachedMembers_areIn {t : Target} {e : ModelElement} {s : ClassSet}
    {names : Names} {properties : List BackedProperty} {attached : List BackedAttached}
    {base : String} (h : IsMadeOf t e s names properties attached base) :
    AttachedMembers.AreIn s (properties.map (·.descriptor t)) (attached.map (·.members)) := by
  constructor
  case descriptors =>
    rw [h.primary, List.map_map]
    rfl
  case wrappers =>
    rw [h.primary, List.map_map]
    rfl
  case delegations =>
    intro c hc
    have hsome : s.attached = some c := hc
    rw [h.attachedClass] at hsome
    obtain ⟨companion, -, rfl⟩ := Option.map_eq_some_iff.1 hsome
    rw [h.primary, List.map_map]
    exact ⟨rfl, rfl⟩

/-- Whatever attached properties an interface has, no two of the same name, the primary class has one
descriptor and the wrappers for each of them, and the attached class one method for each wrapper, in the
same order.  The method calls the wrapper, which is a static method of the primary class, with the element
cast and the value converted to the types that it takes.  Properties that cannot be set have neither a
wrapper nor a method to do so. -/
theorem attached_members_agree {t : Target} {d : Declaration} {companion : Option Declaration}
    {e : ModelElement} {files : List GeneratedFile}
    (hread : ModelElement.ofDeclarations d companion = .ok e) (h : generate t e = .ok files) :
    ∃ fs s plain members, files = ElementFiles.toList fs ∧ fs.Hold t.platform s ∧
      (fs.attached.isSome = true ↔ companion.isSome = true) ∧
      (e.attached.map (·.name)).Nodup ∧
      List.Forall₂ (AttachedMembers.AreOf t s.primary.name) e.attached members ∧
      AttachedMembers.AreIn s plain members ∧
      (∀ r ∈ plain, r.isAttached = false) ∧
      plain.map (·.property) = d.properties.map (·.name) := by
  obtain ⟨rfl, rfl, hnodup⟩ := ModelElement.parts_of_ofDeclarations hread
  obtain ⟨fs, s, names, properties, attached, base, rfl, hold, hmade⟩ :=
    ElementFiles.exists_of_generate h
  refine ⟨fs, s, _, _, rfl, hold, ?_, hnodup, ?_, hmade.attachedMembers_areIn, ?_, ?_⟩
  · rw [isSome_of_rel hold.attached, hmade.attachedClass, Option.isSome_map]
  · rw [List.forall₂_map_right_iff]
    exact (forall₂_of_allOrFault hmade.backedAttached).imp
      fun _ _ hb => BackedAttached.members_areOf hb s.primary.name
  · intro r hr
    obtain ⟨b, -, rfl⟩ := List.mem_map.1 hr
    rfl
  · rw [← ClassSet.property_of_ofProperty hmade.backed, List.map_map, List.map_map]
    rfl

/-! A dock with an attached point that can be set and a row that cannot. -/

private def getAnchor : Method := ⟨"GetAnchor", "Point", [⟨"element", "IElement"⟩]⟩

private def setAnchor : Method := ⟨"SetAnchor", "void", [⟨"element", "IElement"⟩, ⟨"value", "Point"⟩]⟩

private def getDockRow : Method := ⟨"GetRow", "int", [⟨"element", "IElement"⟩]⟩

private def dock : Declaration := ⟨"IDock", "Microsoft.StandardUI", [], [], [], [], none⟩

private def dockAttached : Declaration :=
  ⟨"IDockAttached", "Microsoft.StandardUI", [], [], [getAnchor, setAnchor, getDockRow], [], none⟩

private def dockElement : ModelElement :=
  ⟨dock, some dockAttached, [⟨"Anchor", getAnchor, some setAnchor⟩, ⟨"Row", getDockRow, none⟩]⟩

theorem attached_members_agree_dock :
    ModelElement.ofDeclarations dock (some dockAttached) = .ok dockElement ∧
      ∃ files fs s plain anchor row, generate Target.wpfSrc dockElement = .ok files ∧
        files = ElementFiles.toList fs ∧ fs.Hold Target.wpfSrc.platform s ∧
        fs.attached.isSome = true ∧ AttachedMembers.AreIn s plain [anchor, row] ∧
        List.Forall₂ (DelegatesTo s.primary.name anchor.delegation.valueType
          anchor.delegation.elementType anchor.delegation.element anchor.wrapper)
            anchor.wrapper.lines (anchor.delegation.lines s.primary.name) ∧
        anchor.wrapper.value.isSome = true ∧ anchor.delegation.setter.isSome = true ∧
        row.wrapper.value.isSome = false ∧ row.delegation.setter.isSome = false := by
  have hread : ModelElement.ofDeclarations dock (some dockAttached) = .ok dockElement := by
    decide +kernel
  have hgenerate : (generate Target.wpfSrc dockElement).map List.length = .ok 2 := by decide +kernel
  obtain ⟨files, hfiles, -⟩ := map_eq_ok.1 hgenerate
  obtain ⟨fs, s, plain, members, hlist, hold, hattached, -, hmembers, hin, -⟩ :=
    attached_members_agree hread hfiles
  obtain ⟨anchor, others, hanchor, hothers, rfl⟩ := List.forall₂_cons_left_iff.1 hmembers
  obtain ⟨row, rest, hrow, hrest, rfl⟩ := List.forall₂_cons_left_iff.1 hothers
  obtain rfl := List.forall₂_nil_left_iff.1 hrest
  exact ⟨hread, files, fs, s, plain, anchor, row, hfiles, hlist, hold, hattached.2 rfl, hin,
    hanchor.delegates, hanchor.setters.1, hanchor.setters.2, hrow.setters.1, hrow.setters.2⟩

end PlatformClasses
