import Mathlib.Data.List.Forall2
import PlatformClasses.Proofs.ClassFile.Destinations
import PlatformClasses.Proofs.ClassFile.MemberLines
import PlatformClasses.Proofs.Declaration.Pairing
import PlatformClasses.Proofs.TypeRef.RoundTrip

/-!
# The members of attached classes

An attached class names the interface it is generated from as its base, so it should have the
interface's members.  Its methods are rebuilt from the attached properties: both accessors of a property
take the element of the getter, the value of the setter has the type that the getter returns, and the
setter returns nothing.  What a setter declares differently is lost, and so are properties.

`AttachedClass.Implements` says of a class and an interface that their members correspond.  The methods
of the class come in the order of the attached properties, in which the methods of the interface are the
accessors, with the same names.  Since a name determines the method, the class implements the interface
if and only if every accessor is implemented by the method in its place (`AttachedClass.implements_iff`).
-/

namespace PlatformClasses

open AttachedProperty (AccessorKind)

/-! ## Types as texts -/

/-- Two texts are those of one type. -/
def SameType (a b : String) : Prop := ∃ t, TypeRef.parse a = .ok t ∧ TypeRef.parse b = .ok t

theorem sameType_render {text : String} {t : TypeRef} (h : TypeRef.parse text = .ok t) :
    SameType t.render text :=
  ⟨t, TypeRef.parse_render_of_isWritable (TypeRef.isWritable_of_parse h), h⟩

theorem SameType.iff_right {a b : String} (h : SameType a b) (c : String) :
    SameType a c ↔ SameType b c := by
  obtain ⟨t, ha, hb⟩ := h
  simp [SameType, ha, hb]

/-! ## Members -/

/-- A method implements a declared one. -/
structure Method.Implements (m declared : Method) : Prop where
  name : m.name = declared.name
  returnType : SameType m.returnType declared.returnType
  parameterTypes : List.Forall₂ SameType (m.parameters.map (·.type))
    (declared.parameters.map (·.type))
  parameterNames : (declared.parameters.map (·.name)).Nodup → (m.parameters.map (·.name)).Nodup

/-- The first line of a method's declaration, up to its expression. -/
def Method.heading (m : Method) : String :=
  s!"public {m.returnType} {m.name}(" ++
    ", ".intercalate (m.parameters.map fun p => s!"{p.type} {p.name}") ++ ") => "

/-- A line declares a method, by some expression. -/
def Method.DeclaredBy (m : Method) (line : String) : Prop :=
  ∃ expression, line = m.heading ++ expression ++ ";"

/-- A member of an interface or a class. -/
inductive ClassMember where
  | method (m : Method)
  | property (name type : String)

/-- A member implements a declared one, which is of the same kind. -/
def ClassMember.Implements : ClassMember → ClassMember → Prop
  | method m, method declared => m.Implements declared
  | property name type, property declared declaredType =>
    name = declared ∧ SameType type declaredType
  | _, _ => False

/-- The members that an interface declares. -/
def Declaration.members (d : Declaration) : List ClassMember :=
  d.methods.map .method ++ d.properties.map fun p => .property p.name p.type

/-- The methods that get and set an attached property. -/
def Delegation.methods (m : Delegation) : List Method :=
  ⟨"Get" ++ m.property, m.valueType, [⟨m.element, m.elementType⟩]⟩ ::
    m.setter.toList.map fun s =>
      ⟨"Set" ++ m.property, "void", [⟨m.element, m.elementType⟩, ⟨s.value, m.valueType⟩]⟩

namespace AttachedClass

/-- The methods of an attached class. -/
def methods (c : AttachedClass) : List Method := c.delegations.flatMap Delegation.methods

/-- The lines between the braces of an attached class that are not blank. -/
def memberLines (indentSize : Int) (c : AttachedClass) : List String :=
  (draftAll indentSize (Delegation.draft c.primaryName) c.delegations).filledLines

/-- The members of an attached class implement those of an interface, one for one and in any order. -/
def Implements (c : AttachedClass) (d : Declaration) : Prop :=
  ∃ declared, declared.Perm d.members ∧
    List.Forall₂ ClassMember.Implements (c.methods.map .method) declared

end AttachedClass

/-! ## Lines -/

/-- The lines of a delegation declare its methods. -/
theorem Delegation.declaredBy_lines (className : String) (m : Delegation) :
    List.Forall₂ Method.DeclaredBy m.methods (m.lines className) := by
  have hgetter : Method.DeclaredBy
      ⟨"Get" ++ m.property, m.valueType, [⟨m.element, m.elementType⟩]⟩ (m.getterLine className) := by
    refine ⟨m.got (m.call className), ?_⟩
    unfold getterLine Method.heading
    rw [← String.toList_inj]
    simp [ToString.toString]
  have hsetter : ∀ s : DelegatedSetter, Method.DeclaredBy
      ⟨"Set" ++ m.property, "void", [⟨m.element, m.elementType⟩, ⟨s.value, m.valueType⟩]⟩
        (m.setterLine className s) := by
    intro s
    refine ⟨s!"{className}.Set{m.property}({m.native}, {s.passed})", ?_⟩
    unfold setterLine Method.heading
    rw [← String.toList_inj]
    simp [ToString.toString]
  cases hset : m.setter with
  | none => simpa [methods, lines, hset] using hgetter
  | some s => simp [methods, lines, hset, hgetter, hsetter]

/-- The lines of an attached class declare its methods, in their order. -/
theorem AttachedClass.forall₂_memberLines (indentSize : Int) (c : AttachedClass) :
    List.Forall₂ Method.DeclaredBy c.methods (c.memberLines indentSize) := by
  rw [memberLines, filledLines_draftAll (Delegation.filledLines_draft c.primaryName), methods]
  induction c.delegations with
  | nil => exact .nil
  | cons m rest ih =>
      rw [List.flatMap_cons, List.flatMap_cons]
      exact List.rel_append (m.declaredBy_lines c.primaryName) ih

/-! ## Methods and accessors -/

/-- A setter fits a getter: it returns nothing, takes the element of the getter and then what the getter
returns, and its value is not named like the element of the getter. -/
structure SetterFits (getter setter : Method) : Prop where
  returnType : SameType "void" setter.returnType
  parameterTypes : List.Forall₂ SameType (getter.parameters.map (·.type) ++ [getter.returnType])
    (setter.parameters.map (·.type))
  parameterNames : (setter.parameters.map (·.name)).Nodup →
    (getter.parameters.map (·.name) ++ (setter.parameters.drop 1).map (·.name)).Nodup

theorem ofAttached_eq_ok {t : Target} {p : AttachedProperty} {b : BackedAttached}
    (h : BackedAttached.ofAttached t p = .ok b) :
    b.property = p ∧ SameType b.value.sourceText p.valueType ∧
      SameType b.element.sourceText p.elementType := by
  obtain ⟨hproperty, hvalue, helement⟩ := ClassSet.backings_of_ofAttached h
  obtain ⟨valueType, hvalueType, hvalue⟩ := map_eq_ok.1 hvalue
  obtain ⟨elementType, helementType, helement⟩ := map_eq_ok.1 helement
  rw [← hvalue, ← helement]
  exact ⟨hproperty, sameType_render hvalueType, sameType_render helementType⟩

/-- The accessors of an attached property take the element, and the element and the value. -/
structure AttachedProperty.Takes (p : AttachedProperty) (element : Parameter) : Prop where
  getter : p.getter.parameters = [element]
  setter : ∀ setter ∈ p.setter, ∃ element' value, setter.parameters = [element', value]

theorem AttachedProperty.Paired.exists_takes {methods : List Method}
    {attached : List AttachedProperty} (h : AttachedProperty.Paired methods attached)
    {p : AttachedProperty} (hp : p ∈ attached) : ∃ element, p.Takes element := by
  obtain ⟨hgetter, hsetter⟩ := h.takes p hp
  obtain ⟨element, helement⟩ := List.length_eq_one_iff.1 hgetter
  refine ⟨element, helement, ?_⟩
  intro setter hsome
  exact List.length_eq_two.1 (hsetter setter hsome)

/-- The method that a delegation makes of a getter implements it. -/
theorem BackedAttached.getter_implements {t : Target} {p : AttachedProperty} {b : BackedAttached}
    (h : ofAttached t p = .ok b) {element : Parameter} (htakes : p.Takes element)
    (hname : p.getter.name = "Get" ++ p.name) :
    Method.Implements ⟨"Get" ++ p.name, b.value.sourceText, [⟨p.elementName, b.element.sourceText⟩]⟩
      p.getter := by
  obtain ⟨-, hvalue, helement⟩ := ofAttached_eq_ok h
  have helementType : p.elementType = element.type := by
    simp [AttachedProperty.elementType, AttachedProperty.element?, htakes.getter]
  rw [helementType] at helement
  constructor
  · exact hname.symm
  · exact hvalue
  · simp [htakes.getter, helement]
  · simp

/-- The method that a delegation makes of a setter implements it if and only if it fits the getter. -/
theorem BackedAttached.setter_implements_iff {t : Target} {p : AttachedProperty}
    {b : BackedAttached} (h : ofAttached t p = .ok b) {element : Parameter}
    (htakes : p.Takes element) {setter : Method} (hsetter : setter ∈ p.setter)
    (hname : setter.name = "Set" ++ p.name) {value : String} (hvalueName : p.valueName? = some value) :
    Method.Implements ⟨"Set" ++ p.name, "void",
      [⟨p.elementName, b.element.sourceText⟩, ⟨value, b.value.sourceText⟩]⟩ setter ↔
        SetterFits p.getter setter := by
  obtain ⟨-, hvalue, helement⟩ := ofAttached_eq_ok h
  obtain ⟨element', declared, hparameters⟩ := htakes.setter setter hsetter
  have hset : p.setter = some setter := hsetter
  have helementType : p.elementType = element.type := by
    simp [AttachedProperty.elementType, AttachedProperty.element?, htakes.getter]
  have helementName : p.elementName = element.name := by
    simp [AttachedProperty.elementName, AttachedProperty.element?, htakes.getter]
  obtain rfl : declared.name = value := by
    simpa [AttachedProperty.valueName?, hset, AttachedProperty.valueParameter?, hparameters]
      using hvalueName
  rw [helementType] at helement
  have htypes : List.Forall₂ SameType [b.element.sourceText, b.value.sourceText]
      [element'.type, declared.type] ↔ List.Forall₂ SameType [element.type, p.getter.returnType]
        [element'.type, declared.type] := by
    simp only [List.forall₂_cons, helement.iff_right, hvalue.iff_right, AttachedProperty.valueType]
  constructor
  · intro hm
    refine ⟨hm.returnType, ?_, ?_⟩
    · simpa [htakes.getter, hparameters] using htypes.1 (by simpa [hparameters] using hm.parameterTypes)
    · simpa [htakes.getter, hparameters, helementName] using hm.parameterNames
  · intro hfits
    refine ⟨hname.symm, hfits.returnType, ?_, ?_⟩
    · simpa [hparameters] using
        htypes.2 (by simpa [htakes.getter, hparameters] using hfits.parameterTypes)
    · simpa [htakes.getter, hparameters, helementName] using hfits.parameterNames

/-- The methods of a delegation stand for the accessors of the attached property, which they implement
if and only if the setter fits the getter. -/
theorem BackedAttached.methods_delegation {t : Target} {p : AttachedProperty} {b : BackedAttached}
    (h : ofAttached t p = .ok b) {element : Parameter} (htakes : p.Takes element)
    (hgetter : p.getter.name = "Get" ++ p.name)
    (hsetter : ∀ setter ∈ p.setter, setter.name = "Set" ++ p.name) :
    List.Forall₂ (fun m declared => m.name = declared.name) b.delegation.methods p.accessors ∧
      (List.Forall₂ Method.Implements b.delegation.methods p.accessors ↔
        ∀ setter ∈ p.setter, SetterFits p.getter setter) := by
  have hget := getter_implements h htakes hgetter
  obtain ⟨rfl, -⟩ := ofAttached_eq_ok h
  cases hset : b.property.setter with
  | none =>
      simp [Delegation.methods, delegation, AttachedProperty.accessors, hset,
        AttachedProperty.valueName?, hget, hgetter]
  | some setter =>
      have hvalueName : b.property.valueName? =
          some (((AttachedProperty.valueParameter? setter).map (·.name)).getD "") := by
        simp [AttachedProperty.valueName?, hset]
      have hfits := setter_implements_iff h htakes hset (hsetter setter hset) hvalueName
      simp only [Delegation.methods, delegation, AttachedProperty.accessors, hset, hvalueName,
        Option.map_some, Option.toList_some, List.map_cons, List.map_nil, List.forall₂_cons, hget,
        hgetter, hfits, hsetter setter hset]
      simp

/-! ## Classes -/

/-- The attached class of an element delegates its attached properties. -/
theorem ClassSet.attached_of_ofElement {t : Target} {e : ModelElement} {s : ClassSet}
    {c : Declaration} (hcompanion : e.companion = some c) (h : ofElement t e = .ok s) :
    ∃ a bs, s.attached = some a ∧ s.sourceName = e.declaration.name ∧ a.interfaceName = c.name ∧
      List.Forall₂ (fun p b => BackedAttached.ofAttached t p = .ok b) e.attached bs ∧
        a.delegations = bs.map (·.delegation) := by
  obtain ⟨names, properties, bs, base, hs⟩ := exists_isMadeOf h
  have ha := hs.attachedClass
  rw [hcompanion] at ha
  exact ⟨_, bs, ha, hs.sourceName, rfl, forall₂_of_allOrFault hs.backedAttached, rfl⟩

theorem forall₂_of_mem {α β : Type} {R S : α → β → Prop} {xs : List α} {ys : List β}
    (h : List.Forall₂ R xs ys) (hS : ∀ x ∈ xs, ∀ y ∈ ys, R x y → S x y) : List.Forall₂ S xs ys := by
  rw [List.forall₂_iff_zip] at h ⊢
  refine ⟨h.1, ?_⟩
  intro x y hmem
  have hboth := List.of_mem_zip hmem
  exact hS x hboth.1 y hboth.2 (h.2 hmem)

/-- What holds of the methods of every delegation and the accessors they stand for holds of all. -/
theorem forall₂_accessors {t : Target} {attached : List AttachedProperty} {bs : List BackedAttached}
    {R : Method → Method → Prop}
    (hbs : List.Forall₂ (fun p b => BackedAttached.ofAttached t p = .ok b) attached bs)
    (h : ∀ p ∈ attached, ∀ b, BackedAttached.ofAttached t p = .ok b →
      List.Forall₂ R b.delegation.methods p.accessors) :
    List.Forall₂ R ((bs.map (·.delegation)).flatMap Delegation.methods)
      (attached.flatMap (·.accessors)) := by
  induction hbs with
  | nil => exact .nil
  | cons hb _ ih =>
      rw [List.map_cons, List.flatMap_cons, List.flatMap_cons]
      refine List.rel_append (h _ List.mem_cons_self _ hb) (ih ?_)
      exact fun p hp => h p (List.mem_cons_of_mem _ hp)

namespace AttachedClass

/-- A class that implements an interface has a method for each of the interface's, and there is nothing
else in the interface. -/
theorem Implements.exists_method {a : AttachedClass} {c : Declaration} (h : a.Implements c) :
    c.properties = [] ∧ ∀ declared ∈ c.methods, ∃ m ∈ a.methods, m.Implements declared := by
  obtain ⟨declared, hperm, hall⟩ := h
  have himplemented : ∀ member ∈ c.members, ∃ m ∈ a.methods,
      (ClassMember.method m).Implements member := by
    intro member hmember
    obtain ⟨_, hm, himplements⟩ := exists_of_forall₂ hall.flip (hperm.mem_iff.2 hmember)
    obtain ⟨m, hmethod, rfl⟩ := List.mem_map.1 hm
    exact ⟨m, hmethod, himplements⟩
  constructor
  · rw [List.eq_nil_iff_forall_not_mem]
    intro p hp
    have hmember : ClassMember.property p.name p.type ∈ c.members :=
      List.mem_append_right _ (List.mem_map_of_mem hp)
    obtain ⟨m, -, hm⟩ := himplemented _ hmember
    exact hm
  · intro m hm
    exact himplemented _ (List.mem_append_left _ (List.mem_map_of_mem hm))

/-- Without properties, a class whose methods implement those of an interface, in another order,
implements the interface. -/
theorem implements_of_methods {a : AttachedClass} {c : Declaration} {declared : List Method}
    (hproperties : c.properties = []) (hperm : declared.Perm c.methods)
    (h : List.Forall₂ Method.Implements a.methods declared) : a.Implements c := by
  refine ⟨declared.map .method, ?_, ?_⟩
  · simpa [Declaration.members, hproperties] using hperm.map ClassMember.method
  · rw [List.forall₂_map_left_iff, List.forall₂_map_right_iff]
    exact h

/-- An attached class implements its interface if and only if the interface has no properties and each
setter fits its getter. -/
theorem implements_iff {t : Target} {a : AttachedClass} {c : Declaration}
    {attached : List AttachedProperty} {bs : List BackedAttached}
    (hnodup : (c.methods.map (·.name)).Nodup)
    (hpaired : AttachedProperty.Paired c.methods attached)
    (hbs : List.Forall₂ (fun p b => BackedAttached.ofAttached t p = .ok b) attached bs)
    (ha : a.delegations = bs.map (·.delegation)) :
    a.Implements c ↔ c.properties = [] ∧
      ∀ p ∈ attached, ∀ setter ∈ p.setter, SetterFits p.getter setter := by
  have hmethods : ∀ p ∈ attached, ∀ b, BackedAttached.ofAttached t p = .ok b →
      List.Forall₂ (fun m declared => m.name = declared.name) b.delegation.methods p.accessors ∧
        (List.Forall₂ Method.Implements b.delegation.methods p.accessors ↔
          ∀ setter ∈ p.setter, SetterFits p.getter setter) := by
    intro p hp b hb
    obtain ⟨element, htakes⟩ := hpaired.exists_takes hp
    exact BackedAttached.methods_delegation hb htakes (hpaired.getter p hp).2
      fun setter hsetter => (hpaired.setter p hp setter hsetter).2
  have hperm := hpaired.accessors_perm hnodup
  have hnames : List.Forall₂ (fun m declared => m.name = declared.name) a.methods
      (attached.flatMap (·.accessors)) := by
    rw [methods, ha]
    exact forall₂_accessors hbs fun p hp b hb => (hmethods p hp b hb).1
  constructor
  · intro h
    obtain ⟨hproperties, hexists⟩ := h.exists_method
    refine ⟨hproperties, ?_⟩
    intro p hp
    obtain ⟨b, hb, hofAttached⟩ := exists_of_forall₂ hbs hp
    refine (hmethods p hp b hofAttached).2.1 ?_
    refine forall₂_of_mem (hmethods p hp b hofAttached).1 ?_
    intro m hm declared hdeclared hname
    -- the method that implements this accessor has its name, so it is this one
    have hmem : m ∈ a.methods := by
      rw [methods, ha]
      exact List.mem_flatMap.2 ⟨b.delegation, List.mem_map_of_mem hb, hm⟩
    have hdeclaredMem : declared ∈ c.methods :=
      hperm.mem_iff.1 (List.mem_flatMap.2 ⟨p, hp, hdeclared⟩)
    obtain ⟨m', hm', himplements⟩ := hexists declared hdeclaredMem
    have hsame : m = m' := by
      refine List.inj_on_of_nodup_map ?_ hmem hm' (hname.trans himplements.name.symm)
      have heq : a.methods.map (·.name) = (attached.flatMap (·.accessors)).map (·.name) := by
        rw [← List.forall₂_eq_eq_eq, List.forall₂_map_left_iff, List.forall₂_map_right_iff]
        exact hnames
      rw [heq]
      exact ((hperm.map _).nodup_iff).2 hnodup
    rw [hsame]
    exact himplements
  · rintro ⟨hproperties, hfits⟩
    refine implements_of_methods hproperties hperm ?_
    rw [methods, ha]
    refine forall₂_accessors hbs ?_
    intro p hp b hb
    exact (hmethods p hp b hb).2.2 (hfits p hp)

end AttachedClass

/-- The element of a declaration with a companion holds the companion's attached properties. -/
theorem ModelElement.ofDeclarations_eq_ok {d c : Declaration} {e : ModelElement}
    (h : ofDeclarations d (some c) = .ok e) :
    ∃ attached, AttachedProperty.ofDeclaration c = .ok attached ∧ e = ⟨d, some c, attached⟩ := by
  unfold ofDeclarations at h
  cases hc : AttachedProperty.ofDeclaration c with
  | error fault => simp [hc] at h
  | ok attached => exact ⟨attached, rfl, by simpa [hc] using h.symm⟩

/-- The second file of an element with a companion holds the attached class, whose lines declare its
methods.  The class names the companion as its base, and implements it if and only if the companion has no
properties and each of its setters fits its getter. -/
theorem attached_implements_iff {t : Target} {d c : Declaration} {e : ModelElement}
    {files : List GeneratedFile} (hnodup : (c.methods.map (·.name)).Nodup)
    (hread : ModelElement.ofDeclarations d (some c) = .ok e) (h : generate t e = .ok files) :
    ∃ classes a, ClassSet.ofElement t e = .ok classes ∧ classes.attached = some a ∧
      (files.map (·.draft))[1]? = some (a.draft t.indentSize d.name) ∧
      List.Forall₂ Method.DeclaredBy a.methods (a.memberLines t.indentSize) ∧
      a.interfaceName = c.name ∧
      (a.Implements c ↔ c.properties = [] ∧
        ∀ getter ∈ c.methods, ∀ setter ∈ c.methods, ∀ property,
          getter.name = "Get" ++ property → setter.name = "Set" ++ property →
            SetterFits getter setter) := by
  obtain ⟨attached, hattached, rfl⟩ := ModelElement.ofDeclarations_eq_ok hread
  have hpaired := AttachedProperty.paired_of_ofDeclaration hnodup hattached
  obtain ⟨classes, hclasses, hfiles⟩ := bind_eq_ok.1 h
  obtain ⟨a, bs, ha, hsource, hinterface, hbs, hdelegations⟩ :=
    ClassSet.attached_of_ofElement rfl hclasses
  refine ⟨classes, a, hclasses, ha, ?_, a.forall₂_memberLines _, hinterface, ?_⟩
  · rw [← (ClassSet.files_eq_ok hfiles).2, ClassSet.drafts, ha, hsource]
    rfl
  · rw [AttachedClass.implements_iff hnodup hpaired hbs hdelegations]
    refine and_congr_right fun _ => ?_
    have hinj : ∀ m ∈ c.methods, ∀ m' ∈ c.methods, m.name = m'.name → m = m' :=
      fun m hm m' hm' hname => List.inj_on_of_nodup_map hnodup hm hm' hname
    constructor
    · intro hfits getter hgetter setter hsetter property hget hset
      obtain ⟨p, hp, haccessor⟩ := hpaired.covered setter hsetter
      rcases List.mem_cons.1 haccessor with rfl | hmem
      · have hleads : "Set" ++ property = "Get" ++ p.name := hset.symm.trans (hpaired.getter p hp).2
        have hkind : AccessorKind.setter = .getter := (AccessorKind.lead_append_inj hleads).1
        simp at hkind
      · have hsome : setter ∈ p.setter := Option.mem_toList.1 hmem
        have hleads : "Set" ++ property = "Set" ++ p.name :=
          hset.symm.trans (hpaired.setter p hp setter hsome).2
        have hproperty : property = p.name := (String.append_right_inj _).1 hleads
        have hsame : getter = p.getter := by
          refine hinj getter hgetter p.getter (hpaired.getter p hp).1 ?_
          rw [hget, hproperty, (hpaired.getter p hp).2]
        rw [hsame]
        exact hfits p hp setter hsome
    · intro hfits p hp setter hsetter
      obtain ⟨hgetterMem, hget⟩ := hpaired.getter p hp
      obtain ⟨hsetterMem, hset⟩ := hpaired.setter p hp setter hsetter
      exact hfits p.getter hgetterMem setter hsetterMem p.name hget hset

/-! A grid with an attached row: a setter that fits the getter, and one for elements of another type. -/

private def grid : Declaration := ⟨"IGrid", "Microsoft.StandardUI", [], [], [], [], none⟩

private def getRow : Method := ⟨"GetRow", "int", [⟨"element", "IElement"⟩]⟩

private def setRow (elementType : String) : Method :=
  ⟨"SetRow", "void", [⟨"element", elementType⟩, ⟨"row", "int"⟩]⟩

private def gridAttached (elementType : String) : Declaration :=
  ⟨"IGridAttached", "Microsoft.StandardUI", [], [], [getRow, setRow elementType], [], none⟩

private def gridElement (elementType : String) : ModelElement :=
  ⟨grid, some (gridAttached elementType), [⟨"Row", getRow, some (setRow elementType)⟩]⟩

private theorem getRow_fits : SetterFits getRow (setRow "IElement") := by
  have hself : ∀ text, (TypeRef.parse text).toBool = true → SameType text text := by
    intro text h
    cases hparse : TypeRef.parse text with
    | error fault => simp [hparse, Except.toBool] at h
    | ok t => exact ⟨t, hparse, hparse⟩
  constructor
  · exact hself "void" (by decide +kernel)
  · exact .cons (hself "IElement" (by decide +kernel)) (.cons (hself "int" (by decide +kernel)) .nil)
  · exact fun _ => by decide

theorem attached_implements_iff_grid :
    ((gridAttached "IElement").methods.map (·.name)).Nodup ∧
      ModelElement.ofDeclarations grid (some (gridAttached "IElement")) =
        .ok (gridElement "IElement") ∧
        ∃ files classes a, generate Target.wpfSrc (gridElement "IElement") = .ok files ∧
          ClassSet.ofElement Target.wpfSrc (gridElement "IElement") = .ok classes ∧
            classes.attached = some a ∧
              (files.map (·.draft))[1]? = some (a.draft Target.wpfSrc.indentSize "IGrid") ∧
                List.Forall₂ Method.DeclaredBy a.methods (a.memberLines Target.wpfSrc.indentSize) ∧
                  a.interfaceName = "IGridAttached" ∧ a.Implements (gridAttached "IElement") := by
  have hnodup : ((gridAttached "IElement").methods.map (·.name)).Nodup := by decide +kernel
  have hread : ModelElement.ofDeclarations grid (some (gridAttached "IElement")) =
      .ok (gridElement "IElement") := by
    decide +kernel
  have hgenerate : (generate Target.wpfSrc (gridElement "IElement")).map List.length = .ok 2 := by
    decide +kernel
  obtain ⟨files, hfiles, -⟩ := map_eq_ok.1 hgenerate
  obtain ⟨classes, a, hclasses, ha, hdraft, hlines, hinterface, himplements⟩ :=
    attached_implements_iff hnodup hread hfiles
  refine ⟨hnodup, hread, files, classes, a, hfiles, hclasses, ha, hdraft, hlines, hinterface, ?_⟩
  refine himplements.2 ⟨rfl, ?_⟩
  intro getter hgetter setter hsetter property hget hset
  have hmethods : ∀ m ∈ (gridAttached "IElement").methods, m = getRow ∨ m = setRow "IElement" := by
    simp [gridAttached]
  have hnames : ∀ lead lead' : AccessorKind, lead.lead ++ "Row" = lead'.lead ++ property →
      lead = lead' := fun _ _ h => (AccessorKind.lead_append_inj h).1
  rcases hmethods getter hgetter with rfl | rfl
  · rcases hmethods setter hsetter with rfl | rfl
    · exact absurd (hnames .getter .setter hset) (by decide)
    · exact getRow_fits
  · exact absurd (hnames .setter .getter hget) (by decide)

/-- The class has `SetRow` for the elements that `GetRow` takes, whatever elements the interface's
`SetRow` is declared for. -/
theorem attached_setter_changed :
    ((gridAttached "IButton").methods.map (·.name)).Nodup ∧
      ModelElement.ofDeclarations grid (some (gridAttached "IButton")) =
        .ok (gridElement "IButton") ∧
        ∃ files classes a, generate Target.wpfSrc (gridElement "IButton") = .ok files ∧
          ClassSet.ofElement Target.wpfSrc (gridElement "IButton") = .ok classes ∧
            classes.attached = some a ∧ a.methods = [getRow, setRow "IElement"] ∧
              ¬a.Implements (gridAttached "IButton") := by
  have hgenerate : (generate Target.wpfSrc (gridElement "IButton")).map List.length = .ok 2 := by
    decide +kernel
  obtain ⟨files, hfiles, -⟩ := map_eq_ok.1 hgenerate
  have hmethods : (ClassSet.ofElement Target.wpfSrc (gridElement "IButton")).map
      (fun s => s.attached.map AttachedClass.methods) =
        .ok (some [getRow, setRow "IElement"]) := by
    decide +kernel
  obtain ⟨classes, hclasses, hattached⟩ := map_eq_ok.1 hmethods
  obtain ⟨a, ha, hmethods⟩ := Option.map_eq_some_iff.1 hattached
  refine ⟨by decide +kernel, by decide +kernel, files, classes, a, hfiles, hclasses, ha, hmethods, ?_⟩
  intro himplements
  obtain ⟨m, hm, hset⟩ := himplements.exists_method.2 (setRow "IButton") (by simp [gridAttached])
  rw [hmethods] at hm
  have hsetRow : m = setRow "IElement" := by
    rcases List.mem_cons.1 hm with rfl | hm
    · exact absurd hset.name (by decide)
    · exact List.mem_singleton.1 hm
  rw [hsetRow] at hset
  obtain ⟨t, helement, hbutton⟩ := (List.forall₂_cons.1 hset.parameterTypes).1
  have hsame : TypeRef.parse "IElement" = TypeRef.parse "IButton" := helement.trans hbutton.symm
  exact absurd hsame (by decide +kernel)

end PlatformClasses
