import PlatformClasses.ClassFile.Basic

/-!
# Generating classes

`ClassSet.ofElement` gives the classes of a model element for a target, or says why there are none.
`ClassSet.files` places them: the primary class first, then the attached class and the extension
methods if there are any.
-/

namespace PlatformClasses

/-- A property with its backing type. -/
structure BackedProperty where
  property : Property
  backing : Backing

/-- An attached property with the backing types of its value and its element. -/
structure BackedAttached where
  property : AttachedProperty
  value : Backing
  element : Backing

namespace BackedProperty

/-- A property with the backing type that a target gives it. -/
def ofProperty (t : Target) (p : Property) : Except Fault BackedProperty :=
  (Backing.ofText t p.type).map (⟨p, ·⟩)

/-- Whether the property holds a collection, which is made by the constructor. -/
def isCollection (t : Target) (p : BackedProperty) : Bool :=
  (t.elementTypeOf? p.backing.text).isSome

/-- The descriptor of the property. -/
def descriptor (t : Target) (p : BackedProperty) : Descriptor where
  property := p.property.name
  isAttached := false
  valueType := p.backing.text
  defaultValue :=
    if p.isCollection t then "null" else p.backing.defaultValue p.property.defaultValue

/-- The extension method that sets the property, if it asks for one. -/
def extensionMethod? (interfaceName receiver : String) (p : BackedProperty) :
    Option ExtensionMethod :=
  if p.property.isFluent then
    some ⟨interfaceName, p.property.name, receiver, p.backing.sourceText⟩
  else none

end BackedProperty

namespace BackedAttached

/-- An attached property with the backing types that a target gives it. -/
def ofAttached (t : Target) (p : AttachedProperty) : Except Fault BackedAttached := do
  let value ← Backing.ofText t p.valueType
  let element ← Backing.ofText t p.elementType
  return ⟨p, value, element⟩

/-- The descriptor of the property. -/
def descriptor (p : BackedAttached) : Descriptor :=
  ⟨p.property.name, true, p.value.text, p.value.defaultValue none⟩

/-- The wrappers of the property. -/
def wrapper (p : BackedAttached) : Wrapper :=
  ⟨p.property.name, p.value.text, p.element.text, p.property.elementName, p.property.valueName?⟩

/-- The methods that delegate to the wrappers. -/
def delegation (p : BackedAttached) : Delegation where
  property := p.property.name
  valueType := p.value.sourceText
  elementType := p.element.sourceText
  element := p.property.elementName
  castType := p.element.text
  got := p.value.toAbstract
  setter := p.property.valueName?.map fun value => ⟨value, p.value.toBacking value⟩

end BackedAttached

/-- Applies a function that may fail to all of a list, in order, up to the first failure. -/
def allOrFault {α β : Type} (f : α → Except Fault β) : List α → Except Fault (List β)
  | [] => .ok []
  | a :: rest =>
    match f a with
    | .error e => .error e
    | .ok b => (allOrFault f rest).map (b :: ·)

namespace ClassSet

/-- The list without the later ones of equal names. -/
def firstOccurrences (names : List String) : List String :=
  names.foldl (fun seen name => if seen.contains name then seen else seen ++ [name]) []

/-- A used namespace, and the one it is mapped to if it belongs to the model. -/
def importsOfUsing (t : Target) (name : String) : List String :=
  match t.mapNamespace name with
  | .ok mapped => [name, mapped]
  | .error _ => [name]

/-- The imports of the primary and the attached class. -/
def imports (t : Target) (className : String) (d : Declaration) (properties : List BackedProperty) :
    List String :=
  firstOccurrences
    (d.usings.flatMap (importsOfUsing t) ++ [d.nameSpace] ++ t.platform.requiredImports ++
      (if properties.any fun p => p.backing.isArray then ["System"] else []) ++
      (if t.platform.hasConverter className then [t.platform.convertersNamespace] else []))

/-- The base class of a declaration's class. -/
def baseClass (t : Target) (className : String) (d : Declaration) : Except Fault String :=
  match t.elementTypeOf? className with
  | some elementType => .ok s!"{t.platform.collectionBaseClass}<{elementType}>"
  | none =>
    match d.baseType? with
    | some base => t.mapType base
    | none =>
      .ok (if d.name = t.rootElement then t.platform.rootBaseClass
        else t.platform.defaultBaseClass)

/-- The names of a model element: that of its class, of its variable and of its namespace. -/
structure Names where
  className : String
  variableName : String
  nameSpace : String
deriving Repr, DecidableEq

/-- The names that a target gives to a model element.  Both declarations must be marked, even if they
are known. -/
def namesOf (t : Target) (e : ModelElement) : Except Fault Names := do
  let _ ← Marker.strip e.declaration.name
  let _ ← match e.companion with
    | some c => Marker.strip c.name
    | none => .ok ""
  let className ← t.className e.declaration.name
  let variableName ← t.variableName e.declaration.name
  let nameSpace ← t.mapNamespace e.declaration.nameSpace
  return ⟨className, variableName, nameSpace⟩

/-- The primary class, given its parts. -/
def primaryOf (t : Target) (names : Names) (d : Declaration) (baseClass : String)
    (properties : List BackedProperty) (attached : List BackedAttached) : PrimaryClass where
  name := names.className
  interfaceName := d.name
  baseClass := baseClass
  nameSpace := names.nameSpace
  imports := imports t names.className d properties
  hasConverter := t.platform.hasConverter names.className
  descriptors := properties.map (·.descriptor t) ++ attached.map (·.descriptor)
  wrappers := attached.map (·.wrapper)
  assignments := (properties.filter (·.isCollection t)).map fun p =>
    ⟨p.property.name, p.backing.text⟩
  accessors := properties.map fun p => Accessor.ofProperty d.name p.backing p.property.name

/-- The classes of a model element for a target. -/
def ofElement (t : Target) (e : ModelElement) : Except Fault ClassSet := do
  let d := e.declaration
  let names ← namesOf t e
  let properties ← allOrFault (BackedProperty.ofProperty t) d.properties
  let attached ← allOrFault (BackedAttached.ofAttached t) e.attached
  let base ← baseClass t names.className d
  let primary := primaryOf t names d base properties attached
  let methods := properties.filterMap (·.extensionMethod? d.name names.variableName)
  return {
    sourceName := d.name
    primary := primary
    attached := e.companion.map fun c =>
      { name := names.className ++ "Attached"
        interfaceName := c.name
        primaryName := names.className
        nameSpace := names.nameSpace
        imports := primary.imports
        delegations := attached.map (·.delegation) }
    extensions :=
      if methods.isEmpty then none
      else some
        { name := names.className ++ "Extensions"
          nameSpace := d.nameSpace
          imports := d.usings
          methods := methods } }

end ClassSet

/-- A generated file. -/
structure GeneratedFile where
  path : Path
  className : String
  draft : Draft
deriving Repr

namespace GeneratedFile

/-- The content of the file. -/
def content (f : GeneratedFile) : String := f.draft.text

end GeneratedFile

namespace ClassSet

/-- The files of the classes, in order. -/
def files (t : Target) (s : ClassSet) : Except Fault (List GeneratedFile) := do
  let n := t.indentSize
  let primaryPath ← t.pathOf s.primary.nameSpace s.primary.name
  let attachedFile ← match s.attached with
    | none => .ok []
    | some c =>
      (t.pathOf c.nameSpace c.name).map fun path => [⟨path, c.name, c.draft n s.sourceName⟩]
  let extensionFile ← match s.extensions with
    | none => .ok []
    | some c =>
      (t.pathOf c.nameSpace c.name).map fun path => [⟨path, c.name, c.draft n s.sourceName⟩]
  return ⟨primaryPath, s.primary.name, s.primary.draft t.platform n⟩ ::
    (attachedFile ++ extensionFile)

end ClassSet

/-- The files of a model element for a target. -/
def generate (t : Target) (e : ModelElement) : Except Fault (List GeneratedFile) := do
  let classes ← ClassSet.ofElement t e
  classes.files t

end PlatformClasses
