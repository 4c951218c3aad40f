import PlatformClasses.Declaration.Basic
import PlatformClasses.Fault
import PlatformClasses.Registry
import PlatformClasses.Text.Blank

/-!
# Attached properties

An attached interface describes properties of other elements by accessors: `GetLeft(element)` and
`SetLeft(element, value)`.  `AttachedProperty.ofDeclaration` pairs them up.  Every method must be an
accessor, a getter takes the element and a setter the element and the value, every setter has a getter,
and both agree on the type of the value; a getter alone describes a read-only property.
-/

namespace PlatformClasses

/-- An attached property, given by its accessors. -/
structure AttachedProperty where
  name : String
  getter : Method
  setter : Option Method
deriving Repr, DecidableEq

namespace AttachedProperty

/-- Whether the property cannot be set. -/
def isReadOnly (p : AttachedProperty) : Bool := p.setter.isNone

/-- The type of the value. -/
def valueType (p : AttachedProperty) : String := p.getter.returnType

/-- The first parameter of the getter, which is the element. -/
def element? (p : AttachedProperty) : Option Parameter := p.getter.parameters.head?

/-- The type of the elements that the property is attached to. -/
def elementType (p : AttachedProperty) : String := (p.element?.map (·.type)).getD ""

/-- The name that the accessors give to the element. -/
def elementName (p : AttachedProperty) : String := (p.element?.map (·.name)).getD ""

/-- The second parameter of a setter, which is the value. -/
def valueParameter? (setter : Method) : Option Parameter := setter.parameters[1]?

/-- The name that the setter gives to the value, if there is a setter. -/
def valueName? (p : AttachedProperty) : Option String :=
  p.setter.map fun setter => ((valueParameter? setter).map (·.name)).getD ""

/-- The two kinds of accessor. -/
inductive AccessorKind where
  | getter
  | setter
deriving Repr, DecidableEq

/-- The number of parameters an accessor takes. -/
def AccessorKind.arity : AccessorKind → Nat
  | .getter => 1
  | .setter => 2

/-- The kind of accessor a method's name says it is, and the property it names. -/
def accessorOf? (methodName : String) : Option (AccessorKind × String) :=
  match Text.afterLead? "Get" methodName with
  | some property => some (.getter, property)
  | none => (Text.afterLead? "Set" methodName).map fun property => (.setter, property)

/-- The name of a method together with its interface. -/
def qualified (owner methodName : String) : String := s!"{owner}.{methodName}"

/-- The accessors of an attached interface, by the property they name. -/
structure Accessors where
  getters : Registry Method
  setters : Registry Method

/-- The accessors with a method added. -/
def Accessors.add (owner : String) (a : Accessors) (m : Method) : Except Fault Accessors :=
  match accessorOf? m.name with
  | none => .error (.notAccessor (qualified owner m.name))
  | some (kind, property) =>
    if property = "" then .error (.namelessAccessor (qualified owner m.name))
    else if m.parameters.length ≠ kind.arity then
      .error (.accessorArity (qualified owner m.name) kind.arity m.parameters.length)
    else
      match kind with
      | .getter => .ok { a with getters := a.getters.insert property m }
      | .setter => .ok { a with setters := a.setters.insert property m }

/-- The accessors that the methods of an interface are; a method replaces an earlier one of its
name. -/
def Accessors.ofMethods (owner : String) : Accessors → List Method → Except Fault Accessors
  | a, [] => .ok a
  | a, m :: rest =>
    match a.add owner m with
    | .ok a => ofMethods owner a rest
    | .error e => .error e

/-- Checks that setters have getters. -/
def checkPaired (owner : String) (getters : Registry Method) :
    List (String × Method) → Except Fault Unit
  | [] => .ok ()
  | (property, _) :: rest =>
    if getters.contains property then checkPaired owner getters rest
    else .error (.setterWithoutGetter (qualified owner ("Set" ++ property)) property)

/-- Checks that setters take what their getters return, white space apart. -/
def checkValueTypes (owner : String) (getters : Registry Method) :
    List (String × Method) → Except Fault Unit
  | [] => .ok ()
  | (property, setter) :: rest =>
    let returnType := ((getters.get? property).map (·.returnType)).getD ""
    let valueType := ((valueParameter? setter).map (·.type)).getD ""
    if Text.withoutBlanks valueType = Text.withoutBlanks returnType then
      checkValueTypes owner getters rest
    else
      .error (.valueTypeMismatch (qualified owner ("Set" ++ property)) valueType property returnType)

/-- The attached properties of an interface, in the order of their getters. -/
def ofDeclaration (d : Declaration) : Except Fault (List AttachedProperty) := do
  let a ← Accessors.ofMethods d.name ⟨.empty, .empty⟩ d.methods
  checkPaired d.name a.getters a.setters.entries
  checkValueTypes d.name a.getters a.setters.entries
  return a.getters.entries.map fun (property, getter) =>
    ⟨property, getter, a.setters.get? property⟩

end AttachedProperty

end PlatformClasses
