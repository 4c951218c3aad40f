import PlatformClasses.Backing
import PlatformClasses.Draft

/-!
# Members of generated classes

The members that generated classes are made of, first as data and then as lines: descriptors of
registered properties, accessors with the implementations that convert to the declared types, static
wrappers and the methods that delegate to them, and extension methods.
-/

namespace PlatformClasses

/-- The registration of a property with the platform. -/
structure Descriptor where
  property : String
  isAttached : Bool
  valueType : String
  defaultValue : String
deriving Repr, DecidableEq

/-- The name of the descriptor of a property. -/
def Descriptor.nameFor (property : String) : String := property ++ "Property"

/-- The line of a descriptor in a class. -/
def Descriptor.line (p : Platform) (className : String) (d : Descriptor) : String :=
  let descriptor := s!"public static readonly {p.descriptorClass} {nameFor d.property} = "
  let key := if d.isAttached then s!"{p.attachedPropertyFactory}(\"{d.property}\", "
    else s!"{p.propertyFactory}(nameof({d.property}), "
  descriptor ++ key ++ s!"typeof({d.valueType}), typeof({className}), {d.defaultValue});"

/-- The implementation of a declared property by one of another type. -/
structure Conversion where
  interfaceName : String
  declaredType : String
  /-- The expression that is got. -/
  got : String
  /-- The expression that is set. -/
  set : String
deriving Repr, DecidableEq

/-- A property of a class that is stored with the platform, and the conversion to its declared type if
this is another one. -/
structure Accessor where
  property : String
  backingType : String
  conversion : Option Conversion
deriving Repr, DecidableEq

namespace Accessor

/-- The accessor of a property. -/
def ofProperty (interfaceName : String) (b : Backing) (property : String) : Accessor where
  property := property
  backingType := b.text
  conversion :=
    if b.differs then
      some ⟨interfaceName, b.sourceText, b.toAbstract property, b.toBacking "value"⟩
    else none

/-- The draft with the conversion to the declared type added. -/
def draftConversion (property : String) (c : Conversion) (d : Draft) : Draft :=
  (d.line s!"{c.declaredType} {c.interfaceName}.{property}").braced fun d =>
    (d.line s!"get => {c.got};").line s!"set => {property} = {c.set};"

/-- The draft with an accessor added. -/
def draft (a : Accessor) (d : Draft) : Draft :=
  let descriptor := Descriptor.nameFor a.property
  let d := (d.separate.line s!"public {a.backingType} {a.property}").braced fun d =>
    (d.line s!"get => ({a.backingType}) GetValue({descriptor});").line
      s!"set => SetValue({descriptor}, value);"
  match a.conversion with
  | some c => draftConversion a.property c d
  | none => d

end Accessor

/-- The static methods of a class that get and set an attached property of an element.  The value has a
name only if it can be set. -/
structure Wrapper where
  property : String
  valueType : String
  elementType : String
  element : String
  value : Option String
deriving Repr, DecidableEq

/-- The draft with the wrappers of an attached property added. -/
def Wrapper.draft (w : Wrapper) (d : Draft) : Draft :=
  let descriptor := Descriptor.nameFor w.property
  let d := d.separate.line
    (s!"public static {w.valueType} Get{w.property}({w.elementType} {w.element}) => " ++
      s!"({w.valueType}) {w.element}.GetValue({descriptor});")
  match w.value with
  | some value =>
    d.line
      (s!"public static void Set{w.property}({w.elementType} {w.element}, {w.valueType} {value}) => " ++
        s!"{w.element}.SetValue({descriptor}, {value});")
  | none => d

/-- A setter that delegates to a wrapper: the name of its value, and what it passes on. -/
structure DelegatedSetter where
  value : String
  passed : String
deriving Repr, DecidableEq

/-- The methods of an attached class that get and set a property by the wrappers of the class that
stores it. -/
structure Delegation where
  property : String
  valueType : String
  elementType : String
  element : String
  /-- The type that the element is cast to. -/
  castType : String
  /-- The expression of the getter, given the call of the wrapper. -/
  got : String → String
  setter : Option DelegatedSetter

/-- The draft with the methods of an attached property added. -/
def Delegation.draft (className : String) (m : Delegation) (d : Draft) : Draft :=
  let native := s!"({m.castType}) {m.element}"
  let call := s!"{className}.Get{m.property}({native})"
  let d := d.separate.line
    s!"public {m.valueType} Get{m.property}({m.elementType} {m.element}) => {m.got call};"
  match m.setter with
  | some s =>
    d.line
      (s!"public void Set{m.property}({m.elementType} {m.element}, {m.valueType} {s.value}) => " ++
        s!"{className}.Set{m.property}({native}, {s.passed});")
  | none => d

/-- A method that sets a property and returns the object. -/
structure ExtensionMethod where
  interfaceName : String
  property : String
  receiver : String
  valueType : String
deriving Repr, DecidableEq

/-- The draft with an extension method added. -/
def ExtensionMethod.draft (m : ExtensionMethod) (d : Draft) : Draft :=
  (d.separate.line
    (s!"public static {m.interfaceName} {m.property}(this {m.interfaceName} {m.receiver}, " ++
      s!"{m.valueType} value)")).braced fun d =>
    (d.line s!"{m.receiver}.{m.property} = value;").line s!"return {m.receiver};"

/-- A property that the constructor gives a new object of its type. -/
structure Assignment where
  property : String
  type : String
deriving Repr, DecidableEq

/-- The draft with the constructor of a class added. -/
def Assignment.draftConstructor (className : String) (assignments : List Assignment) (d : Draft) :
    Draft :=
  (d.line s!"public {className}()").braced fun d =>
    d.addLines (assignments.map fun a => s!"{a.property} = new {a.type}();")

end PlatformClasses
