import PlatformClasses.Target

/-!
# Backing types

The value of a property is stored as the platform's type for the declared one: a wrapper of the
platform where there is one, else the mapped type.  Where the two differ, the declared property is
implemented by converting.
-/

namespace PlatformClasses

/-- A declared type with the type that backs it. -/
structure Backing where
  /-- The declared type. -/
  source : TypeRef
  /-- The platform's type for it. -/
  destination : TypeRef
  /-- The platform's wrapper for it. -/
  wrapper : Option String
deriving Repr, DecidableEq

namespace Backing

/-- The defaults of built-in types. -/
def builtInDefaults : List (String × String) :=
  [("double", "0.0"), ("float", "0.0f"), ("decimal", "0m"), ("int", "0"), ("uint", "0u"),
   ("long", "0L"), ("ulong", "0UL"), ("short", "0"), ("ushort", "0"), ("byte", "0"), ("sbyte", "0"),
   ("bool", "false"), ("char", "'\\0'"), ("string", "\"\"")]

/-- The wrapper of a type without arguments and marks. -/
def wrapperOf (t : Target) (type : TypeRef) : Option String :=
  if type.isGeneric || type.isArray || type.nullable then none else t.platform.wrapper? type.name

/-- The backing of a declared type. -/
def ofTypeRef (t : Target) (type : TypeRef) : Backing :=
  ⟨type, t.mapTypeRef type, wrapperOf t type⟩

/-- The backing of a declared type that is given as text. -/
def ofText (t : Target) (type : String) : Except Fault Backing :=
  (TypeRef.parse type).map (ofTypeRef t)

/-- The declared type, as text. -/
def sourceText (b : Backing) : String := b.source.render

/-- The backing type, as text. -/
def text (b : Backing) : String := b.wrapper.getD b.destination.render

/-- Whether the declared property must be implemented by converting. -/
def differs (b : Backing) : Bool := b.text != b.sourceText

/-- Whether the type is an array. -/
def isArray (b : Backing) : Bool := b.destination.isArray

/-- The default value of a type without arguments and marks. -/
def builtInDefault? (type : TypeRef) : Option String :=
  if type.nullable || type.isGeneric then none
  else (builtInDefaults.find? fun e => e.1 == type.name).map (·.2)

/-- The default value of a property of the type, which may ask for one. -/
def defaultValue (b : Backing) (asked : Option String) : String :=
  match asked, b.wrapper with
  | some value, some wrapper => s!"new {wrapper}({value})"
  | some value, none => value
  | none, some wrapper => s!"{wrapper}.Default"
  | none, none =>
    if b.isArray then s!"Array.Empty<{b.destination.elementType.render}>()"
    else (builtInDefault? b.destination).getD s!"default({b.text})"

/-- An expression of the backing type, converted to the declared type. -/
def toAbstract (b : Backing) (expression : String) : String :=
  match b.wrapper with
  | some _ => s!"{expression}.{b.sourceText}"
  | none => expression

/-- An expression of the declared type, converted to the backing type. -/
def toBacking (b : Backing) (expression : String) : String :=
  match b.wrapper with
  | some wrapper => s!"new {wrapper}({expression})"
  | none => if b.differs then s!"({b.text}) {expression}" else expression

end Backing

end PlatformClasses
