import PlatformClasses.Path

/-!
# Declarations

One interface of the model: its namespace, the using directives of its source, its properties, methods
and base types, all as text.
-/

namespace PlatformClasses

/-- A property of an interface. -/
structure Property where
  name : String
  type : String
  /-- The default value that an attribute asks for. -/
  defaultValue : Option String
  /-- Whether an attribute asks for an extension method that sets the property. -/
  isFluent : Bool
  /-- The names of the attributes. -/
  attributes : List String
deriving Repr, DecidableEq

/-- A parameter of a method. -/
structure Parameter where
  name : String
  type : String
deriving Repr, DecidableEq

/-- A method of an interface. -/
structure Method where
  name : String
  returnType : String
  parameters : List Parameter
deriving Repr, DecidableEq

/-- An interface of the model. -/
structure Declaration where
  name : String
  nameSpace : String
  usings : List String
  properties : List Property
  methods : List Method
  baseTypes : List String
  /-- The file that the declaration comes from. -/
  sourceFile : Option Path
deriving Repr, DecidableEq

/-- The first base type, the only one that generation uses. -/
def Declaration.baseType? (d : Declaration) : Option String := d.baseTypes.head?

end PlatformClasses
