import PlatformClasses.Declaration.Model
import PlatformClasses.Marker
import PlatformClasses.Platform
import PlatformClasses.TypeRef.Parser

/-!
# Targets

A target is what all classes of a run are generated for: a platform, the namespaces and collections of
the model, the declarations that are known, and the place and layout of the files.  It maps names,
types and namespaces of the model to those of the platform, and says where files go.
-/

namespace PlatformClasses

/-- What the classes of a run are generated for. -/
structure Target where
  platform : Platform
  /-- The directory that holds the project directories. -/
  outputRoot : Path
  /-- The namespace that all of the model lies in. -/
  rootNamespace : String := "Microsoft.StandardUI"
  /-- The collection classes with the types of their elements. -/
  collections : Registry String := .empty
  /-- The names of declarations with the names of their classes. -/
  known : Registry String := .empty
  /-- The declaration that all elements derive from. -/
  rootElement : String := "IFrameworkElement"
  /-- The project directory of files that belong to no platform. -/
  sharedProject : String := "StandardUI"
  /-- The directory of generated files in each project directory. -/
  generatedDirectory : String := "generated"
  /-- The number of spaces per level of indentation. -/
  indentSize : Int := 4
  /-- The ending of file names. -/
  fileExtension : String := ".cs"
deriving Repr

namespace Target

/-! ## Names -/

/-- The registry of the marked names among declarations, with the names of their classes. -/
def register (known : Registry String) (d : Declaration) : Registry String :=
  match Marker.strip? d.name with
  | some className => known.insert d.name className
  | none => known

/-- The registry of the marked names among the declarations of model elements. -/
def knownOf (elements : List ModelElement) : Registry String :=
  elements.foldl
    (fun known e =>
      let known := register known e.declaration
      match e.companion with
      | some c => register known c
      | none => known)
    .empty

/-- The class of a declaration: the registered one, else the one its name says. -/
def className (t : Target) (declarationName : String) : Except Fault String :=
  match t.known.get? declarationName with
  | some name => .ok name
  | none => Marker.strip declarationName

/-- The keywords that may not be the name of a variable as they are. -/
def keywords : List String :=
  ["base", "bool", "byte", "case", "catch", "char", "checked", "class", "const",
   "decimal", "default", "delegate", "double", "enum", "event", "explicit", "extern",
   "fixed", "float", "implicit", "int", "interface", "internal", "lock", "long",
   "namespace", "object", "operator", "params", "private", "protected", "public",
   "readonly", "ref", "return", "sbyte", "sealed", "short", "static", "string",
   "struct", "switch", "this", "throw", "typeof", "uint", "ulong", "unchecked",
   "unsafe", "ushort", "using", "virtual", "void", "volatile", "while"]

/-- A name with its first character in lower case. -/
def lowerFirst (name : String) : String :=
  match name.toList with
  | c :: rest => Text.lower (String.ofList [c]) ++ String.ofList rest
  | [] => ""

/-- The variable that stands for an instance of a class. -/
def variableOfClass (className : String) : String :=
  let lowered := lowerFirst className
  if keywords.contains lowered then "@" ++ lowered else lowered

/-- The variable that stands for an instance of a declaration. -/
def variableName (t : Target) (declarationName : String) : Except Fault String :=
  (t.className declarationName).map variableOfClass

/-- The type of the elements of a collection class. -/
def elementTypeOf? (t : Target) (className : String) : Option String :=
  t.collections.get? className

/-! ## Types -/

/-- The name that a name in a type reference is mapped to: that of a known declaration to its class,
and another marked name to the name without its marker unless it has type arguments or is dotted. -/
def mapName (t : Target) (name : String) (isGeneric : Bool) : String :=
  match t.known.get? name with
  | some className => className
  | none =>
    if isGeneric || name.toList.contains '.' then name else (Marker.strip? name).getD name

/-- The platform's reference for a reference of the model. -/
def mapTypeRef (t : Target) (type : TypeRef) : TypeRef := type.mapNames t.mapName

/-- The platform's type for a type of the model, as text. -/
def mapType (t : Target) (type : String) : Except Fault String :=
  (TypeRef.parse type).map fun parsed => (t.mapTypeRef parsed).render

/-! ## Namespaces and places -/

/-- What follows a root in a namespace that is the root or lies in it: nothing, or a dot and more. -/
def below? (root nameSpace : String) : Option String :=
  if nameSpace = root then some ""
  else (Text.afterLead? (root ++ ".") nameSpace).map ("." ++ ·)

/-- Whether a namespace is the root namespace or lies in it. -/
def isUnderRoot (t : Target) (nameSpace : String) : Bool :=
  (below? t.rootNamespace nameSpace).isSome

/-- The platform's namespace for a namespace of the model. -/
def mapNamespace (t : Target) (nameSpace : String) : Except Fault String :=
  match below? t.rootNamespace nameSpace with
  | some rest => .ok (t.platform.destinationRoot ++ rest)
  | none => .error (.foreignNamespace nameSpace t.rootNamespace)

/-- The directory below a project directory for what follows the root in a namespace. -/
def directoryIn (t : Target) (project rest : String) : Path :=
  ((Text.pieces '.' rest).filter (· != "")).foldl Path.join
    ((t.outputRoot.join project).join t.generatedDirectory)

/-- The directory of the files of a namespace: that of the platform in its project, that of the model
in the shared one. -/
def directoryOf (t : Target) (nameSpace : String) : Except Fault Path :=
  match below? t.platform.destinationRoot nameSpace with
  | some rest => .ok (t.directoryIn t.platform.projectDirectory rest)
  | none =>
    match below? t.rootNamespace nameSpace with
    | some rest => .ok (t.directoryIn t.sharedProject rest)
    | none =>
      .error (.unplacedNamespace nameSpace t.rootNamespace t.platform.destinationRoot)

/-- The file name of a class. -/
def fileName (className extension : String) : String := className ++ extension

/-- The path of the file of a class. -/
def pathOf (t : Target) (nameSpace className : String) : Except Fault Path :=
  (t.directoryOf nameSpace).map fun directory => directory.join (fileName className t.fileExtension)

end Target

end PlatformClasses
