import PlatformClasses.FileTree

/-!
# Faults

Everything that can be wrong with the declarations of a model or with the types and namespaces they
use.  A fault says what is wrong and with what; its wording and the thing it is about are derived.
-/

namespace PlatformClasses

/-- Why a source file could not be read as text. -/
inductive ReadFailure where
  | file (error : FileError)
  | encoding (malformed : Text.Utf8.Malformed)
deriving Repr, DecidableEq

/-- What is wrong with a model. -/
inductive Fault where
  /-- A declaration's name does not start with the marker letter. -/
  | unmarkedName (name : String)
  /-- A type reference holds nothing but white space. -/
  | emptyType (text : String)
  /-- A text is no type reference. -/
  | malformedType (text : String)
  /-- The type arguments of a type reference are not closed. -/
  | unterminatedArguments (text : String)
  /-- A namespace that should be mapped is not under the root namespace. -/
  | foreignNamespace (nameSpace root : String)
  /-- A namespace that files should be placed for is under neither root. -/
  | unplacedNamespace (nameSpace root destinationRoot : String)
  /-- There is no such platform; the names of the known ones follow. -/
  | unknownPlatform (name : String) (known : List String)
  /-- A source text is not well formed. -/
  | syntaxErrors (origin : String)
  /-- Something other than a namespace stands at the top level. -/
  | strayTopLevel (origin kind : String)
  /-- There is not exactly one namespace. -/
  | namespaceCount (origin : String) (count : Nat)
  /-- An interface is not declared directly in the namespace. -/
  | misplacedInterface (name parentKind : String)
  /-- A parameter of a method has a name but no type. -/
  | untypedParameter (method : String)
  /-- An attached interface has no owner in its file. -/
  | missingOwner (name origin owner : String)
  /-- A method of an attached interface is no accessor. -/
  | notAccessor (method : String)
  /-- An accessor names no property. -/
  | namelessAccessor (method : String)
  /-- An accessor takes the wrong number of parameters. -/
  | accessorArity (method : String) (expected actual : Nat)
  /-- A setter has no getter. -/
  | setterWithoutGetter (method property : String)
  /-- A setter and its getter disagree about the type of the value. -/
  | valueTypeMismatch (method valueType property returnType : String)
  /-- A source file cannot be read. -/
  | unreadable (path : Path) (failure : ReadFailure)
deriving Repr, DecidableEq

namespace ReadFailure

/-- The position of a malformed sequence, in words. -/
def place (m : Text.Utf8.Malformed) : String :=
  if m.length ≤ 1 then
    let byte := "0x" ++ String.ofList (Text.hexDigits 2 m.first.toNat)
    s!"byte {byte} in position {Nat.repr m.position}"
  else
    s!"bytes in position {Nat.repr m.position}-{Nat.repr (m.position + m.length - 1)}"

/-- What is wrong with a malformed sequence, in words. -/
def reason : Text.Utf8.Reason → String
  | .invalidStart => "invalid start byte"
  | .invalidContinuation => "invalid continuation byte"
  | .unexpectedEnd => "unexpected end of data"

/-- The text of a malformed sequence. -/
def encodingMessage (m : Text.Utf8.Malformed) : String :=
  s!"'utf-8' codec can't decode {place m}: {reason m.reason}"

/-- The text of the failure. -/
def message : ReadFailure → String
  | file e => e.message
  | encoding m => encodingMessage m

end ReadFailure

namespace Fault

/-- The three groups of faults. -/
inductive Category where
  /-- A name breaks the marker convention. -/
  | naming
  /-- A type reference, namespace or platform does not fit the configuration. -/
  | configuration
  /-- A source text or a declaration is not built as it should be. -/
  | structural
deriving Repr, DecidableEq

/-- The group a fault belongs to. -/
def category : Fault → Category
  | unmarkedName _ => .naming
  | emptyType _ | malformedType _ | unterminatedArguments _ | foreignNamespace .. |
    unplacedNamespace .. | unknownPlatform .. => .configuration
  | _ => .structural

/-- The name that a fault is about. -/
def subject : Fault → String
  | unmarkedName name => name
  | emptyType text | malformedType text | unterminatedArguments text => text
  | foreignNamespace nameSpace _ => nameSpace
  | unplacedNamespace nameSpace _ _ => nameSpace
  | unknownPlatform name _ => name
  | syntaxErrors origin => origin
  | strayTopLevel origin _ => origin
  | namespaceCount origin _ => origin
  | misplacedInterface name _ => name
  | untypedParameter method => method
  | missingOwner name _ _ => name
  | notAccessor method | namelessAccessor method => method
  | accessorArity method _ _ => method
  | setterWithoutGetter method _ => method
  | valueTypeMismatch method _ _ _ => method
  | unreadable path _ => path.toString

/-- Names in a list, quoted and in brackets. -/
def listed (names : List String) : String :=
  "[" ++ Text.joined ", " (names.map Text.quoted) ++ "]"

/-- The text of a fault. -/
def message : Fault → String
  | unmarkedName name => s!"Data model interface {name} must start with 'I'"
  | emptyType _ => "Empty type reference"
  | malformedType text => s!"Malformed type reference '{text}'"
  | unterminatedArguments text => s!"Unterminated type argument list in '{text}'"
  | foreignNamespace nameSpace root =>
    s!"Namespace {nameSpace} is not under root namespace {root}"
  | unplacedNamespace nameSpace root destinationRoot =>
    s!"Namespace {nameSpace} is under neither {root} nor {destinationRoot}"
  | unknownPlatform name known =>
    s!"Unknown target platform '{name}'. Supported platforms: {listed known}"
  | syntaxErrors origin => s!"Syntax errors in {origin}"
  | strayTopLevel origin kind =>
    s!"Top level of {origin} should contain only a namespace declaration, " ++
      s!"but it contains a {kind} node"
  | namespaceCount origin count =>
    s!"{origin} should contain exactly one namespace declaration, found {Nat.repr count}"
  | misplacedInterface name parentKind =>
    s!"Parent of {name} interface should be a namespace declaration, " ++
      s!"but it's a {parentKind} node instead"
  | untypedParameter method => s!"Missing type on parameter in {method}"
  | missingOwner name origin owner =>
    s!"Attached interface {name} in {origin} has no {owner} interface in the same file"
  | notAccessor method => s!"Attached type method {method} doesn't start with Get or Set"
  | namelessAccessor method => s!"Attached type method {method} doesn't name a property"
  | accessorArity method expected actual =>
    s!"Attached type method {method} should take {Nat.repr expected} parameter(s), " ++
      s!"but takes {Nat.repr actual}"
  | setterWithoutGetter method property =>
    s!"Attached type method {method} has no matching Get{property} method"
  | valueTypeMismatch method valueType property returnType =>
    s!"Attached type method {method} value type {valueType} doesn't " ++
      s!"match Get{property} return type {returnType}"
  | unreadable path failure => s!"Cannot read {path.toString}: {failure.message}"

end Fault

end PlatformClasses
