import PlatformClasses.Declaration.Model
import PlatformClasses.Source.Lexer
import PlatformClasses.Source.Member

/-!
# Reading the model elements of a source

A source must hold one namespace and nothing beside it but using directives and extern aliases, and
every interface must be declared directly in that namespace.  `ModelElement.ofTree` checks this on a
syntax tree and builds the elements; `ModelElement.ofText` reads a source text.

Where the syntax tree comes from is left open: a `SourceReader` is any way to get one from a text, and
`SourceReader.builtIn` is the lexer and the recognisers of this library.
-/

namespace PlatformClasses

open Source

/-- What reads source texts: the syntax tree of a text, none if the text is not well formed. -/
structure SourceReader where
  treeOf? : List Char → Option (List Node)

/-- The reader of source texts that is built in. -/
def SourceReader.builtIn : SourceReader where
  treeOf? text := (tokens? text).bind treeOfTokens?

namespace Declaration

/-! ## From nodes -/

/-- The ending that an attribute's name may have or not. -/
def attributeEnding : String := "Attribute"

/-- The name of an attribute without its ending. -/
def attributeName (name : String) : String :=
  (Text.beforeTrail? attributeEnding name).getD name

/-- The text between the brackets of an attribute's arguments, if there is any. -/
def argumentText (arguments : String) : Option String :=
  let inner := Text.trimChars ((Text.trimChars arguments.toList).drop 1).dropLast
  if inner.isEmpty then none else some (String.ofList inner)

/-- The attributes of a property by their names; of two with the same name the later counts. -/
def attributesOf (attributes : List Attribute) : Registry (Option String) :=
  Registry.ofList (attributes.map fun a => (attributeName a.name, a.arguments.bind argumentText))

/-- A property as its node gives it. -/
def propertyOf (node : PropertyNode) : Property :=
  let attributes := attributesOf node.attributes
  { name := node.name
    type := node.type
    defaultValue := (attributes.get? "DefaultValue").join
    isFluent := attributes.contains "Fluent"
    attributes := attributes.names }

/-- The parameters of a method, which must have types. -/
def parametersOf (method : String) : List ParameterNode → Except Fault (List Parameter)
  | [] => .ok []
  | p :: rest =>
    match p.type with
    | none => .error (.untypedParameter method)
    | some type => (parametersOf method rest).map (⟨p.name, type⟩ :: ·)

/-- A method as its node gives it. -/
def methodOf (owner : String) (node : MethodNode) : Except Fault Method :=
  (parametersOf s!"{owner}.{node.name}" node.parameters).map (⟨node.name, node.returnType, ·⟩)

/-- The properties among the members of an interface. -/
def propertiesOf (members : List Node) : List Property :=
  members.filterMap fun
    | .property node => some (propertyOf node)
    | _ => none

/-- The methods among the members of an interface. -/
def methodsOf (owner : String) : List Node → Except Fault (List Method)
  | [] => .ok []
  | .method node :: rest => do
    let m ← methodOf owner node
    let more ← methodsOf owner rest
    return m :: more
  | _ :: rest => methodsOf owner rest

/-! ## Using directives -/

/-- What follows a keyword and the white space that must follow it. -/
def afterKeyword? (keyword : String) (cs : List Char) : Option (List Char) :=
  if keyword.toList.isPrefixOf cs then
    match cs.drop keyword.toList.length with
    | c :: rest => if Text.isBlank c then some (rest.dropWhile Text.isBlank) else none
    | [] => none
  else none

/-- What a using directive imports: its text without the keywords `global`, `using` and `static` and
without the semicolon.  Where a keyword is not followed by white space, the whole text. -/
def usingText (directive : String) : String :=
  let cs := Text.trimChars directive.toList
  let afterGlobal := (afterKeyword? "global" cs).getD cs
  match afterKeyword? "using" afterGlobal with
  | none => String.ofList cs
  | some rest =>
    let rest := (afterKeyword? "static" rest).getD rest
    let imported := Text.trimRightChars rest.dropLast
    if rest.getLast? = some ';' && !imported.isEmpty then String.ofList imported
    else String.ofList cs

/-- What the using directives among the nodes of a source import. -/
def usingsOf (nodes : List Node) : List String :=
  nodes.filterMap fun
    | .usingDirective node => some (usingText node.text)
    | _ => none

/-! ## Interfaces and their places -/

/-- An interface of a tree, with the kinds of the nodes around it from the innermost on. -/
structure PlacedInterface where
  around : List String
  name : String
  baseTypes : List String
  members : List Node

mutual
/-- The interfaces of a node, in source order, each before those within it. -/
def interfacesOf (around : List String) : Node → List PlacedInterface
  | .interfaceBlock name baseTypes members =>
    ⟨around, name, baseTypes, members⟩ ::
      interfacesOfAll (Node.bodyKindName :: "interface_declaration" :: around) members
  | .namespaceBlock _ members =>
    interfacesOfAll (Node.bodyKindName :: "namespace_declaration" :: around) members
  | .typeDeclaration kind members =>
    interfacesOfAll (Node.bodyKindName :: Node.typeKindName kind :: around) members
  | .branch kind members => interfacesOfAll (Node.branchKindName kind :: around) members
  | _ => []

/-- The interfaces of several nodes, in source order. -/
def interfacesOfAll (around : List String) : List Node → List PlacedInterface
  | [] => []
  | node :: rest => interfacesOf around node ++ interfacesOfAll around rest
end

/-- The nodes around an interface that is declared directly in a namespace of the top level. -/
def properPlace : List String :=
  [Node.bodyKindName, "namespace_declaration", Node.sourceKindName]

/-- The declarations of interfaces, each of which must stand in its proper place. -/
def ofInterfaces (nameSpace : String) (usings : List String) (sourceFile : Option Path) :
    List PlacedInterface → Except Fault (List Declaration)
  | [] => .ok []
  | i :: rest =>
    if i.around = properPlace then do
      let methods ← methodsOf i.name i.members
      let more ← ofInterfaces nameSpace usings sourceFile rest
      return ⟨i.name, nameSpace, usings, propertiesOf i.members, methods, i.baseTypes, sourceFile⟩ ::
        more
    else .error (.misplacedInterface i.name ((i.around[1]?).getD "None"))

/-- The names of the namespaces at the top level, beside which only using directives and extern aliases
may stand. -/
def namespacesOf (origin : String) : List Node → Except Fault (List String)
  | [] => .ok []
  | .namespaceBlock name _ :: rest => (namespacesOf origin rest).map (name :: ·)
  | .usingDirective _ :: rest => namespacesOf origin rest
  | .externAlias :: rest => namespacesOf origin rest
  | node :: _ => .error (.strayTopLevel origin node.kindName)

/-- The declarations of a syntax tree. -/
def ofTree (origin : String) (sourceFile : Option Path) (nodes : List Node) :
    Except Fault (List Declaration) := do
  let namespaces ← namespacesOf origin nodes
  match namespaces with
  | [nameSpace] =>
    ofInterfaces nameSpace (usingsOf nodes) sourceFile
      (interfacesOfAll [Node.sourceKindName] nodes)
  | _ => .error (.namespaceCount origin namespaces.length)

end Declaration

namespace ModelElement

/-- The model elements of a syntax tree. -/
def ofTree (origin : String) (sourceFile : Option Path) (nodes : List Node) :
    Except Fault (List ModelElement) := do
  let declarations ← Declaration.ofTree origin sourceFile nodes
  ofSource origin declarations

/-- What messages call a source: its file, if it comes from one. -/
def originOf (sourceFile : Option Path) : String :=
  match sourceFile with
  | some path => path.toString
  | none => "<source>"

/-- The model elements of a source text. -/
def ofText (reader : SourceReader) (sourceFile : Option Path) (text : List Char) :
    Except Fault (List ModelElement) :=
  let origin := originOf sourceFile
  match reader.treeOf? text with
  | none => .error (.syntaxErrors origin)
  | some nodes => ofTree origin sourceFile nodes

end ModelElement

end PlatformClasses
