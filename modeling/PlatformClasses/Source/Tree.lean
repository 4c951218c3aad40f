import PlatformClasses.Source.Token

/-!
# Syntax trees

What a source text declares, as a tree of the declarations and the other things that stand at its top
level and between the braces of namespaces, types and conditional groups.  Only what declarations are
made from is kept; bodies, values and other members leave a node without content.
-/

namespace PlatformClasses.Source

/-- An attribute: its name without a target, and the text between the brackets of its arguments. -/
structure Attribute where
  name : String
  arguments : Option String
deriving Repr, DecidableEq

/-- A parameter of a method; a name may stand without a type. -/
structure ParameterNode where
  name : String
  type : Option String
deriving Repr, DecidableEq

/-- A property with its attributes and the names of its accessors, none of which it has if it is
given by an expression. -/
structure PropertyNode where
  name : String
  type : String
  attributes : List Attribute
  accessors : List String
deriving Repr, DecidableEq

/-- A method. -/
structure MethodNode where
  name : String
  returnType : String
  parameters : List ParameterNode
deriving Repr, DecidableEq

/-- A using directive: its verbatim text, and the words that say what kind it is of. -/
structure UsingNode where
  text : String
  isGlobal : Bool
  isStatic : Bool
deriving Repr, DecidableEq

/-- The types with members, interfaces apart, and those without. -/
inductive TypeKind where
  | classType
  | structType
  | recordType
  | enumType
  | delegateType
deriving Repr, DecidableEq

/-- The parts of a conditional group of lines. -/
inductive BranchKind where
  | ifBranch
  | elifBranch
  | elseBranch
deriving Repr, DecidableEq

/-- A node of a syntax tree.  The later branches of a conditional group are the last members of the
branch before them. -/
inductive Node where
  | usingDirective (directive : UsingNode)
  | externAlias
  | globalAttribute
  | fileScopedNamespace
  | namespaceBlock (name : String) (members : List Node)
  | interfaceBlock (name : String) (baseTypes : List String) (members : List Node)
  | typeDeclaration (kind : TypeKind) (members : List Node)
  | property (node : PropertyNode)
  | method (node : MethodNode)
  | otherMember
  | globalStatement
  | directive (kind : DirectiveKind)
  | branch (kind : BranchKind) (members : List Node)
deriving Repr, Inhabited

namespace Node

/-- The name of a type's kind. -/
def typeKindName : TypeKind → String
  | .classType => "class_declaration"
  | .structType => "struct_declaration"
  | .recordType => "record_declaration"
  | .enumType => "enum_declaration"
  | .delegateType => "delegate_declaration"

/-- The name of a branch's kind. -/
def branchKindName : BranchKind → String
  | .ifBranch => "preproc_if"
  | .elifBranch => "preproc_elif"
  | .elseBranch => "preproc_else"

/-- The name of a directive's kind. -/
def directiveKindName : DirectiveKind → String
  | .region => "preproc_region"
  | .endRegion => "preproc_endregion"
  | .line => "preproc_line"
  | .pragma => "preproc_pragma"
  | .nullable => "preproc_nullable"
  | .error => "preproc_error"
  | .warning => "preproc_warning"
  | .define => "preproc_define"
  | .undefine => "preproc_undef"
  | .shebang => "shebang_directive"

/-- The name of a node's kind, as messages give it. -/
def kindName : Node → String
  | usingDirective _ => "using_directive"
  | externAlias => "extern_alias_directive"
  | globalAttribute => "global_attribute"
  | fileScopedNamespace => "file_scoped_namespace_declaration"
  | namespaceBlock .. => "namespace_declaration"
  | interfaceBlock .. => "interface_declaration"
  | typeDeclaration kind _ => typeKindName kind
  | property _ => "property_declaration"
  | method _ => "method_declaration"
  | otherMember => "member_declaration"
  | globalStatement => "global_statement"
  | directive kind => directiveKindName kind
  | branch kind _ => branchKindName kind

/-- The name of the kind of the braces around members. -/
def bodyKindName : String := "declaration_list"

/-- The name of the kind of a whole source. -/
def sourceKindName : String := "compilation_unit"

end Node

end PlatformClasses.Source
