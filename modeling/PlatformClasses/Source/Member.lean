import PlatformClasses.Source.Phrase
import PlatformClasses.Source.Tree

/-!
# Reading declarations

The grammar of what stands at the top level of a source and between the braces of namespaces and types.
A reader gives what it has read and the tokens after it, or nothing where the source is not well
formed.
-/

namespace PlatformClasses.Source

open Recogniser Phrase

/-- Reads something at the front of the tokens. -/
abbrev Reader (α : Type) := List Token → Option (α × List Token)

namespace Reader

/-- The verbatim text of a phrase. -/
def textOf (p : Recogniser) : Reader String := fun ts =>
  (p ts).map fun rest => (Token.verbatim (Token.before ts rest), rest)

/-- At most `fuel` things, as long as there are any. -/
def manyAtMost {α : Type} (p : Reader α) : Nat → List Token → List α × List Token
  | 0, ts => ([], ts)
  | fuel + 1, ts =>
    match p ts with
    | some (a, rest) =>
      if rest.length < ts.length then
        let (more, rest) := manyAtMost p fuel rest
        (a :: more, rest)
      else ([], ts)
    | none => ([], ts)

/-- Things of one kind, as long as there are any. -/
def many {α : Type} (p : Reader α) (ts : List Token) : List α × List Token :=
  manyAtMost p ts.length ts

/-- Things of one kind, at least one, with commas between. -/
def commaSeparated {α : Type} (p : Reader α) : Reader (List α) := fun ts => do
  let (first, rest) ← p ts
  let (others, rest) := many (fun ts => do p (← mark "," ts)) rest
  return (first :: others, rest)

end Reader

open Reader

variable (l : Phrases)

/-! ## Parts of declarations -/

/-- An attribute. -/
def readAttribute : Reader Attribute := fun ts => do
  let (name, rest) ← textOf (qualifiedName l) ts
  match textOf (attributeArguments l) rest with
  | some (arguments, rest) => return (⟨name, some arguments⟩, rest)
  | none => return (⟨name, none⟩, rest)

/-- Attributes in their brackets. -/
def readAttributeList : Reader (List Attribute) := fun ts => do
  let rest ← sequence [mark "[", maybe attributeTarget] ts
  let (attributes, rest) ← commaSeparated (readAttribute l) rest
  let rest ← sequence [maybe (mark ","), mark "]"] rest
  return (attributes, rest)

/-- The attributes and modifiers before a declaration; the modifiers are not kept. -/
def readHead (ts : List Token) : List Attribute × List Token :=
  let (attributes, rest) := many (readAttributeList l) ts
  (attributes.flatten, (repeated modifier rest).getD rest)

/-- A parameter that is passed by position and not one that takes all further arguments, of which
nothing is kept. -/
def readParameter : Reader (Option ParameterNode) := fun ts => do
  let start ← attributes l ts
  match sequence [word "params", type l, declaredName] start with
  | some rest => return (none, rest)
  | none =>
    let value := maybe (sequence [mark "=", expression l])
    match (do
      let rest ← parameterModifiers l start
      let (typeText, rest) ← textOf (type l) rest
      let (name, rest) ← textOf declaredName rest
      return (some ⟨name, some typeText⟩, ← value rest)) with
    | some result => some result
    | none => do
      let (name, rest) ← textOf declaredName start
      return (some ⟨name, none⟩, ← value rest)

/-- The parameters of a method, in their brackets. -/
def readParameters : Reader (List ParameterNode) := fun ts => do
  let rest ← mark "(" ts
  match mark ")" rest with
  | some rest => return ([], rest)
  | none =>
    let (parameters, rest) ← commaSeparated (readParameter l) rest
    let rest ← mark ")" rest
    return (parameters.filterMap id, rest)

/-- An accessor, of which the name is kept. -/
def readAccessor : Reader String := fun ts => do
  let (_, rest) := readHead l ts
  let (name, rest) ← textOf (token (·.kind == .word)) rest
  let rest ← functionBody l rest
  return (name, rest)

/-- Accessors in their braces. -/
def readAccessors : Reader (List String) := fun ts => do
  let rest ← openBrace ts
  let (names, rest) := many (readAccessor l) rest
  let rest ← closeBrace rest
  return (names, rest)

/-- The name that ends a dotted path, the rest of which names the interface that a member
implements. -/
def readPathEnd : Nat → Reader Token
  | 0, _ => none
  | _ + 1, [] => none
  | fuel + 1, t :: rest =>
    if t.kind == .word then
      match sequence [maybe (typeArguments l), mark "."] rest with
      | some rest => readPathEnd fuel rest
      | none => some (t, rest)
    else none

/-- The list of base types after a colon; arguments for a base constructor are not kept. -/
def readBaseList : Reader (List String) := fun ts => do
  let rest ← mark ":" ts
  commaSeparated
    (fun ts => do
      let (base, rest) ← textOf (type l) ts
      return (base, ← maybe (arguments l) rest))
    rest

/-- What may stand between the name of a type and its body, of which the base types are kept. -/
def readTypeHead (takesParameters : Bool) (ts : List Token) : List String × List Token :=
  let clause : Reader (List String) := fun ts =>
    match typeParameters l ts with
    | some rest => some ([], rest)
    | none =>
      match readBaseList l ts with
      | some result => some result
      | none =>
        if takesParameters then (parameters l ts).map fun rest => ([], rest) else none
  let (bases, rest) := many clause ts
  (bases.getLastD [], (constraints l rest).getD rest)

/-! ## Members -/

/-- A closing brace, and a semicolon if one follows at once. -/
def bodyEnd : Recogniser := sequence [closeBrace, maybe (adjacentMark ";")]

/-- The members of a declaration in their braces. -/
def readBody (inner : Reader (List Node)) : Reader (List Node) := fun ts => do
  let rest ← openBrace ts
  let (members, rest) ← inner rest
  let rest ← bodyEnd rest
  return (members, rest)

/-- The members of a declaration in their braces, or a semicolon in their place. -/
def readBodyOrNone (inner : Reader (List Node)) : Reader (List Node) := fun ts =>
  match mark ";" ts with
  | some rest => some ([], rest)
  | none => readBody inner ts

/-- A type with a keyword, a name, clauses and members. -/
def readTypeAfterKeyword (inner : Reader (List Node)) (kind : TypeKind) : Reader Node := fun ts => do
  let rest ← declaredName ts
  let (_, rest) := readTypeHead l true rest
  let (members, rest) ← readBodyOrNone inner rest
  return (.typeDeclaration kind members, rest)

/-- An interface after its keyword. -/
def readInterface (inner : Reader (List Node)) : Reader Node := fun ts => do
  let (name, rest) ← textOf declaredName ts
  let (bases, rest) := readTypeHead l false rest
  let (members, rest) ← readBodyOrNone inner rest
  return (.interfaceBlock name bases members, rest)

/-- An enumeration after its keyword. -/
def readEnum : Reader Node := fun ts => do
  let rest ← declaredName ts
  let (_, rest) := readTypeHead l false rest
  let constant := sequence [attributes l, declaredName, maybe (sequence [mark "=", expression l])]
  let rest ← sequence [openBrace, looseCommaList constant, bodyEnd] rest
  return (.typeDeclaration .enumType [], rest)

/-- A delegate after its keyword. -/
def readDelegate : Reader Node := fun ts => do
  let rest ← sequence
    [type l, declaredName, maybe (typeParameters l), parameters l, constraints l, mark ";"] ts
  return (.typeDeclaration .delegateType [], rest)

/-- A type after its attributes and modifiers. -/
def readType (inner : Reader (List Node)) : Reader Node := fun ts =>
  let after := fun (keywords : List String) => sequence (keywords.map word) ts
  match after ["interface"] with
  | some rest => readInterface l inner rest
  | none =>
  match after ["class"] with
  | some rest => readTypeAfterKeyword l inner .classType rest
  | none =>
  match choice [sequence [maybe (word "ref"), maybe (word "partial"), word "struct"]] ts with
  | some rest => readTypeAfterKeyword l inner .structType rest
  | none =>
  match after ["enum"] with
  | some rest => readEnum l rest
  | none =>
  match after ["delegate"] with
  | some rest => readDelegate l rest
  | none =>
  match after ["record"] with
  | some rest =>
    readTypeAfterKeyword l inner .recordType ((wordOf ["class", "struct"] rest).getD rest)
  | none => none

/-- A namespace with its members. -/
def readNamespace (inner : Reader (List Node)) : Reader Node := fun ts => do
  let rest ← word "namespace" ts
  let (name, rest) ← textOf (qualifiedName l) rest
  let (members, rest) ← readBody inner rest
  return (.namespaceBlock name members, rest)

/-- A using directive. -/
def readUsing : Reader Node := fun ts => do
  let afterGlobal := (word "global" ts).getD ts
  let rest ← word "using" afterGlobal
  let afterStatic := (word "static" rest).getD rest
  let aliased := sequence [maybe (word "unsafe"), name, mark "=", type l, mark ";"]
  let plain := sequence [maybe (word "static"), maybe (word "unsafe"), qualifiedName l, mark ";"]
  let rest' ← choice [aliased, plain] rest
  return (.usingDirective
    ⟨Token.verbatim (Token.before ts rest'), afterGlobal.length < ts.length,
      afterStatic.length < rest.length⟩, rest')

/-- A property after its name. -/
def readPropertyEnd (attributes : List Attribute) (typeText name : String) : Reader Node := fun ts =>
  match sequence [mark "=>", expression l, mark ";"] ts with
  | some rest => some (.property ⟨name, typeText, attributes, []⟩, rest)
  | none => do
    let (accessors, rest) ← readAccessors l ts
    let value := sequence [mark "=", choice [expression l], mark ";"]
    return (.property ⟨name, typeText, attributes, accessors⟩, (value rest).getD rest)

/-- A method after its name. -/
def readMethodEnd (returnType name : String) : Reader Node := fun ts => do
  let rest ← maybe (typeParameters l) ts
  let (parameters, rest) ← readParameters l rest
  let rest ← sequence [constraints l, functionBody l] rest
  return (.method ⟨name, returnType, parameters⟩, rest)

/-- Operators that can be declared. -/
def declaredOperator : Recogniser :=
  choice
    [rightShift, sequence [mark ">", adjacentMark "="],
     markOf ["==", "!=", "<=", "<<", "++", "--", "+", "-", "*", "/", "%", "&", "|", "^", "!", "~", "<",
       ">"],
     wordOf ["true", "false"]]

/-- A member that is neither a property nor a method. -/
def otherMember : Recogniser := fun ts =>
  let accessorsOrEnd := choice [mark ";", fun ts => (readAccessors l ts).map (·.2)]
  let pathEnd := fun ts => (readPathEnd l ts.length ts).map (·.2)
  choice
    [sequence [word "event", type l, separated (mark ",") (declarator l), mark ";"],
     sequence [word "event", type l, pathEnd, accessorsOrEnd],
     sequence
       [wordOf ["implicit", "explicit"], repeated (sequence [name, mark "."]), word "operator",
        maybe (word "checked"), type l, parameters l, functionBody l],
     sequence [mark "~", declaredName, parameters l, functionBody l],
     sequence
       [declaredName, parameters l,
        maybe (sequence [mark ":", wordOf ["base", "this"], arguments l]), functionBody l],
     sequence
       [type l, repeated (sequence [name, maybe (typeArguments l), mark "."]), word "operator",
        maybe (word "checked"), declaredOperator, parameters l, functionBody l],
     sequence
       [type l, repeated (sequence [name, maybe (typeArguments l), mark "."]), word "this",
        bracketedParameters l,
        choice [sequence [mark "=>", expression l, mark ";"],
          fun ts => (readAccessors l ts).map (·.2)]],
     sequence [type l, separated (mark ",") (declarator l), mark ";"]] ts

/-- A property or a method, whose type and name come first. -/
def readTypedMember (attributes : List Attribute) : Reader Node := fun ts => do
  let (typeText, rest) ← textOf (type l) ts
  let (name, rest) ← readPathEnd l rest.length rest
  if (declaredName [name]).isSome then
    match readMethodEnd l typeText name.text rest with
    | some result => some result
    | none => readPropertyEnd l attributes typeText name.text rest
  else none

/-- A member of a namespace or a type. -/
def readMember (inner : Reader (List Node)) : Reader Node := fun ts =>
  match readNamespace l inner ts with
  | some result => some result
  | none =>
  match readUsing l ts with
  | some result => some result
  | none =>
    let (attributes, rest) := readHead l ts
    match readType l inner rest with
    | some result => some result
    | none =>
    match readTypedMember l attributes rest with
    | some result => some result
    | none => (otherMember l rest).map fun rest => (.otherMember, rest)

/-- An item of the top level. -/
def readTopLevelItem (inner : Reader (List Node)) : Reader Node := fun ts =>
  match sequence [word "extern", word "alias", declaredName, mark ";"] ts with
  | some rest => some (.externAlias, rest)
  | none =>
  match readUsing l ts with
  | some result => some result
  | none =>
  match sequence
      [mark "[", wordOf ["assembly", "module"], mark ":",
       fun ts => (commaSeparated (readAttribute l) ts).map (·.2), maybe (mark ","), mark "]"] ts with
  | some rest => some (.globalAttribute, rest)
  | none =>
  match sequence [word "namespace", qualifiedName l, mark ";"] ts with
  | some rest => some (.fileScopedNamespace, rest)
  | none =>
  match readNamespace l inner ts with
  | some result => some result
  | none =>
    let (_, rest) := readHead l ts
    match readType l inner rest with
    | some result => some result
    | none => (statement l ts).map fun rest => (.globalStatement, rest)

/-! ## Items between braces and between directive lines -/

/-- Whether a token ends a row of items. -/
def endsItems (t : Token) : Bool :=
  t.kind == .stop || t.isMark "\x7d" || (t.kind == .conditional && t.text != "if")

mutual
/-- The items up to the end of a row, with the directive lines between them as nodes. -/
def readItems (item : Reader Node) : Nat → Reader (List Node)
  | 0, _ => none
  | _ + 1, [] => none
  | fuel + 1, t :: rest =>
    let lines := t.directives.map Node.directive
    if endsItems t then some (lines, t :: rest)
    else
      let one := if t.kind == .conditional then readBranch item .ifBranch fuel rest
        else item (t :: rest)
      match one with
      | none => none
      | some (node, rest) =>
        match readItems item fuel rest with
        | none => none
        | some (more, rest) => some (lines ++ node :: more, rest)

/-- A branch of a conditional group after its head, with the branches that follow, up to the end of
the group. -/
def readBranch (item : Reader Node) (kind : BranchKind) : Nat → Reader Node
  | 0, _ => none
  | fuel + 1, ts =>
    match readItems item fuel ts with
    | none => none
    | some (members, rest) =>
      match rest with
      | [] => none
      | t :: rest =>
        if t.kind != .conditional then none
        else if t.text == "endif" then some (.branch kind members, rest)
        else if kind == .elseBranch then none
        else
          let next := if t.text == "else" then BranchKind.elseBranch else .elifBranch
          match readBranch item next fuel rest with
          | none => none
          | some (node, rest) => some (.branch kind (members ++ [node]), rest)
end

/-- The members of a namespace or a type, nested at most as deep as given. -/
def readMembers : Nat → Reader (List Node)
  | 0, _ => none
  | depth + 1, ts => readItems (readMember l (readMembers depth)) (2 * ts.length + 2) ts

/-- The items of a whole source, if it is well formed. -/
def treeOfTokens? (ts : List Token) : Option (List Node) :=
  let l := Phrases.ofDepth ts.length
  match readItems (readTopLevelItem l (readMembers l ts.length)) (2 * ts.length + 2) ts with
  | some (items, [t]) => if t.kind == .stop then some items else none
  | _ => none

end PlatformClasses.Source
