import PlatformClasses.Source.Recogniser

/-!
# Types, expressions and statements

Of types, expressions, patterns and statements a declaration only keeps the text, so they are
recognised and not built.  The grammar is given by levels of nesting: the phrases of one level contain
those of the level below, and the lowest level has no phrases.  Since every nested phrase lies between
tokens of the one around it, a level per token is enough.
-/

namespace PlatformClasses.Source

open Recogniser

/-- The nested phrases of one level. -/
structure Phrases where
  type : Recogniser
  expression : Recogniser
  pattern : Recogniser
  statement : Recogniser

namespace Phrase

/-! ## Words -/

/-- The names of built-in types. -/
def builtInTypes : List String :=
  ["bool", "byte", "char", "decimal", "double", "float", "int", "long", "nint", "nuint", "object",
   "sbyte", "short", "string", "uint", "ulong", "ushort", "void"]

/-- Words that are never names in types and expressions. -/
def reservedWords : List String :=
  ["abstract", "as", "base", "break", "case", "catch", "checked", "class", "const", "continue",
   "default", "delegate", "do", "else", "enum", "event", "explicit", "extern", "false", "finally",
   "fixed", "for", "foreach", "goto", "if", "implicit", "in", "interface", "internal", "is", "lock",
   "namespace", "new", "null", "operator", "out", "override", "params", "private", "protected",
   "public", "readonly", "ref", "return", "sealed", "sizeof", "stackalloc", "static", "struct",
   "switch", "this", "throw", "true", "try", "typeof", "unchecked", "unsafe", "using", "virtual",
   "volatile", "while"] ++ builtInTypes

/-- Modifiers of declarations. -/
def modifierWords : List String :=
  ["abstract", "const", "extern", "fixed", "internal", "new", "override", "private", "protected",
   "public", "readonly", "sealed", "static", "unsafe", "virtual", "volatile"]

/-- Words that are modifiers only before another word. -/
def softModifierWords : List String := ["async", "file", "partial", "required"]

/-- The opening brace. -/
def openBrace : Recogniser := mark "\x7b"

/-- The closing brace. -/
def closeBrace : Recogniser := mark "\x7d"

/-- A word that can be a name in a type or expression. -/
def name : Recogniser := token fun t => t.kind == .word && !reservedWords.contains t.text

/-- A word where only the name of something declared can stand. -/
def declaredName : Recogniser :=
  token fun t => t.kind == .word && !(["this", "operator"].contains t.text) &&
    !builtInTypes.contains t.text

/-- A modifier. -/
def modifier : Recogniser :=
  choice
    [wordOf modifierWords,
     sequence [wordOf softModifierWords, ahead (token (·.kind == .word))]]

/-- An operator that may be declared or stand between operands and begins with a bracket to the
right. -/
def rightShift : Recogniser :=
  choice
    [sequence [mark ">", adjacentMark ">", adjacentMark ">"], sequence [mark ">", adjacentMark ">"]]

variable (l : Phrases)

/-! ## Types -/

/-- Type arguments in their brackets; they may be left out and only counted. -/
def typeArguments : Recogniser := fun ts =>
  sequence
    [mark "<", choice [sequence [separated (mark ",") l.type, mark ">"],
      sequence [repeated (mark ","), mark ">"]]] ts

/-- A name, perhaps with type arguments. -/
def simpleName : Recogniser := fun ts => sequence [name, maybe (typeArguments l)] ts

/-- A dotted name, perhaps with an alias in front. -/
def qualifiedName : Recogniser := fun ts =>
  sequence
    [maybe (sequence [name, mark "::"]), simpleName l,
     repeated (sequence [mark ".", simpleName l])] ts

/-- Brackets of an array, perhaps with sizes. -/
def arrayRank : Recogniser := fun ts =>
  sequence
    [mark "[", maybe l.expression, repeated (sequence [mark ",", maybe l.expression]),
     mark "]"] ts

/-- A tuple type of two elements or more. -/
def tupleType : Recogniser := fun ts =>
  let element := sequence [l.type, maybe declaredName]
  sequence [mark "(", element, repeatedOnce (sequence [mark ",", element]), mark ")"] ts

/-- A function pointer type. -/
def functionPointer : Recogniser := fun ts =>
  let parameter := sequence [maybe (wordOf ["ref", "out", "in", "readonly"]), l.type]
  sequence
    [word "delegate", mark "*", maybe (wordOf ["managed", "unmanaged"]), mark "<",
     separated (mark ",") parameter, mark ">"] ts

/-- A type without the marks that may follow it. -/
def typeHead : Recogniser := fun ts =>
  choice [functionPointer l, tupleType l, wordOf builtInTypes, qualifiedName l] ts

/-- A type. -/
def type : Recogniser := fun ts =>
  choice
    [sequence [word "ref", maybe (word "readonly"), l.type],
     sequence [typeHead l, repeated (choice [mark "?", mark "*", arrayRank l])]] ts

/-- A type whose arrays have no sizes. -/
def unsizedType : Recogniser := fun ts =>
  let rank := sequence [mark "[", repeated (mark ","), mark "]"]
  sequence [typeHead l, repeated (choice [mark "?", mark "*", rank])] ts

/-- A type after which a question mark belongs to the expression around it. -/
def typeInExpression : Recogniser := fun ts =>
  sequence
    [typeHead l, repeated (arrayRank l),
     maybe (sequence
       [mark "?", ahead (choice [markOf [")", "]", "\x7d", ";", ",", "&&", "||", "=>"]])])] ts

/-! ## Attributes and parameters -/

/-- An argument of an attribute, perhaps with the name it is given to. -/
def attributeArgument : Recogniser := fun ts =>
  sequence [maybe (sequence [name, markOf [":", "="]]), l.expression] ts

/-- The arguments of an attribute, in their brackets. -/
def attributeArguments : Recogniser := fun ts =>
  sequence [mark "(", commaList (attributeArgument l), mark ")"] ts

/-- The target that an attribute may be given for. -/
def attributeTarget : Recogniser :=
  sequence [wordOf ["field", "event", "method", "param", "property", "return", "type"], mark ":"]

/-- Attributes in their brackets. -/
def attributeList : Recogniser := fun ts =>
  let single := sequence [qualifiedName l, maybe (attributeArguments l)]
  sequence
    [mark "[", maybe attributeTarget, separated (mark ",") single, maybe (mark ","),
     mark "]"] ts

/-- Attributes. -/
def attributes : Recogniser := fun ts => repeated (attributeList l) ts

/-- The modifiers of a parameter. -/
def parameterModifiers : Recogniser := fun ts =>
  repeated
    (choice
      [wordOf ["ref", "out", "in", "this", "readonly"],
       sequence [word "scoped", ahead (sequence [l.type, declaredName])]]) ts

/-- A parameter: its type may be missing. -/
def parameter : Recogniser := fun ts =>
  let named := choice [sequence [parameterModifiers l, l.type, declaredName], declaredName]
  sequence
    [attributes l,
     choice [sequence [word "params", l.type, declaredName],
       sequence [named, maybe (sequence [mark "=", l.expression])]]] ts

/-- Parameters in round brackets. -/
def parameters : Recogniser := fun ts =>
  sequence [mark "(", commaList (parameter l), mark ")"] ts

/-- Parameters in square brackets. -/
def bracketedParameters : Recogniser := fun ts =>
  sequence [mark "[", separated (mark ",") (parameter l), mark "]"] ts

/-- Type parameters in their brackets. -/
def typeParameters : Recogniser := fun ts =>
  sequence
    [mark "<",
     separated (mark ",") (sequence [attributes l, maybe (wordOf ["in", "out"]), declaredName]),
     mark ">"] ts

/-- A constraint on a type parameter. -/
def constraint : Recogniser := fun ts =>
  choice
    [sequence [wordOf ["class", "struct"], maybe (mark "?")],
     sequence [word "new", mark "(", mark ")"],
     sequence [word "allows", word "ref", word "struct"], word "default", l.type] ts

/-- The constraints on type parameters. -/
def constraints : Recogniser := fun ts =>
  repeated (sequence [word "where", declaredName, mark ":", separated (mark ",") (constraint l)]) ts

/-! ## Expressions -/

/-- An argument of a call. -/
def argument : Recogniser := fun ts =>
  sequence
    [maybe (sequence [name, mark ":"]), maybe (wordOf ["ref", "out", "in"]),
     choice
       [sequence [unsizedType l, declaredName, ahead (markOf [",", ")", "]"])], l.expression]] ts

/-- The arguments of a call, in round brackets. -/
def arguments : Recogniser := fun ts =>
  sequence [mark "(", commaList (argument l), mark ")"] ts

/-- The arguments of an element access, in square brackets. -/
def bracketedArguments : Recogniser := fun ts =>
  sequence [mark "[", separated (mark ",") (argument l), mark "]"] ts

/-- Statements in braces. -/
def block : Recogniser := fun ts =>
  sequence [openBrace, repeated l.statement, closeBrace] ts

/-- The elements of an object or an array in braces. -/
def initialiser : Recogniser := fun ts =>
  sequence [openBrace, looseCommaList l.expression, closeBrace] ts

/-- Type arguments in an expression: only where what follows cannot go on with an operand. -/
def argumentsOfGeneric : Recogniser := fun ts =>
  sequence
    [typeArguments l,
     ahead (choice
       [markOf ["(", ")", "]", "\x7d", ":", ";", ",", ".", "?", "==", "!=", "|", "^", "&&", "||", "&",
          "[", "=>", "\x7b"],
        token (·.kind == .stop)])] ts

/-- A function written as an expression. -/
def lambda : Recogniser := fun ts =>
  sequence
    [attributes l, repeated (wordOf ["async", "static"]),
     choice
       [parameters l, sequence [name, ahead (mark "=>")],
        sequence [unsizedType l, parameters l]],
     mark "=>", choice [block l, l.expression]] ts

/-- A function written with a keyword. -/
def anonymousMethod : Recogniser := fun ts =>
  sequence
    [repeated (wordOf ["async", "static"]), word "delegate", maybe (parameters l), block l] ts

/-- A new object, array or anonymous value. -/
def creation : Recogniser := fun ts =>
  choice
    [sequence [word "new", arguments l, maybe (initialiser l)],
     sequence [word "new", mark "[", repeated (mark ","), mark "]", initialiser l],
     sequence [word "new", initialiser l],
     sequence [word "new", l.type, maybe (arguments l), maybe (initialiser l)],
     sequence [word "stackalloc", maybe l.type, maybe (initialiser l)],
     sequence [word "stackalloc", mark "[", mark "]", initialiser l]] ts

/-- An operation on a type in brackets. -/
def typeOperation : Recogniser := fun ts =>
  choice
    [sequence [wordOf ["typeof", "sizeof", "default", "__reftype"], mark "(", l.type, mark ")"],
     word "default"] ts

/-- A bracketed expression, a tuple or a list of declared variables. -/
def bracketed : Recogniser := fun ts =>
  sequence [mark "(", separated (mark ",") (argument l), mark ")"] ts

/-- A type in brackets before an operand. -/
def cast : Recogniser := fun ts =>
  choice
    [sequence
       [mark "(", l.type, mark ")",
        ahead (choice
          [token fun t => t.kind == .number || t.kind == .quoted ||
             (t.kind == .word && !(["is", "as", "in", "and", "or", "switch", "with"].contains t.text)),
           markOf ["(", "!", "~"]])],
     sequence
       [mark "(", wordOf builtInTypes, mark ")",
        ahead (markOf ["+", "-", "&", "*", "++", "--", "^"])]] ts

/-- A list of elements in square brackets. -/
def collection : Recogniser := fun ts =>
  sequence
    [mark "[", looseCommaList (sequence [maybe (mark ".."), l.expression]), mark "]"] ts

/-- A query. -/
def query : Recogniser := fun ts =>
  let source := sequence [word "from", maybe (sequence [l.type, ahead name]), name, word "in",
    l.expression]
  let join := sequence [word "join", maybe (sequence [l.type, ahead name]), name, word "in",
    l.expression, word "on", l.expression, word "equals", l.expression,
    maybe (sequence [word "into", name])]
  let clause := choice
    [source, join, sequence [word "let", name, mark "=", l.expression],
     sequence [word "where", l.expression],
     sequence [word "orderby", separated (mark ",")
       (sequence [l.expression, maybe (wordOf ["ascending", "descending"])])],
     sequence [word "select", l.expression],
     sequence [word "group", l.expression, word "by", l.expression],
     sequence [word "into", name]]
  sequence [source, repeatedOnce clause] ts

/-- A literal. -/
def literal : Recogniser :=
  choice
    [token (·.kind == .number),
     sequence
       [token (·.kind == .quoted),
        maybe (token fun t => t.kind == .word && t.isAdjacent && ["u8", "U8"].contains t.text)],
     wordOf ["true", "false", "null"]]

/-- An operand without what is applied to it. -/
def primary : Recogniser := fun ts =>
  choice
    [anonymousMethod l, query l, literal, creation l, typeOperation l,
     sequence [wordOf ["checked", "unchecked"], mark "(", l.expression, mark ")"],
     wordOf ["this", "base"], wordOf builtInTypes,
     sequence [name, mark "::", name], sequence [name, argumentsOfGeneric l], name,
     bracketed l, collection l] ts

/-- A member that is selected. -/
def selectedName : Recogniser := fun ts =>
  choice [sequence [name, argumentsOfGeneric l], token (·.kind == .word)] ts

/-- The arms of a choice between patterns. -/
def arms : Recogniser := fun ts =>
  sequence
    [openBrace,
     looseCommaList (sequence
       [l.pattern, maybe (sequence [word "when", l.expression]), mark "=>", l.expression]),
     closeBrace] ts

/-- What is applied to an operand. -/
def suffix : Recogniser := fun ts =>
  choice
    [arguments l, bracketedArguments l, sequence [mark ".", selectedName l],
     sequence [mark "->", name], sequence [mark "?", mark ".", selectedName l],
     sequence [mark "?", bracketedArguments l, notAhead (mark ":")], markOf ["++", "--"],
     sequence [mark "!", notAhead (sequence [adjacentMark "="])],
     sequence [word "switch", arms l], sequence [word "with", initialiser l]] ts

/-- What may precede an operand. -/
def leadOperator : Recogniser := fun ts =>
  choice
    [markOf ["+", "-", "!", "~", "++", "--", "&", "*", "^", ".."], cast l,
     sequence [word "await", ahead (choice [token (·.kind == .word), mark "("])],
     wordOf ["throw", "ref"]] ts

/-- An operand with everything that is applied to it. -/
def operand : Recogniser := fun ts =>
  sequence
    [repeated (leadOperator l),
     choice [lambda l, sequence [primary l, repeated (suffix l)]]] ts

/-- An operator between two operands, with the second of them. -/
def continuation : Recogniser := fun ts =>
  let operators := choice
    [markOf ["??=", "<<=", "==", "!=", "<=", "<<", "&&", "||", "??", "+=", "-=", "*=", "/=", "%=",
       "&=", "|=", "^=", "=", "+", "-", "*", "/", "%", "&", "|", "^", "<"],
     sequence [rightShift, maybe (adjacentMark "=")],
     sequence [mark ">", maybe (adjacentMark "=")]]
  choice
    [sequence [word "is", l.pattern], sequence [word "as", typeInExpression l],
     sequence [mark "..", maybe (operand l)],
     sequence [mark "?", l.expression, mark ":", l.expression],
     sequence [operators, choice [operand l, initialiser l]]] ts

/-- An expression; an array or object in braces also stands for one where an element is wanted. -/
def expression : Recogniser := fun ts =>
  choice
    [sequence [operand l, repeated (continuation l)],
     sequence [mark "..", ahead (markOf ["]", ")"])], initialiser l] ts

/-! ## Patterns -/

/-- The name, or the names in brackets, that a pattern gives to what it matches. -/
def designation : Recogniser := fun ts =>
  choice
    [sequence
       [token fun t => t.kind == .word && !reservedWords.contains t.text &&
          !(["and", "or", "when"].contains t.text)],
     sequence [mark "(", commaList (sequence [maybe (word "var"), name]), mark ")"]] ts

/-- The properties that a pattern asks for, in braces. -/
def propertyPattern : Recogniser := fun ts =>
  let sub := sequence
    [maybe (sequence [name, repeated (sequence [mark ".", name]), mark ":"]), l.pattern]
  sequence [openBrace, looseCommaList sub, closeBrace] ts

/-- The parts that a pattern asks for, in brackets. -/
def positionalPattern : Recogniser := fun ts =>
  let sub := sequence [maybe (sequence [name, mark ":"]), l.pattern]
  sequence [mark "(", commaList sub, mark ")"] ts

/-- A pattern without connectives. -/
def simplePattern : Recogniser := fun ts =>
  let shape := choice
    [sequence [positionalPattern l, maybe (propertyPattern l)], propertyPattern l]
  let noOperator := ahead (choice
    [markOf [")", "]", "\x7d", ";", ",", ":", "?", "&&", "||", "=>", "==", "!="],
     wordOf ["and", "or", "when"], token (·.kind == .stop)])
  choice
    [sequence [word "var", designation, noOperator],
     sequence [shape, maybe (designation)],
     sequence [mark "[", looseCommaList l.pattern, mark "]", maybe (designation)],
     sequence [mark "..", maybe l.pattern],
     sequence [choice [markOf ["<", "<="], sequence [mark ">", maybe (adjacentMark "=")]],
       operand l],
     sequence [typeInExpression l, maybe shape, maybe (designation), noOperator],
     sequence [operand l, repeated (sequence [markOf ["+", "-", "*", "/", "|", "&", "<<"], operand l])]]
    ts

/-- A pattern. -/
def pattern : Recogniser := fun ts =>
  separated (wordOf ["and", "or"]) (sequence [repeated (word "not"), simplePattern l]) ts

/-! ## Statements -/

/-- What a declared function or accessor does. -/
def functionBody : Recogniser := fun ts =>
  choice [mark ";", block l, sequence [mark "=>", l.expression, mark ";"]] ts

/-- A variable with its value. -/
def declarator : Recogniser := fun ts =>
  sequence
    [declaredName, maybe (bracketedArguments l),
     maybe (sequence [mark "=", choice [initialiser l, l.expression]])] ts

/-- Variables of one type. -/
def declarators : Recogniser := fun ts =>
  choice
    [sequence [l.type, separated (mark ",") (declarator l)],
     sequence [word "var", designation, mark "=", l.expression]] ts

/-- The operators of an assignment. -/
def assignmentOperator : Recogniser :=
  choice
    [markOf ["=", "??=", "<<=", "+=", "-=", "*=", "/=", "%=", "&=", "|=", "^="],
     sequence [rightShift, adjacentMark "="]]

/-- Whether an operand can be a statement: a call, a step up or down, a wait or a new object. -/
def isEffect (tokens : List Token) : Bool :=
  (match tokens.head? with
    | some t => t.isWord "new" || t.isWord "await" || t.isMark "++" || t.isMark "--"
    | none => false) ||
  (match tokens.getLast? with
    | some t => t.isMark ")" || t.isMark "++" || t.isMark "--"
    | none => false)

/-- An expression that is a statement: an assignment, or an operand with an effect. -/
def expressionStatement : Recogniser := fun ts =>
  match operand l ts with
  | none => none
  | some rest =>
    match sequence [assignmentOperator, l.expression, mark ";"] rest with
    | some rest' => some rest'
    | none => if isEffect (Token.before ts rest) then mark ";" rest else none

/-- A statement inside or outside of braces. -/
def simpleStatement : Recogniser := fun ts =>
  let condition := sequence [mark "(", l.expression, mark ")"]
  let resource := choice [declarators l, l.expression]
  choice
    [block l, mark ";",
     sequence [word "if", condition, l.statement, maybe (sequence [word "else", l.statement])],
     sequence [word "while", condition, l.statement],
     sequence [word "do", l.statement, word "while", condition, mark ";"],
     sequence
       [word "for", mark "(", maybe (choice [declarators l, separated (mark ",") l.expression]),
        mark ";", maybe l.expression, mark ";", commaList l.expression, mark ")", l.statement],
     sequence
       [maybe (word "await"), word "foreach", mark "(",
        choice [sequence [l.type, declaredName], sequence [maybe (word "var"), designation]],
        word "in", l.expression, mark ")", l.statement],
     sequence
       [word "switch", choice [condition, bracketed l], openBrace,
        repeated (sequence
          [repeatedOnce (choice
             [sequence [word "case", l.pattern, maybe (sequence [word "when", l.expression]),
                mark ":"],
              sequence [word "default", mark ":"]]),
           repeated (sequence [notAhead (sequence [word "default", mark ":"]), l.statement])]),
        closeBrace],
     sequence [word "return", maybe l.expression, mark ";"],
     sequence [word "throw", maybe l.expression, mark ";"],
     sequence [wordOf ["break", "continue"], mark ";"],
     sequence [word "yield", choice [word "break", sequence [word "return", l.expression]], mark ";"],
     sequence
       [word "goto",
        choice [sequence [word "case", l.expression], word "default", name], mark ";"],
     sequence
       [word "try", block l,
        repeated (sequence
          [word "catch", maybe (sequence [mark "(", l.type, maybe declaredName, mark ")"]),
           maybe (sequence [word "when", condition]), block l]),
        maybe (sequence [word "finally", block l])],
     sequence [word "lock", condition, l.statement],
     sequence [maybe (word "await"), word "using", mark "(", resource, mark ")", l.statement],
     sequence [word "fixed", mark "(", declarators l, mark ")", l.statement],
     sequence [word "unsafe", block l],
     sequence [wordOf ["checked", "unchecked"], block l],
     sequence [name, mark ":", l.statement]] ts

/-- A function declared among statements. -/
def localFunction : Recogniser := fun ts =>
  sequence
    [attributes l, repeated modifier, l.type, declaredName, maybe (typeParameters l), parameters l,
     constraints l, functionBody l] ts

/-- Variables declared among statements. -/
def localVariables : Recogniser := fun ts =>
  sequence
    [maybe (word "await"), maybe (word "using"), repeated modifier, declarators l, mark ";"] ts

/-- A conditional group of statements. -/
def conditionalStatements : Recogniser := fun ts =>
  let head := fun (text : String) => token fun t => t.kind == .conditional && t.text == text
  sequence
    [head "if", repeated l.statement,
     repeated (sequence [choice [head "elif", head "else"], repeated l.statement]),
     head "endif"] ts

/-- A statement. -/
def statement : Recogniser := fun ts =>
  choice
    [simpleStatement l, conditionalStatements l, localFunction l, localVariables l,
     expressionStatement l] ts

end Phrase

namespace Phrases

/-- The level without phrases. -/
def none : Phrases :=
  ⟨fun _ => .none, fun _ => .none, fun _ => .none, fun _ => .none⟩

/-- The phrases that may contain those of a level. -/
def above (l : Phrases) : Phrases :=
  ⟨Phrase.type l, Phrase.expression l, Phrase.pattern l, Phrase.statement l⟩

/-- The phrases of a depth of nesting. -/
def ofDepth : Nat → Phrases
  | 0 => none
  | n + 1 => (ofDepth n).above

end Phrases

end PlatformClasses.Source
