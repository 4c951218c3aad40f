import PlatformClasses.TypeRef.Parser

/-!
# The grammar of type references

    Type ::= Name ['<' Type (',' Type)* '>'] ['?'] Rank*
    Name ::= a letter of ASCII or '_', then word characters and dots
    Rank ::= '[' white space and commas ']'

White space may stand before each token and at the end of the text.

A `Derivation` is a derivation of a reference by these rules.  It is data: each of its tokens is kept as
it is written, with the white space before it, so that two derivations of one text can be told apart.
`Derivation.lexemes` is what it derives and `Derivation.tree` the reference that it stands for.  Nothing
here mentions the scanner or the parser.
-/

namespace PlatformClasses.TypeRef

/-! ## Tokens as they are written -/

/-- White space, possibly none. -/
@[ext] structure Blanks where
  chars : List Char
  areBlank : ∀ c ∈ chars, Text.isBlank c = true

/-- A dotted name. -/
@[ext] structure Name where
  first : Char
  rest : List Char
  isStart : Text.isNameStart first = true
  areParts : ∀ c ∈ rest, isNamePart c = true

/-- What stands between the brackets of a rank. -/
@[ext] structure Rank where
  inner : List Char
  areParts : ∀ c ∈ inner, isRankPart c = true

/-- A token as it is written. -/
inductive Spelling where
  | name (name : Name)
  | rank (rank : Rank)
  | less
  | greater
  | comma
  | question

namespace Spelling

/-- The characters of a token. -/
def chars : Spelling → List Char
  | name n => n.first :: n.rest
  | rank r => '[' :: (r.inner ++ [']'])
  | less => ['<']
  | greater => ['>']
  | comma => [',']
  | question => ['?']

/-- The token that is written. -/
@[simp] def token : Spelling → Token
  | name n => .name (String.ofList (n.first :: n.rest))
  | rank r => .rank (rankOf r.inner)
  | less => .less
  | greater => .greater
  | comma => .comma
  | question => .question

/-- Whether the token is a name. -/
def isName : Spelling → Bool
  | name _ => true
  | _ => false

end Spelling

/-- A token with the white space before it. -/
structure Lexeme where
  before : Blanks
  spelling : Spelling

/-- The characters of a token and of the white space before it. -/
def Lexeme.chars (l : Lexeme) : List Char := l.before.chars ++ l.spelling.chars

/-- The token of a lexeme. -/
def Lexeme.token (l : Lexeme) : Token := l.spelling.token

@[simp] theorem Lexeme.token_mk (before : Blanks) (s : Spelling) :
    Lexeme.token ⟨before, s⟩ = s.token := rfl

/-- Whether a lexeme is that of a name. -/
def Lexeme.isName (l : Lexeme) : Bool := l.spelling.isName

/-- The characters of several lexemes. -/
def charsOf (ls : List Lexeme) : List Char := ls.flatMap Lexeme.chars

/-! ## Derivations -/

mutual
/-- A derivation of a reference. -/
inductive Derivation where
  | mk (before : Blanks) (name : Name) (arguments : Arguments) (question : Option Blanks)
      (ranks : List (Blanks × Rank))

/-- A derivation of type arguments in their brackets, if there are any. -/
inductive Arguments where
  | none
  | some (before : Blanks) (first : Derivation) (more : MoreArguments)

/-- A derivation of the type arguments after the first, up to the closing bracket. -/
inductive MoreArguments where
  | close (before : Blanks)
  | comma (before : Blanks) (next : Derivation) (more : MoreArguments)
end

/-- The lexeme of a nullable mark, if there is one. -/
def questionLexemes (question : Option Blanks) : List Lexeme :=
  question.toList.map fun before => ⟨before, .question⟩

/-- The lexemes of ranks. -/
def rankLexemes (ranks : List (Blanks × Rank)) : List Lexeme :=
  ranks.map fun r => ⟨r.1, .rank r.2⟩

mutual
/-- What is derived, token by token. -/
def Derivation.lexemes : Derivation → List Lexeme
  | .mk before name arguments question ranks =>
    ⟨before, .name name⟩ ::
      (arguments.lexemes ++ (questionLexemes question ++ rankLexemes ranks))

/-- The tokens of type arguments. -/
def Arguments.lexemes : Arguments → List Lexeme
  | .none => []
  | .some before first more => ⟨before, .less⟩ :: (first.lexemes ++ more.lexemes)

/-- The tokens of the type arguments after the first. -/
def MoreArguments.lexemes : MoreArguments → List Lexeme
  | .close before => [⟨before, .greater⟩]
  | .comma before next more => ⟨before, .comma⟩ :: (next.lexemes ++ more.lexemes)
end

mutual
/-- The reference that a derivation stands for: its name, its arguments in order, whether it has a
nullable mark, and one rank for each that is derived. -/
def Derivation.tree : Derivation → TypeRef
  | .mk _ name arguments question ranks =>
    .mk (String.ofList (name.first :: name.rest)) arguments.trees question.isSome
      (ranks.map fun r => rankOf r.2.inner)

/-- The references that type arguments stand for. -/
def Arguments.trees : Arguments → List TypeRef
  | .none => []
  | .some _ first more => first.tree :: more.trees

/-- The references that the type arguments after the first stand for. -/
def MoreArguments.trees : MoreArguments → List TypeRef
  | .close _ => []
  | .comma _ next more => next.tree :: more.trees
end

/-- A derivation of a whole text: of a reference, with white space at the end. -/
structure TextDerivation where
  type : Derivation
  trailing : Blanks

/-- The characters of the text that is derived. -/
def TextDerivation.chars (d : TextDerivation) : List Char :=
  charsOf d.type.lexemes ++ d.trailing.chars

/-- The text that is derived. -/
def TextDerivation.text (d : TextDerivation) : String := String.ofList d.chars

/-- The reference that the derivation of a text stands for. -/
def TextDerivation.tree (d : TextDerivation) : TypeRef := d.type.tree

end PlatformClasses.TypeRef
