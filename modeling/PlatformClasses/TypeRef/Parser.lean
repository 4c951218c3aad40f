import PlatformClasses.Fault
import PlatformClasses.Text.Blank
import PlatformClasses.Text.Letter
import PlatformClasses.TypeRef.Basic

/-!
# Reading type references

A reference is read in two steps.  `scan?` cuts the text into tokens, with white space allowed before
each; `parseTokens` builds the tree: a name, type arguments in angle brackets, `?`, and array ranks in
square brackets.  Between the brackets of a rank stand commas and white space, of which plain spaces
are dropped.
-/

namespace PlatformClasses

namespace TypeRef

/-- The tokens of a type reference. -/
inductive Token where
  | name (text : String)
  | rank (text : String)
  | less
  | greater
  | comma
  | question
deriving Repr, DecidableEq

/-- A character of a dotted name after its first. -/
def isNamePart (c : Char) : Bool :=
  Text.isWordChar c || c == '.'

/-- A character between the brackets of a rank. -/
def isRankPart (c : Char) : Bool :=
  Text.isBlank c || c == ','

/-- The text of a rank: what stands between its brackets, without plain spaces. -/
def rankOf (inner : List Char) : String :=
  String.ofList (inner.filter (· != ' '))

/-- The token at the front of the text, and what follows it. -/
def scanToken? : List Char → Option (Token × List Char)
  | [] => none
  | c :: rest =>
    if Text.isNameStart c then
      some (.name (String.ofList (c :: rest.takeWhile isNamePart)), rest.dropWhile isNamePart)
    else if c == '[' then
      match rest.dropWhile isRankPart with
      | ']' :: rest' => some (.rank (rankOf (rest.takeWhile isRankPart)), rest')
      | _ => none
    else if c == '<' then some (.less, rest)
    else if c == '>' then some (.greater, rest)
    else if c == ',' then some (.comma, rest)
    else if c == '?' then some (.question, rest)
    else none

/-- The tokens of a text of at most `fuel` tokens. -/
def scanFrom? : Nat → List Char → Option (List Token)
  | 0, cs => if cs.isEmpty then some [] else none
  | fuel + 1, cs =>
    if cs.isEmpty then some []
    else do
      let (token, rest) ← scanToken? (cs.dropWhile Text.isBlank)
      let tokens ← scanFrom? fuel rest
      return token :: tokens

/-- The tokens of a text, white space before each of them and at the end left out. -/
def scan? (text : String) : Option (List Token) :=
  let cs := Text.trimRightChars text.toList
  scanFrom? cs.length cs

/-- What can be wrong with the tokens of a reference. -/
inductive ParseError where
  /-- A name was expected. -/
  | malformed
  /-- The closing bracket of type arguments was expected. -/
  | unterminated
deriving Repr, DecidableEq

/-- The leading ranks, and what follows them. -/
def parseRanks : List Token → List String × List Token
  | .rank text :: rest =>
    let (ranks, rest') := parseRanks rest
    (text :: ranks, rest')
  | tokens => ([], tokens)

/-- A leading nullable mark, and what follows it. -/
def parseNullable : List Token → Bool × List Token
  | .question :: rest => (true, rest)
  | tokens => (false, tokens)

mutual
/-- Reads one reference of at most `fuel` tokens; gives it and the tokens after it. -/
def parseTokens : Nat → List Token → Except ParseError (TypeRef × List Token)
  | 0, _ => .error .malformed
  | fuel + 1, .name text :: rest => do
    let (arguments, rest) ← parseArguments fuel rest
    let (nullable, rest) := parseNullable rest
    let (ranks, rest) := parseRanks rest
    return (mk text arguments nullable ranks, rest)
  | _ + 1, _ => .error .malformed

/-- Reads type arguments in their brackets, if there are any. -/
def parseArguments : Nat → List Token → Except ParseError (List TypeRef × List Token)
  | 0, _ => .error .malformed
  | fuel + 1, .less :: rest => do
    let (first, rest) ← parseTokens fuel rest
    let (others, rest) ← parseMore fuel rest
    return (first :: others, rest)
  | _ + 1, tokens => .ok ([], tokens)

/-- Reads the type arguments after the first, up to the closing bracket. -/
def parseMore : Nat → List Token → Except ParseError (List TypeRef × List Token)
  | 0, _ => .error .malformed
  | fuel + 1, .comma :: rest => do
    let (next, rest) ← parseTokens fuel rest
    let (others, rest) ← parseMore fuel rest
    return (next :: others, rest)
  | _ + 1, .greater :: rest => .ok ([], rest)
  | _ + 1, _ => .error .unterminated
end

/-- Reads a type reference. -/
def parse (text : String) : Except Fault TypeRef :=
  if Text.isAllBlank text then .error (.emptyType text)
  else
    match scan? text with
    | none => .error (.malformedType text)
    | some tokens =>
      match parseTokens (2 * tokens.length + 2) tokens with
      | .ok (t, []) => .ok t
      | .ok (_, _ :: _) => .error (.malformedType text)
      | .error .malformed => .error (.malformedType text)
      | .error .unterminated => .error (.unterminatedArguments text)

end TypeRef

end PlatformClasses
