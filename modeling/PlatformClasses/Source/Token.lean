/-!
# Tokens of a source text

A token carries what stands before it: white space, comments and the directive lines that may stand
anywhere.  So the verbatim text of any run of tokens can be given back, which is how types, names and
attribute arguments are taken from a source.
-/

namespace PlatformClasses.Source

/-- Directive lines that may stand between any two tokens. -/
inductive DirectiveKind where
  | region
  | endRegion
  | line
  | pragma
  | nullable
  | error
  | warning
  | define
  | undefine
  | shebang
deriving Repr, DecidableEq

/-- What may stand between two tokens. -/
inductive TriviaKind where
  | blank
  | comment
  | directive (kind : DirectiveKind)
deriving Repr, DecidableEq

/-- A piece of text between two tokens. -/
structure Trivia where
  kind : TriviaKind
  text : String
deriving Repr, DecidableEq

/-- The kinds of tokens. -/
inductive TokenKind where
  /-- An identifier or keyword. -/
  | word
  /-- A number. -/
  | number
  /-- A character or a text in quotes. -/
  | quoted
  /-- Punctuation or an operator. -/
  | mark
  /-- The head of a conditional group of lines, with its condition or without one. -/
  | conditional
  /-- The end of the source. -/
  | stop
deriving Repr, DecidableEq

/-- A token with what stands before it. -/
structure Token where
  lead : List Trivia
  kind : TokenKind
  text : String
deriving Repr, DecidableEq

namespace Token

/-- What stands before a token, as text. -/
def leadText (t : Token) : String :=
  t.lead.foldr (fun piece rest => piece.text ++ rest) ""

/-- The directive lines that stand before a token. -/
def directives (t : Token) : List DirectiveKind :=
  t.lead.filterMap fun piece =>
    match piece.kind with
    | .directive kind => some kind
    | _ => none

/-- Whether nothing stands between a token and the one before it. -/
def isAdjacent (t : Token) : Bool := t.lead.isEmpty

/-- Whether a token is the given word. -/
def isWord (t : Token) (text : String) : Bool := t.kind == .word && t.text == text

/-- Whether a token is the given mark. -/
def isMark (t : Token) (text : String) : Bool := t.kind == .mark && t.text == text

/-- The text of tokens that follow others, with what stands before each. -/
def textAfter : List Token → String
  | [] => ""
  | t :: rest => t.leadText ++ t.text ++ textAfter rest

/-- The verbatim text from the first to the last of the tokens. -/
def verbatim : List Token → String
  | [] => ""
  | t :: rest => t.text ++ textAfter rest

/-- The tokens of `all` that come before its end part `rest`. -/
def before (all rest : List Token) : List Token :=
  all.take (all.length - rest.length)

end Token

end PlatformClasses.Source
