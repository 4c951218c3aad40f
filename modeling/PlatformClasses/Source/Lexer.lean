import PlatformClasses.Source.Token
import PlatformClasses.Text.Letter

/-!
# Cutting a source text into tokens

`tokens?` gives the tokens of a text, or nothing where some character belongs to no token, a comment or
a quoted text is not closed, or a directive line is malformed.

Angle brackets to the right are always tokens of their own, since type arguments may end in several of
them; operators that begin with one are put together by the grammar.
-/

namespace PlatformClasses.Source

/-- White space between tokens: that of ASCII, the no-break space, the byte order mark and the
ideographic space. -/
def isSpace (c : Char) : Bool :=
  let n := c.toNat
  (0x09 ≤ n && n ≤ 0x0d) || n == 0x20 || n == 0xa0 || n == 0xfeff || n == 0x3000

/-- A character of a line. -/
def isLineChar (c : Char) : Bool :=
  c != '\n' && c != '\r'

/-- Hexadecimal digits. -/
def isHexDigit (c : Char) : Bool :=
  Text.isAsciiDigit c || ('a' ≤ c && c ≤ 'f') || ('A' ≤ c && c ≤ 'F')

/-- Marks of several characters, longer ones before their beginnings. -/
def longMarks : List String :=
  ["??=", "<<=", "=>", "==", "!=", "<=", "<<", "&&", "||", "??", "+=", "-=", "*=", "/=", "%=", "&=",
   "|=", "^=", "++", "--", "->", "::", ".."]

/-- Marks of one character. -/
def shortMarks : List Char :=
  ['\x7b', '\x7d', '(', ')', '[', ']', '<', '>', ';', ',', ':', '.', '=', '?', '!', '~', '+', '-', '*',
   '/', '%', '&', '|', '^']

/-- The inside of a block comment, with its end, and what follows it. -/
def blockComment : List Char → Option (List Char × List Char)
  | '*' :: '/' :: rest => some (['*', '/'], rest)
  | c :: rest => (blockComment rest).map fun (inside, after) => (c :: inside, after)
  | [] => none

/-- The characters that a backslash may precede in a quoted text. -/
def isSimpleEscape (c : Char) : Bool :=
  "abefnrtv'\"\\?0".toList.contains c

/-- Splits off exactly `n` hexadecimal digits. -/
def hexExactly : Nat → List Char → Option (List Char × List Char)
  | 0, cs => some ([], cs)
  | n + 1, c :: rest =>
    if isHexDigit c then (hexExactly n rest).map fun (ds, after) => (c :: ds, after) else none
  | _ + 1, [] => none

/-- Splits off at most `n` hexadecimal digits. -/
def hexUpTo : Nat → List Char → List Char × List Char
  | n + 1, c :: rest =>
    if isHexDigit c then
      let (ds, after) := hexUpTo n rest
      (c :: ds, after)
    else ([], c :: rest)
  | _, cs => ([], cs)

/-- What follows the backslash of an escape, and what follows the escape. -/
def escape? : List Char → Option (List Char × List Char)
  | 'u' :: rest => (hexExactly 4 rest).map fun (ds, after) => ('u' :: ds, after)
  | 'U' :: rest => (hexExactly 8 rest).map fun (ds, after) => ('U' :: ds, after)
  | 'x' :: rest =>
    let (ds, after) := hexUpTo 4 rest
    if ds.isEmpty then none else some ('x' :: ds, after)
  | c :: rest => if isSimpleEscape c then some ([c], rest) else none
  | [] => none

/-- The rest of a text in double quotes on one line, up to its closing quote. -/
def quotedText : Nat → List Char → Option (List Char × List Char)
  | 0, _ => none
  | _ + 1, [] => none
  | fuel + 1, c :: rest =>
    if c == '"' then some ([c], rest)
    else if c == '\n' then none
    else if c == '\\' then do
      let (escaped, after) ← escape? rest
      let (more, after) ← quotedText fuel after
      return (c :: escaped ++ more, after)
    else do
      let (more, after) ← quotedText fuel rest
      return (c :: more, after)

/-- The rest of a verbatim text, in which a quote is written twice, up to its closing quote. -/
def verbatimText : List Char → Option (List Char × List Char)
  | '"' :: '"' :: rest =>
    (verbatimText rest).map fun (more, after) => ('"' :: '"' :: more, after)
  | '"' :: rest => some (['"'], rest)
  | c :: rest => (verbatimText rest).map fun (more, after) => (c :: more, after)
  | [] => none

/-- The rest of a raw text, up to the given number of quotes in a row. -/
def rawText (quotes : Nat) : Nat → List Char → Option (List Char × List Char)
  | _, [] => none
  | seen, c :: rest =>
    if c == '"' then
      if seen + 1 == quotes then
        let extra := rest.takeWhile (· == '"')
        some (c :: extra, rest.dropWhile (· == '"'))
      else (rawText quotes (seen + 1) rest).map fun (more, after) => (c :: more, after)
    else (rawText quotes 0 rest).map fun (more, after) => (c :: more, after)

/-- Where in an interpolated text the scan stands. -/
inductive Interpolation where
  /-- In text; whether it is verbatim. -/
  | text (isVerbatim : Bool)
  /-- In an expression, below a number of brackets. -/
  | hole (depth : Nat)
  /-- In a plain text within an expression. -/
  | plain
  /-- Directly after a backslash in a text. -/
  | escaped
deriving Repr, DecidableEq

/-- The rest of an interpolated text.  The stack tells what the position is nested in, innermost
first; the scan ends with the text at its bottom. -/
def interpolatedText : List Interpolation → List Char → Option (List Char × List Char)
  | _, [] => none
  | [], _ => none
  | top :: stack, c :: rest =>
    let go := fun (stack : List Interpolation) =>
      (interpolatedText stack rest).map fun (more, after) => (c :: more, after)
    match top with
    | .escaped => go stack
    | .plain =>
      if c == '"' then go stack
      else if c == '\\' then go (.escaped :: top :: stack)
      else go (top :: stack)
    | .text isVerbatim =>
      if c == '"' then
        if stack.isEmpty then
          if isVerbatim && rest.head? == some '"' then go (.escaped :: top :: stack)
          else some ([c], rest)
        else go stack
      else if c == '\x7b' then
        if rest.head? == some '\x7b' then go (.escaped :: top :: stack)
        else go (.hole 0 :: top :: stack)
      else if c == '\\' && !isVerbatim then go (.escaped :: top :: stack)
      else if c == '\n' && !isVerbatim then none
      else go (top :: stack)
    | .hole depth =>
      if c == '\x7d' then
        if depth == 0 then go stack else go (.hole (depth - 1) :: stack)
      else if c == '\x7b' then go (.hole (depth + 1) :: stack)
      else if c == '"' then go (.plain :: top :: stack)
      else if c == '$' && rest.head? == some '"' then go (.escaped :: .text false :: top :: stack)
      else go (top :: stack)

/-- The inside of a character in quotes and its closing quote. -/
def quotedCharacter : List Char → Option (List Char × List Char)
  | '\\' :: rest =>
    match escape? rest with
    | some (escaped, '\'' :: after) => some ('\\' :: escaped ++ ['\''], after)
    | _ => none
  | c :: '\'' :: after =>
    if c == '\'' || c == '\n' then none else some ([c, '\''], after)
  | _ => none

/-- Digits of a base, with underscores. -/
def digitRun (isDigit : Char → Bool) (cs : List Char) : List Char × List Char :=
  (cs.takeWhile fun c => isDigit c || c == '_', cs.dropWhile fun c => isDigit c || c == '_')

/-- The exponent of a number, if there is one. -/
def exponent (cs : List Char) : List Char × List Char :=
  match cs with
  | e :: rest =>
    if e == 'e' || e == 'E' then
      let (sign, digits) :=
        match rest with
        | '+' :: r => (['+'], r)
        | '-' :: r => (['-'], r)
        | r => ([], r)
      let (ds, after) := digitRun Text.isAsciiDigit digits
      if ds.isEmpty then ([], cs) else (e :: sign ++ ds, after)
    else ([], cs)
  | [] => ([], [])

/-- The suffix of an integer or of a real number. -/
def numberSuffix (cs : List Char) : List Char × List Char :=
  match cs with
  | c :: d :: rest =>
    if "uU".toList.contains c && "lL".toList.contains d then ([c, d], rest)
    else if "lL".toList.contains c && "uU".toList.contains d then ([c, d], rest)
    else if "uUlLfFdDmM".toList.contains c then ([c], d :: rest)
    else ([], cs)
  | [c] => if "uUlLfFdDmM".toList.contains c then ([c], []) else ([], cs)
  | [] => ([], [])

/-- The number at the front of a text that begins with a digit, or with a dot and a digit. -/
def numberText (cs : List Char) : List Char × List Char :=
  match cs with
  | '0' :: x :: rest =>
    if (x == 'x' || x == 'X') && (rest.head?.map isHexDigit).getD false then
      let (ds, after) := digitRun isHexDigit rest
      let (suffix, after) := numberSuffix after
      ('0' :: x :: ds ++ suffix, after)
    else if (x == 'b' || x == 'B') && (rest.head?.map fun c => c == '0' || c == '1').getD false then
      let (ds, after) := digitRun (fun c => c == '0' || c == '1') rest
      let (suffix, after) := numberSuffix after
      ('0' :: x :: ds ++ suffix, after)
    else decimal cs
  | _ => decimal cs
where
  /-- A decimal number: digits, a fraction, an exponent and a suffix, each but the first optional. -/
  decimal (cs : List Char) : List Char × List Char :=
    let (whole, after) := digitRun Text.isAsciiDigit cs
    let (fraction, after) :=
      match after with
      | '.' :: d :: rest =>
        if Text.isAsciiDigit d then
          let (ds, after) := digitRun Text.isAsciiDigit (d :: rest)
          ('.' :: ds, after)
        else ([], after)
      | _ => ([], after)
    let (power, after) := exponent after
    let (suffix, after) := numberSuffix after
    (whole ++ fraction ++ power ++ suffix, after)

/-- The identifier at the front of a text, an optional `@` before it; letters may be written as
escapes. -/
def identifierParts : Nat → Bool → List Char → List Char × List Char
  | 0, _, cs => ([], cs)
  | _ + 1, _, [] => ([], [])
  | fuel + 1, atStart, c :: rest =>
    if (if atStart then Text.isIdentifierStart c else Text.isIdentifierPart c) then
      let (more, after) := identifierParts fuel false rest
      (c :: more, after)
    else if c == '\\' then
      match rest with
      | 'u' :: r =>
        match hexExactly 4 r with
        | some (ds, after) =>
          let (more, after) := identifierParts fuel false after
          (c :: 'u' :: ds ++ more, after)
        | none => ([], c :: rest)
      | 'U' :: r =>
        match hexExactly 8 r with
        | some (ds, after) =>
          let (more, after) := identifierParts fuel false after
          (c :: 'U' :: ds ++ more, after)
        | none => ([], c :: rest)
      | _ => ([], c :: rest)
    else ([], c :: rest)

/-- The identifier at the front of a text. -/
def identifierText (cs : List Char) : List Char × List Char :=
  match cs with
  | '@' :: rest =>
    let (name, after) := identifierParts rest.length true rest
    if name.isEmpty then ([], cs) else ('@' :: name, after)
  | _ => identifierParts cs.length true cs

/-- The quoted text at the front of a text, with the marks that say how it is quoted.  Gives nothing if
no quoted text starts here, and `some none` if one starts and is not closed. -/
def quotedAt? (cs : List Char) : Option (Option (List Char × List Char)) :=
  let withLead := fun (lead : List Char) (r : Option (List Char × List Char)) =>
    some (r.map fun (more, after) => (lead ++ more, after))
  match cs with
  | '\'' :: rest => withLead ['\''] (quotedCharacter rest)
  | '$' :: '@' :: '"' :: rest => withLead ['$', '@', '"'] (interpolatedText [.text true] rest)
  | '@' :: '$' :: '"' :: rest => withLead ['@', '$', '"'] (interpolatedText [.text true] rest)
  | '@' :: '"' :: rest => withLead ['@', '"'] (verbatimText rest)
  | '$' :: rest =>
    let dollars := rest.takeWhile (· == '$')
    let after := rest.dropWhile (· == '$')
    let quotes := after.takeWhile (· == '"')
    if 3 ≤ quotes.length then
      withLead ('$' :: dollars ++ quotes) (rawText quotes.length 0 (after.dropWhile (· == '"')))
    else if dollars.isEmpty && !quotes.isEmpty then
      withLead ['$', '"'] (interpolatedText [.text false] (after.drop 1))
    else none
  | '"' :: rest =>
    let quotes := cs.takeWhile (· == '"')
    if 3 ≤ quotes.length then
      withLead quotes (rawText quotes.length 0 (cs.dropWhile (· == '"')))
    else withLead ['"'] (quotedText (rest.length + 1) rest)
  | _ => none

/-- The mark at the front of a text. -/
def markAt? (cs : List Char) : Option (List Char × List Char) :=
  match longMarks.find? fun m => m.toList.isPrefixOf cs with
  | some m => some (m.toList, cs.drop m.length)
  | none =>
    match cs with
    | c :: rest => if shortMarks.contains c then some ([c], rest) else none
    | [] => none

/-- The token at the front of a text without leading trivia, and what follows it. -/
def tokenAt? (lead : List Trivia) (cs : List Char) : Option (Token × List Char) :=
  match quotedAt? cs with
  | some none => none
  | some (some (text, after)) => some (⟨lead, .quoted, String.ofList text⟩, after)
  | none =>
    let (name, after) := identifierText cs
    if !name.isEmpty then some (⟨lead, .word, String.ofList name⟩, after)
    else
      let startsNumber :=
        match cs with
        | '.' :: d :: _ => Text.isAsciiDigit d
        | d :: _ => Text.isAsciiDigit d
        | [] => false
      if startsNumber then
        let (number, after) := numberText cs
        some (⟨lead, .number, String.ofList number⟩, after)
      else (markAt? cs).map fun (mark, after) => (⟨lead, .mark, String.ofList mark⟩, after)

/-! ## Directive lines -/

/-- The words and other parts of a directive line, up to a comment. -/
def lineParts : Nat → List Char → Option (List Token)
  | 0, _ => some []
  | fuel + 1, cs =>
    match cs.dropWhile isSpace with
    | [] => some []
    | '/' :: '/' :: _ => some []
    | cs => do
      let (token, after) ← tokenAt? [] cs
      let more ← lineParts fuel after
      return token :: more

/-- Whether parts are words or numbers with commas between them. -/
def isCodeList : List Token → Bool
  | [t] => t.kind == .word || t.kind == .number
  | t :: comma :: rest =>
    (t.kind == .word || t.kind == .number) && comma.isMark "," && isCodeList rest
  | [] => true

/-- Whether the parts of a directive line of the given kind are as they should be. -/
def isWellFormedLine (kind : DirectiveKind) (parts : List Token) : Bool :=
  let texts := parts.map (·.text)
  match kind with
  | .region | .endRegion | .shebang => true
  | .error | .warning | .define | .undefine => !parts.isEmpty
  | .nullable =>
    match texts with
    | [state] => ["enable", "disable", "restore"].contains state
    | [state, target] =>
      ["enable", "disable", "restore"].contains state && ["annotations", "warnings"].contains target
    | _ => false
  | .pragma =>
    match parts with
    | first :: second :: rest =>
      if first.isWord "warning" then
        (second.isWord "disable" || second.isWord "restore") && isCodeList rest
      else
        first.isWord "checksum" && rest.length == 2 &&
          (second :: rest).all fun t => t.kind == .quoted
    | _ => false
  | .line =>
    match parts with
    | first :: rest =>
      if first.isWord "default" || first.isWord "hidden" then rest.isEmpty
      else if first.kind == .number then
        rest.isEmpty || (rest.length == 1 && rest.all fun t => t.kind == .quoted)
      else first.isMark "("
    | [] => false

/-- The kind of the directive that a word names. -/
def directiveKind? (word : String) : Option DirectiveKind :=
  match word with
  | "region" => some .region
  | "endregion" => some .endRegion
  | "line" => some .line
  | "pragma" => some .pragma
  | "nullable" => some .nullable
  | "error" => some .error
  | "warning" => some .warning
  | "define" => some .define
  | "undef" => some .undefine
  | _ => none

/-- Whether the parts of a line are a condition: names, truth values and numbers, joined by logical
operators and brackets.  `wantsOperand` tells what may come next, `depth` how many brackets are
open. -/
def isCondition (wantsOperand : Bool) (depth : Nat) : List Token → Bool
  | [] => !wantsOperand && depth == 0
  | t :: rest =>
    if wantsOperand then
      if t.isMark "!" then isCondition true depth rest
      else if t.isMark "(" then isCondition true (depth + 1) rest
      else (t.kind == .word || t.kind == .number || t.kind == .quoted) && isCondition false depth rest
    else if t.isMark ")" then 0 < depth && isCondition false (depth - 1) rest
    else
      (t.isMark "&&" || t.isMark "||" || t.isMark "==" || t.isMark "!=") && isCondition true depth rest

/-- The two ways a directive line is read. -/
inductive Line where
  /-- A line that is passed over like a comment. -/
  | trivia (piece : Trivia)
  /-- The head, a middle or the end of a conditional group. -/
  | conditional (text : String)

/-- The directive line at the front of a text, which begins with a number sign, and what follows it.
All but the parts of conditional groups without a condition go to the end of their line, which must
be there. -/
def lineAt? (cs : List Char) : Option (Line × List Char) :=
  let afterSign := (cs.drop 1).dropWhile fun c => c == ' ' || c == '\t'
  let isLower := fun (c : Char) => 0x61 ≤ c.toNat && c.toNat ≤ 0x7a
  let word := String.ofList (afterSign.takeWhile isLower)
  let afterWord := afterSign.dropWhile isLower
  let line := afterWord.takeWhile (· != '\n')
  let afterLine := afterWord.dropWhile (· != '\n')
  let whole := String.ofList (cs.takeWhile (· != '\n'))
  match directiveKind? word with
  | some kind =>
    let isFree := [DirectiveKind.region, .endRegion, .error, .warning].contains kind
    if afterLine.isEmpty then none
    else if isFree then
      if kind == .error || kind == .warning then
        if line.all isSpace then none else some (.trivia ⟨.directive kind, whole⟩, afterLine)
      else some (.trivia ⟨.directive kind, whole⟩, afterLine)
    else
      match lineParts line.length line with
      | some parts =>
        if isWellFormedLine kind parts then some (.trivia ⟨.directive kind, whole⟩, afterLine) else none
      | none => none
  | none =>
    if word == "else" || word == "endif" then some (.conditional word, afterWord)
    else if word == "if" || word == "elif" then
      match lineParts line.length line with
      | some parts =>
        if !afterLine.isEmpty && isCondition true 0 parts then some (.conditional word, afterLine)
        else none
      | none => none
    else none

/-- The tokens of a text of at most `fuel` tokens and pieces of trivia.  The trivia before the next
token are given last first. -/
def tokensFrom? : Nat → List Trivia → List Char → Option (List Token)
  | 0, _, _ => none
  | _ + 1, lead, [] => some [⟨lead.reverse, .stop, ""⟩]
  | fuel + 1, lead, c :: rest =>
    if isSpace c then
      let space := c :: rest.takeWhile isSpace
      tokensFrom? fuel (⟨.blank, String.ofList space⟩ :: lead) (rest.dropWhile isSpace)
    else if c == '/' && rest.head? == some '/' then
      let comment := c :: rest.takeWhile isLineChar
      tokensFrom? fuel (⟨.comment, String.ofList comment⟩ :: lead) (rest.dropWhile isLineChar)
    else if c == '/' && rest.head? == some '*' then do
      let (inside, after) ← blockComment (rest.drop 1)
      tokensFrom? fuel (⟨.comment, String.ofList ('/' :: '*' :: inside)⟩ :: lead) after
    else if c == '#' then do
      let (line, after) ← lineAt? (c :: rest)
      match line with
      | .trivia piece => tokensFrom? fuel (piece :: lead) after
      | .conditional word => do
        let more ← tokensFrom? fuel [] after
        return ⟨lead.reverse, .conditional, word⟩ :: more
    else do
      let (token, after) ← tokenAt? lead.reverse (c :: rest)
      let more ← tokensFrom? fuel [] after
      return token :: more

/-- The tokens of a source text, the last of which is its end.  A first line that begins with `#!`
is passed over. -/
def tokens? (cs : List Char) : Option (List Token) :=
  match cs with
  | '#' :: '!' :: _ =>
    let line := String.ofList (cs.takeWhile (· != '\n'))
    tokensFrom? (cs.length + 1) [⟨.directive .shebang, line⟩] (cs.dropWhile (· != '\n'))
  | _ => tokensFrom? (cs.length + 1) [] cs

end PlatformClasses.Source
