import PlatformClasses.Config.Settings
import PlatformClasses.SourceFile

/-!
# Files of variables

A file may give variables that the environment does not have.  It holds bindings `KEY=VALUE`, one a
line, comments after a number sign, and blank lines; `export` may precede a key.  Values stand in single
quotes, in double quotes, where more escapes are known, or plain up to a comment or the end of the
line.  In a value, `${KEY}` and `${KEY:-default}` stand for other variables.

How a file is read is left open to those who use what it gives: an `EnvReader` is any way to get
variables from a text, and `EnvReader.builtIn` is the one that is described above.  The environment can
say that no file is to be read.  Whatever a reader gives, the environment takes a variable only under a
name that it can have.
-/

namespace PlatformClasses

/-! ## The environment -/

/-- Why an environment does not take a variable. -/
inductive EnvRefusal where
  /-- There is a null character in the name or in the value. -/
  | nullCharacter
  /-- There is an equality sign in the name. -/
  | signInName
deriving Repr, DecidableEq

/-- The text of a refusal. -/
def EnvRefusal.message : EnvRefusal → String
  | nullCharacter => "embedded null byte"
  | signInName => "illegal environment variable name"

/-- The environment with a variable set. -/
def Environment.assign (env : Environment) (name value : String) : Except EnvRefusal Environment :=
  if '\x00' ∈ name.toList ∨ '\x00' ∈ value.toList then .error .nullCharacter
  else if '=' ∈ name.toList then .error .signInName
  else .ok (env.insert name value)

/-- The environment with those variables set, one after the other, that have a value and that it does not
have yet. -/
def Environment.supplement : Environment → List (String × Option String) →
    Except EnvRefusal Environment
  | env, [] => .ok env
  | env, (_, none) :: rest => env.supplement rest
  | env, (name, some value) :: rest =>
    if env.contains name then env.supplement rest
    else
      match env.assign name value with
      | .error refusal => .error refusal
      | .ok env => env.supplement rest

/-- What reads a file of variables. -/
structure EnvReader where
  /-- Whether an environment says that no file is to be read. -/
  isOff : Environment → Bool
  /-- Each name that a text gives, with its value if it has one, which may depend on the environment. -/
  read : Environment → List Char → List (String × Option String)

namespace EnvFile

/-- White space within a line. -/
def isInlineBlank (c : Char) : Bool := Text.isBlank c && c != '\n' && c != '\r'

/-- A character that does not end a line. -/
def isLineChar (c : Char) : Bool := c != '\n' && c != '\r'

/-- What follows white space within a line. -/
def skipInline (cs : List Char) : List Char := cs.dropWhile isInlineBlank

/-- The rest of a quoted value up to its closing quote.  A quote after a backslash does not close the
value unless no other one does. -/
def quotedValue (quote : Char) : List Char → Option (List Char × List Char)
  | [] => none
  | c :: rest =>
    if c == quote then some ([], rest)
    else if c == '\\' then
      match rest with
      | d :: rest' =>
        if d == quote then
          match quotedValue quote rest' with
          | some (inside, after) => some (c :: d :: inside, after)
          | none => some ([c], rest')
        else (quotedValue quote (d :: rest')).map fun (inside, after) => (c :: inside, after)
      | [] => none
    else (quotedValue quote rest).map fun (inside, after) => (c :: inside, after)

/-- The character that an escape stands for. -/
def escaped? (quote c : Char) : Option Char :=
  if c == '\\' || c == '\'' then some c
  else if quote == '"' then
    match c with
    | '"' => some '"'
    | 'a' => some '\x07'
    | 'b' => some '\x08'
    | 'f' => some '\x0c'
    | 'n' => some '\n'
    | 'r' => some '\r'
    | 't' => some '\t'
    | 'v' => some '\x0b'
    | _ => none
  else none

/-- A quoted value with its escapes replaced. -/
def unescape (quote : Char) : List Char → List Char
  | '\\' :: c :: rest =>
    match escaped? quote c with
    | some d => d :: unescape quote rest
    | none => '\\' :: unescape quote (c :: rest)
  | c :: rest => c :: unescape quote rest
  | [] => []

/-- A plain value up to a number sign that follows white space; `afterBlank` tells whether the last
character was white space. -/
def uncommented (afterBlank : Bool) : List Char → List Char
  | [] => []
  | c :: rest =>
    if afterBlank && c == '#' then [] else c :: uncommented (Text.isBlank c) rest

/-- The value after an equality sign and the white space that follows it, and what comes after. -/
def value? (cs : List Char) : Option (List Char × List Char) :=
  match cs with
  | [] => some ([], [])
  | c :: rest =>
    if c == '\'' || c == '"' then
      (quotedValue c rest).map fun (inside, after) => (unescape c inside, after)
    else if isLineChar c then
      some (Text.trimRightChars (uncommented false (cs.takeWhile isLineChar)), cs.dropWhile isLineChar)
    else some ([], cs)

/-- The key at the front of a line, none for a comment, and what comes after. -/
def key? (cs : List Char) : Option (Option (List Char) × List Char) :=
  match cs with
  | '#' :: _ => some (none, cs)
  | '\'' :: rest =>
    let name := rest.takeWhile (· != '\'')
    match rest.dropWhile (· != '\'') with
    | _ :: after => if name.isEmpty then none else some (some name, after)
    | [] => none
  | _ =>
    let isKeyChar := fun c => c != '=' && c != '#' && !Text.isBlank c
    let name := cs.takeWhile isKeyChar
    if name.isEmpty then none else some (some name, cs.dropWhile isKeyChar)

/-- What follows the word `export` and the white space that must follow it, if they come first. -/
def skipExport (cs : List Char) : List Char :=
  if "export".toList.isPrefixOf cs then
    match cs.drop 6 with
    | c :: rest => if isInlineBlank c then skipInline rest else cs
    | [] => cs
  else cs

/-- A binding: a key with its value, or without one. -/
abbrev Binding := String × Option String

/-- The end of a line after a binding, perhaps with a comment. -/
def lineEnd? (cs : List Char) : Option (List Char) :=
  let after :=
    match skipInline cs with
    | '#' :: rest => rest.dropWhile isLineChar
    | rest => rest
  match after with
  | [] => some []
  | c :: rest => if isLineChar c then none else some rest

/-- The binding at the front of a text that does not begin with white space, and what comes after.  Of
a line that is no binding nothing is kept. -/
def binding (cs : List Char) : Option Binding × List Char :=
  let broken := fun (rest : List Char) => (none, (rest.dropWhile isLineChar).drop 1)
  let start := skipExport cs
  match key? start with
  | none => broken start
  | some (name, rest) =>
    match skipInline rest with
    | '=' :: rest =>
      match value? (skipInline rest) with
      | none => broken (skipInline rest)
      | some (value, rest) =>
        match lineEnd? rest with
        | none => broken (skipInline rest)
        | some rest =>
          (name.map fun n => (String.ofList n, some (String.ofList value)), rest)
    | rest =>
      match lineEnd? rest with
      | none => broken rest
      | some rest => (name.map fun n => (String.ofList n, none), rest)

/-- The bindings of a text of at most `fuel` lines. -/
def bindingsFrom : Nat → List Char → List Binding
  | 0, _ => []
  | fuel + 1, cs =>
    match cs.dropWhile Text.isBlank with
    | [] => []
    | start =>
      let (found, rest) := binding start
      found.toList ++ bindingsFrom fuel rest

/-- The bindings of a text. -/
def bindings (cs : List Char) : List Binding := bindingsFrom (cs.length + 1) cs

/-! ## Variables in values -/

/-- A reference to a variable after its opening brace: its name, its default, and what comes after. -/
def reference? (cs : List Char) : Option (List Char × List Char × List Char) :=
  let isNameChar := fun c => c != '\x7d' && c != ':'
  let name := cs.takeWhile isNameChar
  match cs.dropWhile isNameChar with
  | '\x7d' :: after => some (name, [], after)
  | ':' :: '-' :: rest =>
    match rest.dropWhile (· != '\x7d') with
    | _ :: after => some (name, rest.takeWhile (· != '\x7d'), after)
    | [] => none
  | _ => none

/-- A value with its references replaced. -/
def expandFrom (get? : String → Option String) : Nat → List Char → List Char
  | 0, cs => cs
  | _ + 1, [] => []
  | fuel + 1, c :: rest =>
    match c, rest with
    | '$', '\x7b' :: inside =>
      match reference? inside with
      | some (name, default, after) =>
        let found := (get? (String.ofList name)).getD (String.ofList default)
        found.toList ++ expandFrom get? fuel after
      | none => c :: expandFrom get? fuel rest
    | _, _ => c :: expandFrom get? fuel rest

/-- The names that a value refers to. -/
def namesIn : List Char → List String
  | [] => []
  | c :: rest =>
    match c, rest with
    | '$', '\x7b' :: inside =>
      match reference? inside with
      | some (name, _) => String.ofList name :: namesIn rest
      | none => namesIn rest
    | _, _ => namesIn rest

/-- The names that a text gives, and those that its values refer to. -/
def names (cs : List Char) : List String :=
  (bindings cs).flatMap fun (name, value) => name :: namesIn (value.getD "").toList

/-- The value of each key; a reference finds the environment before the bindings above it, and a key
without a value is as if it were empty. -/
def resolve (env : Environment) : Registry (Option String) → List Binding → Registry (Option String)
  | found, [] => found
  | found, (key, value) :: rest =>
    let get? := fun name =>
      match env.get? name with
      | some v => some v
      | none => (found.get? name).map (·.getD "")
    let value := value.map fun v => String.ofList (expandFrom get? (v.length + 1) v.toList)
    resolve env (found.insert key value) rest

end EnvFile

namespace EnvFile

/-- The variable that says that no file is to be read. -/
def switch : String := "PYTHON_DOTENV_DISABLED"

/-- What the switch has to be for that, in any case. -/
def switchWords : List String := ["1", "true", "t", "yes", "y"]

/-- A text with the capital letters of ASCII made small, and the long s as well: this tells whether a text
is one of the words in another case. -/
def folded (s : String) : String :=
  s.map fun c => if c == '\u017f' then 's' else c.toLower

end EnvFile

/-- The reader of files of variables that is built in. -/
def EnvReader.builtIn : EnvReader where
  isOff env := (env.get? EnvFile.switch).any fun value =>
    EnvFile.switchWords.contains (EnvFile.folded value)
  read env cs := (EnvFile.resolve env .empty (EnvFile.bindings cs)).entries

namespace EnvFile

/-- Why the variables of a file cannot be had. -/
inductive LoadFailure where
  /-- The file is no text. -/
  | encoding (malformed : Text.Utf8.Malformed)
  /-- The environment does not take one of the variables. -/
  | refused (refusal : EnvRefusal)
deriving Repr, DecidableEq

/-- The environment with the variables of a file added, if there is one and it is to be read. -/
def load (reader : EnvReader) (tree : FileTree) (path : Path) (env : Environment) :
    Except LoadFailure Environment :=
  if reader.isOff env then .ok env
  else
    match tree.lookup? path with
    | some (.file bytes) =>
      match Text.Utf8.decode bytes with
      | .error m => .error (.encoding m)
      | .ok cs =>
        match env.supplement (reader.read env (SourceFile.lineFeeds cs)) with
        | .error refusal => .error (.refused refusal)
        | .ok env => .ok env
    | _ => .ok env

end EnvFile

end PlatformClasses
