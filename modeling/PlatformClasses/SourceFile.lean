import PlatformClasses.Declaration.Reading

/-!
# Source files

A source file is UTF-8 text, perhaps with a byte order mark, which is dropped; line ends of every kind
are read as line feeds.
-/

namespace PlatformClasses

namespace SourceFile

/-- The byte order mark. -/
def byteOrderMark : List UInt8 := [0xef, 0xbb, 0xbf]

/-- The bytes of a file without its byte order mark; a file that is only the beginning of one is
empty. -/
def withoutMark (bytes : List UInt8) : List UInt8 :=
  if byteOrderMark.isPrefixOf bytes then bytes.drop 3
  else if bytes.isPrefixOf byteOrderMark then []
  else bytes

/-- A text with its line ends as line feeds. -/
def lineFeeds : List Char → List Char
  | '\r' :: '\n' :: rest => '\n' :: lineFeeds rest
  | '\r' :: rest => '\n' :: lineFeeds rest
  | c :: rest => c :: lineFeeds rest
  | [] => []

/-- The text of a file. -/
def text (tree : FileTree) (path : Path) : Except Fault (List Char) :=
  match tree.read path with
  | .error e => .error (.unreadable path (.file e))
  | .ok bytes =>
    match Text.Utf8.decode (withoutMark bytes) with
    | .error m => .error (.unreadable path (.encoding m))
    | .ok cs => .ok (lineFeeds cs)

/-- The model elements of a file. -/
def elements (reader : SourceReader) (tree : FileTree) (path : Path) :
    Except Fault (List ModelElement) := do
  let cs ← text tree path
  ModelElement.ofText reader (some path) cs

end SourceFile

end PlatformClasses
