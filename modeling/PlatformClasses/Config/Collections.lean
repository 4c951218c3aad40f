import PlatformClasses.Registry
import PlatformClasses.Text.Blank
import PlatformClasses.Text.Cut

/-!
# Collection registries as text

A registry of collection classes is written as `Class=Element` entries with commas between.  White
space around an entry and around its two parts does not count, blank entries are passed over, and of
two entries for one class the later counts.
-/

namespace PlatformClasses.Collections

/-- A text up to the first occurrence of a separator, and what follows it. -/
def splitFirst (separator : Char) : List Char → Option (List Char × List Char)
  | [] => none
  | c :: rest =>
    if c == separator then some ([], rest)
    else (splitFirst separator rest).map fun (before, after) => (c :: before, after)

/-- The class and the element type of an entry that is not blank. -/
def pairOf? (entry : List Char) : Option (String × String) :=
  match splitFirst '=' entry with
  | none => none
  | some (name, elementType) =>
    let name := Text.trimChars name
    let elementType := Text.trimChars elementType
    if name.isEmpty || elementType.isEmpty then none
    else some (String.ofList name, String.ofList elementType)

/-- Adds the entries to a registry.  The first entry that is not of the form is the error. -/
def parseEntries (found : Registry String) : List (List Char) → Except String (Registry String)
  | [] => .ok found
  | entry :: rest =>
    let entry := Text.trimChars entry
    if entry.isEmpty then parseEntries found rest
    else
      match pairOf? entry with
      | some (name, elementType) => parseEntries (found.insert name elementType) rest
      | none => .error (String.ofList entry)

/-- Reads a registry; the error is the entry that is not of the form. -/
def parse (text : String) : Except String (Registry String) :=
  parseEntries .empty (Text.piecesOf ',' text.toList)

end PlatformClasses.Collections
