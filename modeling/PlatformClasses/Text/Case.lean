import PlatformClasses.Text.CaseTable
import PlatformClasses.Text.Letter

/-!
# Upper and lower case

Whether a character is upper case, and the full lower-casing of a text.  Two rules go beyond a map of
characters: `İ` becomes two characters, and a capital sigma that ends a word becomes the final sigma.
-/

namespace PlatformClasses.Text

/-- Property Uppercase; titlecase letters do not have it. -/
def isUpper (c : Char) : Bool :=
  if c.toNat < 128 then 0x41 ≤ c.toNat && c.toNat ≤ 0x5a
  else uppercaseRuns.any fun (first, last, step) => inRun c.toNat first last step

/-- The simple lower-case mapping. -/
def lowerChar (c : Char) : Char :=
  if c.toNat < 128 then
    if isUpper c then Char.ofNat (c.toNat + 0x20) else c
  else
    match lowercaseRuns.find? fun (first, last, step, _) => inRun c.toNat first last step with
    | some (first, _, _, image) => Char.ofNat (image + (c.toNat - first))
    | none => c

/-- Property Case_Ignorable: characters that are passed over when a word is looked at. -/
def isCaseIgnorable (c : Char) : Bool :=
  if c.toNat < 128 then ['\'', '.', ':', '^', '`'].contains c
  else inRanges c.toNat caseIgnorableRanges

/-- Property Cased, of characters that are not case-ignorable. -/
def isCased (c : Char) : Bool :=
  if c.toNat < 128 then isAsciiLetter c else inRanges c.toNat casedRanges

/-- Whether the nearest character that is not passed over is a cased one. -/
def facesCased (cs : List Char) : Bool :=
  match cs.dropWhile isCaseIgnorable with
  | c :: _ => isCased c
  | [] => false

/-- Lower-casing of one character between the characters before it, nearest first, and those after
it. -/
def lowerBetween (before : List Char) (c : Char) (after : List Char) : List Char :=
  if c == 'İ' then ['i', Char.ofNat 0x307]
  else if c == 'Σ' then
    if facesCased before && !facesCased after then ['ς'] else ['σ']
  else [lowerChar c]

/-- Lower-casing of the rest of a text, given what has been passed, nearest first. -/
def lowerFrom (before : List Char) : List Char → List Char
  | [] => []
  | c :: after => lowerBetween before c after ++ lowerFrom (c :: before) after

/-- Full lower-casing of a text. -/
def lower (s : String) : String :=
  String.ofList (lowerFrom [] s.toList)

end PlatformClasses.Text
