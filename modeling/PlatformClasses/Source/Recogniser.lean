import PlatformClasses.Source.Token

/-!
# Recognisers

A recogniser looks for a phrase at the front of the tokens and gives what follows the phrase.  Choices
are tried in order and the first that fits is taken; repetitions take as much as they can.
-/

namespace PlatformClasses.Source

/-- Gives what follows a phrase at the front of the tokens, if there is one. -/
abbrev Recogniser := List Token → Option (List Token)

namespace Recogniser

/-- One token with a property. -/
def token (accepts : Token → Bool) : Recogniser
  | [] => none
  | t :: rest => if accepts t then some rest else none

/-- A given word. -/
def word (text : String) : Recogniser := token (·.isWord text)

/-- One of several words. -/
def wordOf (texts : List String) : Recogniser :=
  token fun t => t.kind == .word && texts.contains t.text

/-- A given mark. -/
def mark (text : String) : Recogniser := token (·.isMark text)

/-- One of several marks. -/
def markOf (texts : List String) : Recogniser :=
  token fun t => t.kind == .mark && texts.contains t.text

/-- A given mark with nothing before it. -/
def adjacentMark (text : String) : Recogniser := token fun t => t.isMark text && t.isAdjacent

/-- Phrases one after the other. -/
def sequence : List Recogniser → Recogniser
  | [], ts => some ts
  | p :: ps, ts =>
    match p ts with
    | some rest => sequence ps rest
    | none => none

/-- The first of several phrases that fits. -/
def choice : List Recogniser → Recogniser
  | [], _ => none
  | p :: ps, ts =>
    match p ts with
    | some rest => some rest
    | none => choice ps ts

/-- A phrase or nothing. -/
def maybe (p : Recogniser) : Recogniser := fun ts => some ((p ts).getD ts)

/-- At most `fuel` times a phrase, as often as it fits and takes a token. -/
def repeatedAtMost (p : Recogniser) : Nat → Recogniser
  | 0, ts => some ts
  | fuel + 1, ts =>
    match p ts with
    | some rest => if rest.length < ts.length then repeatedAtMost p fuel rest else some ts
    | none => some ts

/-- A phrase, as often as it fits. -/
def repeated (p : Recogniser) : Recogniser := fun ts => repeatedAtMost p ts.length ts

/-- A phrase, at least once. -/
def repeatedOnce (p : Recogniser) : Recogniser := sequence [p, repeated p]

/-- A phrase, at least once, with separators between. -/
def separated (separator p : Recogniser) : Recogniser :=
  sequence [p, repeated (sequence [separator, p])]

/-- A list of phrases with commas between, which may be empty. -/
def commaList (p : Recogniser) : Recogniser := maybe (separated (mark ",") p)

/-- A list of phrases with commas between and perhaps one at the end, which may be empty. -/
def looseCommaList (p : Recogniser) : Recogniser :=
  maybe (sequence [separated (mark ",") p, maybe (mark ",")])

/-- Holds where a phrase could follow, and takes nothing. -/
def ahead (p : Recogniser) : Recogniser := fun ts => if (p ts).isSome then some ts else none

/-- Holds where a phrase could not follow, and takes nothing. -/
def notAhead (p : Recogniser) : Recogniser := fun ts => if (p ts).isSome then none else some ts

end Recogniser

end PlatformClasses.Source
