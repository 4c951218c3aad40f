import PlatformClasses.Declaration.AttachedProperty

/-!
# Model elements

What one interface of the model is generated from: its declaration, the attached interface that
accompanies it, and the attached properties that this one describes.
-/

namespace PlatformClasses

/-- An interface with its companion and its attached properties. -/
structure ModelElement where
  declaration : Declaration
  companion : Option Declaration
  attached : List AttachedProperty
deriving Repr, DecidableEq

namespace ModelElement

/-- The element of an interface and its companion, if the companion's accessors can be paired. -/
def ofDeclarations (d : Declaration) (companion : Option Declaration) : Except Fault ModelElement :=
  match companion with
  | none => .ok ⟨d, none, []⟩
  | some c =>
    match AttachedProperty.ofDeclaration c with
    | .ok attached => .ok ⟨d, some c, attached⟩
    | .error e => .error e

/-- The ending of the names of attached interfaces. -/
def companionEnding : String := "Attached"

/-- The name of the interface that an attached interface accompanies. -/
def ownerOf? (name : String) : Option String := Text.beforeTrail? companionEnding name

/-- The attached interfaces among declarations by the interfaces they accompany; of two for the same
interface the later counts. -/
def companions (origin : String) (known : List String) :
    Registry Declaration → List Declaration → Except Fault (Registry Declaration)
  | found, [] => .ok found
  | found, d :: rest =>
    match ownerOf? d.name with
    | none => companions origin known found rest
    | some owner =>
      if known.contains owner then companions origin known (found.insert owner d) rest
      else .error (.missingOwner d.name origin owner)

/-- The elements of the interfaces that are not attached ones. -/
def withCompanions (found : Registry Declaration) : List Declaration → Except Fault (List ModelElement)
  | [] => .ok []
  | d :: rest =>
    if (ownerOf? d.name).isSome then withCompanions found rest
    else do
      let e ← ofDeclarations d (found.get? d.name)
      let more ← withCompanions found rest
      return e :: more

/-- The elements that the declarations of one source make up, in their order. -/
def ofSource (origin : String) (declarations : List Declaration) : Except Fault (List ModelElement) := do
  let found ← companions origin (declarations.map (·.name)) .empty declarations
  withCompanions found declarations

end ModelElement

end PlatformClasses
