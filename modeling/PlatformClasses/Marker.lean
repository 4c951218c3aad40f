import PlatformClasses.Fault
import PlatformClasses.Text.Case

/-!
# The marker convention

Interfaces of the model are named by the letter `I` and an upper-case letter: `ILine`.  The class that
is generated for an interface goes by the name without the marker.
-/

namespace PlatformClasses.Marker

/-- The name without its marker, if it has one. -/
def strip? (name : String) : Option String :=
  match name.toList with
  | 'I' :: c :: rest => if Text.isUpper c then some (String.ofList (c :: rest)) else none
  | _ => none

/-- Whether a name has the marker. -/
def isMarked (name : String) : Bool := (strip? name).isSome

/-- The name without its marker, which it must have. -/
def strip (name : String) : Except Fault String :=
  match strip? name with
  | some stripped => .ok stripped
  | none => .error (.unmarkedName name)

theorem eq_append_of_strip? {name stripped : String} (h : strip? name = some stripped) :
    name = "I" ++ stripped := by
  unfold strip? at h
  split at h
  · next c rest heq =>
    split at h
    · have hs : String.ofList (c :: rest) = stripped := by simpa using h
      rw [← hs, ← String.toList_inj, String.toList_append, heq]
      simp
    · simp at h
  · simp at h

end PlatformClasses.Marker
