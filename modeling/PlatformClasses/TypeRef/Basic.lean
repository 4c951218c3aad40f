import PlatformClasses.Text.Cut

/-!
# Type references

The structure of a reference to a type: a possibly dotted name, type arguments, a nullable mark and
array ranks.  Ranks stand outermost first, as they are written: `int[][,]` is an array whose elements
are two-dimensional arrays.

`render` is the canonical text of a reference.
-/

namespace PlatformClasses

/-- A reference to a type.  A rank is the text between the brackets. -/
inductive TypeRef where
  | mk (name : String) (arguments : List TypeRef) (nullable : Bool) (ranks : List String)
deriving Repr, Inhabited

namespace TypeRef

/-- The name of the type, without arguments and marks. -/
def name : TypeRef → String
  | mk name _ _ _ => name

/-- The type arguments. -/
def arguments : TypeRef → List TypeRef
  | mk _ arguments _ _ => arguments

/-- Whether the type is marked nullable. -/
def nullable : TypeRef → Bool
  | mk _ _ nullable _ => nullable

/-- The array ranks, as they are written. -/
def ranks : TypeRef → List String
  | mk _ _ _ ranks => ranks

/-- Whether the reference is to an array type. -/
def isArray (t : TypeRef) : Bool := !t.ranks.isEmpty

/-- Whether the type has arguments. -/
def isGeneric (t : TypeRef) : Bool := !t.arguments.isEmpty

/-- The text of the ranks, each in its brackets. -/
def rankText (ranks : List String) : String :=
  ranks.foldr (fun rank rest => "[" ++ rank ++ "]" ++ rest) ""

/-- The reference with its last rank taken away; one without ranks is its own element type. -/
def elementType : TypeRef → TypeRef
  | mk name arguments nullable ranks => mk name arguments nullable ranks.dropLast

mutual
/-- The reference with every name mapped; the map is told whether the name has type arguments. -/
def mapNames (f : String → Bool → String) : TypeRef → TypeRef
  | mk name arguments nullable ranks =>
    mk (f name (!arguments.isEmpty)) (mapNamesAll f arguments) nullable ranks

/-- Every reference of a list with its names mapped. -/
def mapNamesAll (f : String → Bool → String) : List TypeRef → List TypeRef
  | [] => []
  | t :: rest => mapNames f t :: mapNamesAll f rest
end

mutual
/-- The canonical text of a reference. -/
def render : TypeRef → String
  | mk name arguments nullable ranks =>
    name ++ renderArguments arguments ++ (if nullable then "?" else "") ++ rankText ranks

/-- The text of a list of type arguments in its brackets; nothing if there are none. -/
def renderArguments : List TypeRef → String
  | [] => ""
  | t :: rest => "<" ++ render t ++ renderRest rest

/-- The text of the arguments after the first, up to the closing bracket. -/
def renderRest : List TypeRef → String
  | [] => ">"
  | t :: rest => ", " ++ render t ++ renderRest rest
end

mutual
/-- Whether two references are equal. -/
def beq : TypeRef → TypeRef → Bool
  | mk name arguments nullable ranks, mk name' arguments' nullable' ranks' =>
    name == name' && beqAll arguments arguments' && nullable == nullable' && ranks == ranks'

/-- Whether two lists of references are equal. -/
def beqAll : List TypeRef → List TypeRef → Bool
  | [], [] => true
  | s :: ss, t :: ts => beq s t && beqAll ss ts
  | _, _ => false
end

mutual
theorem eq_of_beq : ∀ {s t : TypeRef}, beq s t = true → s = t
  | mk .., mk .., h => by
    simp only [beq, Bool.and_eq_true, beq_iff_eq] at h
    obtain ⟨⟨⟨hname, harguments⟩, hnullable⟩, hranks⟩ := h
    rw [hname, eq_of_beqAll harguments, hnullable, hranks]

theorem eq_of_beqAll : ∀ {ss ts : List TypeRef}, beqAll ss ts = true → ss = ts
  | [], [], _ => rfl
  | _ :: _, _ :: _, h => by
    simp only [beqAll, Bool.and_eq_true] at h
    rw [eq_of_beq h.1, eq_of_beqAll h.2]
  | [], _ :: _, h => by simp [beqAll] at h
  | _ :: _, [], h => by simp [beqAll] at h
end

mutual
theorem beq_refl : ∀ t : TypeRef, beq t t = true
  | mk _ arguments _ _ => by simp [beq, beqAll_refl arguments]

theorem beqAll_refl : ∀ ts : List TypeRef, beqAll ts ts = true
  | [] => rfl
  | t :: rest => by simp [beqAll, beq_refl t, beqAll_refl rest]
end

instance : DecidableEq TypeRef := fun s t =>
  if h : beq s t = true then isTrue (eq_of_beq h)
  else isFalse fun heq => h (heq ▸ beq_refl s)

@[simp] theorem mapNamesAll_eq_map (f : String → Bool → String) (ts : List TypeRef) :
    mapNamesAll f ts = ts.map (mapNames f) := by
  induction ts with
  | nil => rfl
  | cons t rest ih => simp [mapNamesAll, ih]

end TypeRef

end PlatformClasses
