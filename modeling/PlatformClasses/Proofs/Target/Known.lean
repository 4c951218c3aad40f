import PlatformClasses.Config.Basic
import PlatformClasses.Proofs.Outcome

/-!
# Known declarations

The registry of a target holds the marked names among the declarations of its model, and each with the
name that the marker rule gives it.  So the registry and the marker rule never disagree about the class
of a declaration (`className_eq_strip`); what being known adds is said by `mapName_eq`.
-/

namespace PlatformClasses

namespace ModelElement

/-- The declarations of an element: its own and that of its companion. -/
def declarations (e : ModelElement) : List Declaration :=
  e.declaration :: e.companion.toList

end ModelElement

namespace Target

/-- Every name in a registry has the class that the marker rule gives it. -/
def FollowsMarker (known : Registry String) : Prop :=
  ∀ name className, known.get? name = some className → Marker.strip? name = some className

/-- Registering a declaration makes its name known, if it is marked, and leaves the others. -/
theorem get?_register (known : Registry String) (d : Declaration) (name : String) :
    (register known d).get? name =
      if name = d.name then (Marker.strip? d.name).or (known.get? name) else known.get? name := by
  unfold register
  cases hstrip : Marker.strip? d.name with
  | none => simp
  | some className =>
      by_cases hname : name = d.name
      · simp [hname]
      · simp [hname, Registry.get?_insert_of_ne]

/-- Registering follows the marker. -/
theorem followsMarker_register {known : Registry String} (h : FollowsMarker known)
    (d : Declaration) : FollowsMarker (register known d) := by
  intro name className hget
  rw [get?_register] at hget
  split at hget
  · next hname =>
    cases hstrip : Marker.strip? d.name with
    | none => exact h name className (by simpa [hstrip] using hget)
    | some stripped =>
        have hclass : stripped = className := by simpa [hstrip] using hget
        rw [hname, hstrip, hclass]
  · exact h name className hget

/-- The registry of elements takes in one declaration after the other. -/
theorem knownOf_eq_foldl (elements : List ModelElement) :
    knownOf elements = (elements.flatMap ModelElement.declarations).foldl register .empty := by
  unfold knownOf
  generalize Registry.empty = known
  induction elements generalizing known with
  | nil => rfl
  | cons e rest ih =>
      simp only [List.foldl_cons, List.flatMap_cons, List.foldl_append, ih]
      cases h : e.companion <;> simp [ModelElement.declarations, h]

theorem followsMarker_foldl (declarations : List Declaration) {known : Registry String}
    (h : FollowsMarker known) : FollowsMarker (declarations.foldl register known) := by
  induction declarations generalizing known with
  | nil => exact h
  | cons d rest ih => exact ih (followsMarker_register h d)

/-- What is known of elements follows the marker. -/
theorem followsMarker_knownOf (elements : List ModelElement) : FollowsMarker (knownOf elements) := by
  rw [knownOf_eq_foldl]
  exact followsMarker_foldl _ fun name className h => by simp at h

/-- After declarations are registered, a name is known if it was before or is the marked name of one. -/
theorem contains_foldl_register (declarations : List Declaration) (known : Registry String)
    (name : String) : (declarations.foldl register known).contains name =
      (known.contains name || declarations.any fun d => d.name == name && Marker.isMarked name) := by
  induction declarations generalizing known with
  | nil => simp
  | cons d rest ih =>
      have hstep : (register known d).contains name =
          (known.contains name || (d.name == name && Marker.isMarked name)) := by
        unfold Registry.contains Marker.isMarked
        rw [get?_register]
        by_cases hname : name = d.name
        · subst hname
          simp [Bool.or_comm]
        · simp [hname, Ne.symm hname]
      rw [List.foldl_cons, ih, hstep, List.any_cons, Bool.or_assoc]

/-- A name is known if it is marked and some element declares it. -/
theorem contains_knownOf (elements : List ModelElement) (name : String) :
    (knownOf elements).contains name =
      (elements.flatMap ModelElement.declarations).any fun d =>
        d.name == name && Marker.isMarked name := by
  rw [knownOf_eq_foldl, contains_foldl_register]
  simp [Registry.contains]

/-- The class of a declaration is the one its name says, known or not. -/
theorem className_eq_strip {t : Target} (h : FollowsMarker t.known) (name : String) :
    t.className name = Marker.strip name := by
  unfold className Marker.strip
  cases hget : t.known.get? name with
  | none => rfl
  | some className => rw [h name className hget]

/-- Being known only matters for names with type arguments and for dotted names; every other marked
name loses its marker anyway. -/
theorem mapName_eq {t : Target} (h : FollowsMarker t.known) (name : String) (isGeneric : Bool) :
    t.mapName name isGeneric =
      if (isGeneric || name.toList.contains '.') && !t.known.contains name then name
      else (Marker.strip? name).getD name := by
  unfold mapName Registry.contains
  cases hget : t.known.get? name with
  | none => simp
  | some className => simp [h name className hget]

end Target

namespace Config

/-- The target of a run for a platform. -/
def targetOn (c : Config) (settings : Settings) (elements : List ModelElement) (p : Platform) :
    Target where
  platform := p
  outputRoot := c.outputRoot
  rootNamespace := c.rootNamespace
  collections := c.collections
  known := Target.knownOf elements
  rootElement := settings.rootElement
  sharedProject := settings.sharedProject
  generatedDirectory := settings.generatedDirectory
  indentSize := settings.indentSize
  fileExtension := settings.fileExtension

theorem target_eq_map (c : Config) (settings : Settings) (elements : List ModelElement)
    (platform : String) : c.target settings elements platform =
      (Platform.ofName (if platform = "" then c.platform else platform)).map
        (c.targetOn settings elements) := rfl

/-- What a target knows follows the marker. -/
theorem followsMarker_of_target {c : Config} {settings : Settings} {elements : List ModelElement}
    {platform : String} {t : Target} (h : c.target settings elements platform = .ok t) :
    Target.FollowsMarker t.known := by
  rw [target_eq_map] at h
  obtain ⟨p, -, rfl⟩ := map_eq_ok.1 h
  exact Target.followsMarker_knownOf elements

end Config

end PlatformClasses
