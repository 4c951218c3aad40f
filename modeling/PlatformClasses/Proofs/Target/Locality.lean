import PlatformClasses.Proofs.Target.Known

/-!
# Generation is local

What is generated for an element depends on the element, on the configuration, and on the rest of the
model only through one question: which of the generic names in the element's types are known
declarations.  All other names are mapped by the marker rule, which the registry never contradicts, so
a registry can be exchanged for another one that answers this question alike (`generate_congr`).
-/

namespace PlatformClasses

/-! ## Generic names in types -/

namespace TypeRef

mutual
/-- The names with type arguments that occur in a reference, at any depth. -/
def heads : TypeRef → List String
  | mk name arguments _ _ => (if arguments.isEmpty then [] else [name]) ++ headsOfAll arguments

/-- The names with type arguments that occur in several references. -/
def headsOfAll : List TypeRef → List String
  | [] => []
  | t :: rest => heads t ++ headsOfAll rest
end

section Congruence

variable {f g : String → Bool → String}

mutual
/-- Maps that agree on plain names and on the generic names of a reference map it alike. -/
theorem mapNames_congr (hplain : ∀ name, f name false = g name false) :
    ∀ t : TypeRef, (∀ head ∈ heads t, f head true = g head true) → mapNames f t = mapNames g t
  | mk name arguments nullable ranks, h => by
      have harguments : mapNamesAll f arguments = mapNamesAll g arguments :=
        mapNamesAll_congr hplain arguments fun head hhead => h head (by simp [heads, hhead])
      have hname : f name (!arguments.isEmpty) = g name (!arguments.isEmpty) := by
        cases arguments with
        | nil => exact hplain name
        | cons t rest => exact h name (by simp [heads])
      rw [mapNames, mapNames, harguments, hname]

theorem mapNamesAll_congr (hplain : ∀ name, f name false = g name false) :
    ∀ ts : List TypeRef, (∀ head ∈ headsOfAll ts, f head true = g head true) →
      mapNamesAll f ts = mapNamesAll g ts
  | [], _ => rfl
  | t :: rest, h => by
      have ht : mapNames f t = mapNames g t :=
        mapNames_congr hplain t fun head hhead => h head (by simp [headsOfAll, hhead])
      have hrest : mapNamesAll f rest = mapNamesAll g rest :=
        mapNamesAll_congr hplain rest fun head hhead => h head (by simp [headsOfAll, hhead])
      rw [mapNamesAll, mapNamesAll, ht, hrest]
end

end Congruence

/-- The generic names in a type that is given as text; there are none if the text is no type. -/
def headsOfText (text : String) : List String :=
  match parse text with
  | .ok type => type.heads
  | .error _ => []

end TypeRef

namespace ModelElement

/-- The types that the classes of an element are generated from, as text. -/
def typeTexts (e : ModelElement) : List String :=
  e.declaration.properties.map (·.type) ++
    e.attached.flatMap (fun p => [p.valueType, p.elementType]) ++ e.declaration.baseType?.toList

/-- The generic names in the types of an element. -/
def heads (e : ModelElement) : List String :=
  e.typeTexts.flatMap TypeRef.headsOfText

/-- An element apart from where it comes from. -/
def withoutSource (e : ModelElement) : ModelElement where
  declaration := { e.declaration with sourceFile := none }
  companion := e.companion.map fun c => { c with sourceFile := none }
  attached := e.attached

/-- No element declares a dotted name. -/
def Undotted (elements : List ModelElement) : Prop :=
  ∀ d ∈ elements.flatMap declarations, '.' ∉ d.name.toList

instance (elements : List ModelElement) : Decidable (Undotted elements) := by
  unfold Undotted
  infer_instance

end ModelElement

namespace Target

/-! ## Exchanging the registry -/

/-- The target with another registry. -/
def withKnown (t : Target) (known : Registry String) : Target := { t with known := known }

@[simp] theorem known_withKnown (t : Target) (known : Registry String) :
    (t.withKnown known).known = known := rfl

/-- A registry follows the marker rule and holds no dotted names. -/
structure Plain (known : Registry String) : Prop where
  followsMarker : FollowsMarker known
  undotted : ∀ name, known.contains name = true → '.' ∉ name.toList

/-- What is known of elements without dots in their names is plain. -/
theorem plain_knownOf {elements : List ModelElement} (h : ModelElement.Undotted elements) :
    Plain (knownOf elements) where
  followsMarker := followsMarker_knownOf elements
  undotted name hknown := by
    rw [contains_knownOf, List.any_eq_true] at hknown
    obtain ⟨d, hd, hname⟩ := hknown
    simp only [Bool.and_eq_true, beq_iff_eq] at hname
    rw [← hname.1]
    exact h d hd

variable {t : Target} {known : Registry String}

/-- Plain names are mapped by the marker rule, whatever is known. -/
theorem mapName_plain (ht : Plain t.known) (hknown : Plain known) (name : String) :
    t.mapName name false = (t.withKnown known).mapName name false := by
  rw [mapName_eq ht.followsMarker, mapName_eq hknown.followsMarker]
  by_cases hdot : '.' ∈ name.toList
  · have h₁ : t.known.contains name = false := by
      cases h : t.known.contains name with
      | false => rfl
      | true => exact absurd hdot (ht.undotted name h)
    have h₂ : known.contains name = false := by
      cases h : known.contains name with
      | false => rfl
      | true => exact absurd hdot (hknown.undotted name h)
    simp only [known_withKnown, h₁, h₂]
  · simp [hdot]

/-- A type is mapped alike by what agrees on its heads. -/
theorem mapTypeRef_congr (ht : Plain t.known) (hknown : Plain known) (type : TypeRef)
    (h : ∀ head ∈ type.heads, t.known.contains head = known.contains head) :
    t.mapTypeRef type = (t.withKnown known).mapTypeRef type := by
  refine TypeRef.mapNames_congr (mapName_plain ht hknown) type fun head hhead => ?_
  rw [mapName_eq ht.followsMarker, mapName_eq hknown.followsMarker]
  rw [known_withKnown, h head hhead]

/-- The registries agree on the generic names in a text. -/
theorem map_parse_congr {α : Type} (ht : Plain t.known) (hknown : Plain known) (text : String)
    (h : ∀ head ∈ TypeRef.headsOfText text, t.known.contains head = known.contains head)
    (use : TypeRef → TypeRef → α) :
    (TypeRef.parse text).map (fun type => use type (t.mapTypeRef type)) =
      (TypeRef.parse text).map fun type => use type ((t.withKnown known).mapTypeRef type) := by
  cases hparse : TypeRef.parse text with
  | error e => rfl
  | ok type =>
      have hheads : TypeRef.headsOfText text = type.heads := by simp [TypeRef.headsOfText, hparse]
      rw [hheads] at h
      simp [Except.map, mapTypeRef_congr ht hknown type h]

/-- A text is backed alike by what agrees on the heads of its type. -/
theorem ofText_congr (ht : Plain t.known) (hknown : Plain known) (text : String)
    (h : ∀ head ∈ TypeRef.headsOfText text, t.known.contains head = known.contains head) :
    Backing.ofText t text = Backing.ofText (t.withKnown known) text :=
  map_parse_congr ht hknown text h fun type mapped =>
    (⟨type, mapped, Backing.wrapperOf t type⟩ : Backing)

theorem mapType_congr (ht : Plain t.known) (hknown : Plain known) (text : String)
    (h : ∀ head ∈ TypeRef.headsOfText text, t.known.contains head = known.contains head) :
    t.mapType text = (t.withKnown known).mapType text :=
  map_parse_congr ht hknown text h fun _ mapped => mapped.render

end Target

/-! ## Generation -/

open Target

theorem allOrFault_congr {α β : Type} {f g : α → Except Fault β} {xs : List α}
    (h : ∀ x ∈ xs, f x = g x) : allOrFault f xs = allOrFault g xs := by
  induction xs with
  | nil => rfl
  | cons x xs ih =>
      rw [allOrFault, allOrFault, h x List.mem_cons_self,
        ih fun y hy => h y (List.mem_cons_of_mem x hy)]

namespace ClassSet

variable {t : Target} {known : Registry String}

/-- The names of an element do not depend on what else is known. -/
theorem namesOf_congr (ht : Plain t.known) (hknown : Plain known) (e : ModelElement) :
    namesOf t e = namesOf (t.withKnown known) e := by
  have hclass : ∀ name, t.className name = (t.withKnown known).className name := fun name => by
    rw [className_eq_strip ht.followsMarker,
      className_eq_strip (t := t.withKnown known) hknown.followsMarker]
  have hvariable : ∀ name, t.variableName name = (t.withKnown known).variableName name :=
    fun name => by rw [variableName, variableName, hclass]
  unfold namesOf
  rw [hclass, hvariable]
  rfl

/-- The base class depends on what is known of the heads of the base type only. -/
theorem baseClass_congr (ht : Plain t.known) (hknown : Plain known) (className : String)
    (d : Declaration)
    (h : ∀ base, d.baseType? = some base → ∀ head ∈ TypeRef.headsOfText base,
      t.known.contains head = known.contains head) :
    baseClass t className d = baseClass (t.withKnown known) className d := by
  unfold baseClass
  cases hbase : d.baseType? with
  | none => rfl
  | some base =>
      simp only [mapType_congr ht hknown base (h base hbase)]
      rfl

/-- A registry may be exchanged for another that knows the same generic names of the element. -/
theorem ofElement_congr (ht : Plain t.known) (hknown : Plain known) (e : ModelElement)
    (h : ∀ head ∈ e.heads, t.known.contains head = known.contains head) :
    ofElement t e = ofElement (t.withKnown known) e := by
  have htext : ∀ text ∈ e.typeTexts, ∀ head ∈ TypeRef.headsOfText text,
      t.known.contains head = known.contains head := fun text htext head hhead =>
    h head (List.mem_flatMap.2 ⟨text, htext, hhead⟩)
  have hproperties : allOrFault (BackedProperty.ofProperty t) e.declaration.properties =
      allOrFault (BackedProperty.ofProperty (t.withKnown known)) e.declaration.properties := by
    refine allOrFault_congr fun p hp => ?_
    have hmem : p.type ∈ e.typeTexts := by
      simp only [ModelElement.typeTexts, List.mem_append, List.mem_map]
      exact .inl (.inl ⟨p, hp, rfl⟩)
    rw [BackedProperty.ofProperty, BackedProperty.ofProperty,
      ofText_congr ht hknown p.type (htext _ hmem)]
  have hattached : allOrFault (BackedAttached.ofAttached t) e.attached =
      allOrFault (BackedAttached.ofAttached (t.withKnown known)) e.attached := by
    refine allOrFault_congr fun p hp => ?_
    have hmem : ∀ text ∈ [p.valueType, p.elementType], text ∈ e.typeTexts := by
      intro text htext
      simp only [ModelElement.typeTexts, List.mem_append, List.mem_flatMap]
      exact .inl (.inr ⟨p, hp, htext⟩)
    rw [BackedAttached.ofAttached, BackedAttached.ofAttached,
      ofText_congr ht hknown p.valueType (htext _ (hmem _ (by simp))),
      ofText_congr ht hknown p.elementType (htext _ (hmem _ (by simp)))]
  have hbase : ∀ className, baseClass t className e.declaration =
      baseClass (t.withKnown known) className e.declaration := fun className =>
    baseClass_congr ht hknown className e.declaration fun base hb => htext base (by
      simp [ModelElement.typeTexts, hb])
  simp only [ofElement, namesOf_congr ht hknown e, hproperties, hattached, hbase]
  rfl

/-- Where the declarations of an element come from does not matter. -/
theorem ofElement_withoutSource (t : Target) (e : ModelElement) :
    ofElement t e.withoutSource = ofElement t e := by
  obtain ⟨d, companion, attached⟩ := e
  cases companion <;> rfl

end ClassSet

/-- What is generated for an element depends on what is known of its heads only. -/
theorem generate_congr {t : Target} {known : Registry String} (ht : Plain t.known)
    (hknown : Plain known) (e : ModelElement)
    (h : ∀ head ∈ e.heads, t.known.contains head = known.contains head) :
    generate t e = generate (t.withKnown known) e := by
  unfold generate
  rw [ClassSet.ofElement_congr ht hknown e h]
  rfl

/-- Where an element was read makes no difference. -/
theorem generate_withoutSource (t : Target) (e : ModelElement) :
    generate t e.withoutSource = generate t e := by
  unfold generate
  rw [ClassSet.ofElement_withoutSource]

/-- The files of an element, or the fault that prevents them, are the same in any two models that agree
on which generic names in the types of the element are declared.  Neither the other elements nor their
order matter otherwise, and nor does the file that the element comes from. -/
theorem generate_local (c : Config) (settings : Settings) (platform : String)
    {e e' : ModelElement} {model model' : List ModelElement}
    (hsource : e.withoutSource = e'.withoutSource)
    (hmodel : ModelElement.Undotted model) (hmodel' : ModelElement.Undotted model')
    (hheads : ∀ head ∈ e.heads,
      (knownOf model).contains head = (knownOf model').contains head) :
    (do generate (← c.target settings model platform) e) =
      (do generate (← c.target settings model' platform) e') := by
  rw [Config.target_eq_map, Config.target_eq_map]
  cases Platform.ofName (if platform = "" then c.platform else platform) with
  | error fault => rfl
  | ok p =>
      show generate (c.targetOn settings model p) e = generate (c.targetOn settings model' p) e'
      rw [generate_congr (t := c.targetOn settings model p) (plain_knownOf hmodel)
        (plain_knownOf hmodel') e hheads]
      rw [← generate_withoutSource _ e, ← generate_withoutSource _ e', hsource]
      rfl

/-! An interface with a property of a generic type, read from one file or another, alone or after the
interface that its type mentions. -/

private def lineFrom (file : String) : ModelElement where
  declaration :=
    ⟨"ILine", "M", [], [⟨"Brushes", "IList<IBrush>", none, true, []⟩], [], ["IShape<IBrush>"],
      some ⟨0, [file]⟩⟩
  companion := none
  attached := []

private def brushElement : ModelElement where
  declaration := ⟨"IBrush", "M", [], [], [], [], none⟩
  companion := none
  attached := []

private def lineConfig : Config where
  inputs := []
  outputRoot := ⟨0, ["src"]⟩
  platform := "wpf"
  rootNamespace := "M"
  collections := .empty
  verbose := false
  logDirectory := none

theorem generate_local_line :
    let line := lineFrom "a.cs"
    let line' := lineFrom "b.cs"
    line.withoutSource = line'.withoutSource ∧ ModelElement.Undotted [line] ∧
      ModelElement.Undotted [brushElement, line'] ∧ line.heads = ["IList", "IShape"] ∧
        (∀ head ∈ line.heads,
          (knownOf [line]).contains head = (knownOf [brushElement, line']).contains head) ∧
          (do generate (← lineConfig.target .default [line] "") line) =
            (do generate (← lineConfig.target .default [brushElement, line'] "") line') := by
  intro line line'
  have hsource : line.withoutSource = line'.withoutSource := by decide +kernel
  have hmodel : ModelElement.Undotted [line] := by decide +kernel
  have hmodel' : ModelElement.Undotted [brushElement, line'] := by decide +kernel
  have hheads : line.heads = ["IList", "IShape"] := by decide +kernel
  have hknown : ∀ head ∈ line.heads,
      (knownOf [line]).contains head = (knownOf [brushElement, line']).contains head := by
    decide +kernel
  exact ⟨hsource, hmodel, hmodel', hheads, hknown,
    generate_local lineConfig .default "" hsource hmodel hmodel' hknown⟩

end PlatformClasses
