import Mathlib.Algebra.Order.BigOperators.Group.List
import Mathlib.Algebra.Order.Ring.Nat
import PlatformClasses.ClassFile.Member
import PlatformClasses.Proofs.Backing.Defaults
import PlatformClasses.Proofs.Run.PlatformOrder
import PlatformClasses.Proofs.Target.MappedTypes

/-!
# Types that are backed by other types

A property is implemented by converting where the texts of the declared and of the backing type differ.
The texts of different references can be equal in general: a name may be mapped to a text with brackets of
its own.  But a target of a run keeps a name or takes its marker away, so it never makes a name longer, and
the text of a reference is as long as its names and its shape together (`length_render`).  Mapping keeps
the shape, so what one name loses cannot be gained by another, and the texts are equal only if every name is
kept (`render_mapNames_eq_iff`).  A wrapper is longer than the name of the type that it wraps.  Therefore
texts differ exactly where a type is wrapped or some name in it is changed (`differs_iff`).
-/

namespace PlatformClasses

namespace TypeRef

/-! ## The length of a text -/

/-- The lengths of names, taken together. -/
def lengthOfNames (names : List (String × Bool)) : Nat := (names.map fun n => n.1.length).sum

theorem lengthOfNames_append (names names' : List (String × Bool)) :
    lengthOfNames (names ++ names') = lengthOfNames names + lengthOfNames names' := by
  simp [lengthOfNames]

mutual
/-- The text of a reference consists of its names and of what its shape says. -/
theorem length_render : ∀ t : TypeRef,
    t.render.length = t.shape.render.length + lengthOfNames t.names
  | mk name arguments nullable ranks => by
      have harguments := length_renderArguments arguments
      simp only [shape, mapNames, names, render, String.length_append]
      simp only [lengthOfNames, List.map_cons, List.sum_cons, String.length_empty] at harguments ⊢
      omega

theorem length_renderArguments : ∀ ts : List TypeRef, (renderArguments ts).length =
    (renderArguments (mapNamesAll (fun _ _ => "") ts)).length + lengthOfNames (namesOfAll ts)
  | [] => rfl
  | t :: rest => by
      have ht : t.render.length = (mapNames (fun _ _ => "") t).render.length + lengthOfNames t.names :=
        length_render t
      have hrest := length_renderRest rest
      simp only [mapNamesAll, renderArguments, namesOfAll, String.length_append, lengthOfNames_append]
      omega

theorem length_renderRest : ∀ ts : List TypeRef, (renderRest ts).length =
    (renderRest (mapNamesAll (fun _ _ => "") ts)).length + lengthOfNames (namesOfAll ts)
  | [] => rfl
  | t :: rest => by
      have ht : t.render.length = (mapNames (fun _ _ => "") t).render.length + lengthOfNames t.names :=
        length_render t
      have hrest := length_renderRest rest
      simp only [mapNamesAll, renderRest, namesOfAll, String.length_append, lengthOfNames_append]
      omega
end

/-! ## Maps that keep or shorten names -/

section Mapping

variable {f : String → Bool → String}

mutual
theorem mapNames_eq_self : ∀ t : TypeRef, (∀ n ∈ t.names, f n.1 n.2 = n.1) → t.mapNames f = t
  | mk name arguments nullable ranks, h => by
      rw [names, List.forall_mem_cons] at h
      rw [mapNames, h.1, mapNamesAll_eq_self arguments h.2]

theorem mapNamesAll_eq_self : ∀ ts : List TypeRef, (∀ n ∈ namesOfAll ts, f n.1 n.2 = n.1) →
    mapNamesAll f ts = ts
  | [], _ => rfl
  | t :: rest, h => by
      rw [namesOfAll, List.forall_mem_append] at h
      rw [mapNamesAll, mapNames_eq_self t h.1, mapNamesAll_eq_self rest h.2]
end

/-- Where names are kept or get shorter, a text with a shorter name is shorter. -/
theorem length_render_mapNames_lt (hf : ∀ name g, f name g = name ∨ (f name g).length < name.length)
    {t : TypeRef} (h : ∃ n ∈ t.names, f n.1 n.2 ≠ n.1) : (t.mapNames f).render.length < t.render.length := by
  have hle : ∀ n ∈ t.names, (f n.1 n.2).length ≤ n.1.length := by
    intro n _
    rcases hf n.1 n.2 with hkept | hshorter
    · rw [hkept]
    · exact hshorter.le
  have hlt : ∃ n ∈ t.names, (f n.1 n.2).length < n.1.length := by
    obtain ⟨n, hn, hchanged⟩ := h
    exact ⟨n, hn, (hf n.1 n.2).resolve_left hchanged⟩
  have hnames : lengthOfNames (t.mapNames f).names < lengthOfNames t.names := by
    rw [names_mapNames, lengthOfNames, List.map_map]
    exact List.sum_lt_sum _ _ hle hlt
  rw [length_render t, length_render (t.mapNames f), shape_mapNames]
  omega

/-- What one name loses is not made up for by another. -/
theorem render_mapNames_eq_iff (hf : ∀ name g, f name g = name ∨ (f name g).length < name.length)
    (t : TypeRef) : (t.mapNames f).render = t.render ↔ ∀ n ∈ t.names, f n.1 n.2 = n.1 := by
  constructor
  · intro heq
    by_contra hchanged
    push Not at hchanged
    have hlt := length_render_mapNames_lt hf hchanged
    rw [heq] at hlt
    exact absurd hlt (Nat.lt_irrefl _)
  · intro hkept
    rw [mapNames_eq_self t hkept]

end Mapping

end TypeRef

namespace Target

open TypeRef

/-- A name is kept, or gets shorter by its marker. -/
theorem mapName_eq_or_length_lt {t : Target} (ht : FollowsMarker t.known) (name : String)
    (isGeneric : Bool) :
    t.mapName name isGeneric = name ∨ (t.mapName name isGeneric).length < name.length := by
  rw [mapName_eq ht]
  split
  · exact .inl rfl
  · cases hstrip : Marker.strip? name with
    | none => exact .inl rfl
    | some stripped =>
        right
        rw [Marker.eq_append_of_strip? hstrip, String.length_append, Option.getD_some]
        show stripped.length < 1 + stripped.length
        omega

/-- A type is changed: the platform wraps it, which has neither arguments nor marks then, or some name in
it is mapped to another one. -/
def Changes (t : Target) (type : TypeRef) : Prop :=
  (∃ name ∈ t.platform.wrappedTypes, type = .mk name [] false []) ∨
    ∃ n ∈ type.names, t.mapName n.1 n.2 ≠ n.1

end Target

namespace Backing

open TypeRef

/-- The backing type as a reference: that to the wrapper if there is one. -/
def reference (b : Backing) : TypeRef :=
  match b.wrapper with
  | some wrapper => .mk wrapper [] false []
  | none => b.destination

theorem render_reference (b : Backing) : b.reference.render = b.text := by
  unfold reference text
  cases b.wrapper with
  | none => rfl
  | some wrapper => simp [render, renderArguments, rankText]

theorem wrapperOf_eq_some_iff {t : Target} {type : TypeRef} {wrapper : String} :
    wrapperOf t type = some wrapper ↔ ∃ name ∈ t.platform.wrappedTypes,
      type = .mk name [] false [] ∧ wrapper = name ++ t.platform.wrapperEnding := by
  obtain ⟨name, arguments, nullable, ranks⟩ := type
  rw [wrapperOf, Platform.wrapper?, Option.ite_none_left_eq_some, Option.ite_none_right_eq_some,
    Option.some.injEq]
  constructor
  · rintro ⟨hplain, hwrapped, rfl⟩
    obtain ⟨⟨rfl, rfl⟩, rfl⟩ : (arguments = [] ∧ ranks = []) ∧ nullable = false := by
      simpa [isGeneric, TypeRef.isArray, TypeRef.arguments, TypeRef.ranks, TypeRef.nullable]
        using hplain
    exact ⟨name, by simpa [TypeRef.name] using hwrapped, rfl, rfl⟩
  · rintro ⟨name', hname', htype, rfl⟩
    obtain ⟨rfl, rfl, rfl, rfl⟩ := TypeRef.mk.inj htype
    simp [isGeneric, TypeRef.isArray, TypeRef.arguments, TypeRef.ranks, TypeRef.nullable, TypeRef.name,
      hname']

/-- Wrappers are not named like what they wrap. -/
theorem wrapperEnding_ne_empty {p : Platform} (h : p ∈ Platform.all) : p.wrapperEnding ≠ "" := by
  revert p
  decide

/-- The texts of the declared and of the backing type are equal only if the references are. -/
theorem ofTypeRef_differs_iff {t : Target} (ht : Target.FollowsMarker t.known)
    (hplatform : t.platform ∈ Platform.all) (type : TypeRef) :
    ((ofTypeRef t type).differs = true ↔ t.Changes type) ∧
      ((ofTypeRef t type).differs = true ↔ (ofTypeRef t type).reference ≠ type) := by
  have hdiffers : (ofTypeRef t type).differs = true ↔
      (ofTypeRef t type).reference.render ≠ type.render := by
    rw [render_reference, differs, bne_iff_ne]
    rfl
  rw [hdiffers]
  cases hwrapper : wrapperOf t type with
  | some wrapper =>
      obtain ⟨name, hname, rfl, rfl⟩ := wrapperOf_eq_some_iff.1 hwrapper
      have hreference : (ofTypeRef t (.mk name [] false [])).reference =
          .mk (name ++ t.platform.wrapperEnding) [] false [] := by
        rw [reference, ofTypeRef, hwrapper]
      have hother : name ++ t.platform.wrapperEnding ≠ name := by
        simpa using wrapperEnding_ne_empty hplatform
      rw [hreference]
      refine ⟨iff_of_true ?_ (.inl ⟨name, hname, rfl⟩), iff_of_true ?_ ?_⟩
      · simpa [render, renderArguments, rankText] using hother
      · simpa [render, renderArguments, rankText] using hother
      · simpa using hother
  | none =>
      have hreference : (ofTypeRef t type).reference = type.mapNames t.mapName := by
        rw [reference, ofTypeRef, hwrapper]
        rfl
      have hunwrapped : ¬∃ name ∈ t.platform.wrappedTypes, type = .mk name [] false [] := by
        rintro ⟨name, hname, htype⟩
        have hsome := wrapperOf_eq_some_iff.2 ⟨name, hname, htype, rfl⟩
        rw [hwrapper] at hsome
        simp at hsome
      have hrender := render_mapNames_eq_iff (Target.mapName_eq_or_length_lt ht) type
      rw [hreference, Target.Changes, or_iff_right hunwrapped]
      constructor
      · rw [ne_eq, hrender]
        push Not
        rfl
      · rw [ne_eq, not_iff_not]
        exact ⟨fun heq => mapNames_eq_self type (hrender.1 heq), congrArg render⟩

/-- Every accepted type has a backing type, and the declared property is implemented by converting if and
only if the platform wraps the type or some name in it is mapped to another one.  The texts of the
declared and of the backing type differ where the references do. -/
theorem differs_iff {config : Config} {settings : Settings} {elements : List ModelElement}
    {platform : String} {t : Target} (ht : config.target settings elements platform = .ok t)
    {text : String} {type : TypeRef} (h : parse text = .ok type) :
    ∃ b, ofText t text = .ok b ∧ b.source = type ∧
      (b.differs = true ↔ t.Changes type) ∧
        (∀ interfaceName property,
          (Accessor.ofProperty interfaceName b property).conversion.isSome = true ↔ t.Changes type) ∧
            b.reference.render = b.text ∧ (b.text = b.sourceText ↔ b.reference = b.source) := by
  have hplatform : t.platform ∈ Platform.all := by
    rw [Config.target_eq_map] at ht
    obtain ⟨p, hp, rfl⟩ := map_eq_ok.1 ht
    exact Platform.mem_all_of_ofName hp
  obtain ⟨hchanges, hreference⟩ :=
    ofTypeRef_differs_iff (Config.followsMarker_of_target ht) hplatform type
  refine ⟨ofTypeRef t type, ofText_eq_ok.2 ⟨type, h, rfl⟩, rfl, hchanges, ?_, render_reference _, ?_⟩
  · intro interfaceName property
    rw [← hchanges, Accessor.ofProperty]
    split
    · next hdiffers => exact iff_of_true rfl hdiffers
    · next hsame => exact iff_of_false Bool.false_ne_true hsame
  · rw [differs, bne_iff_ne] at hreference
    exact not_iff_not.1 hreference

/-! A type with a known name deep in it, which no other name makes up for. -/

private def brushesConfig : Config where
  inputs := []
  outputRoot := ⟨0, ["out"]⟩
  platform := "maui"
  rootNamespace := "M"
  collections := .empty
  verbose := false
  logDirectory := none

private def brushesTarget : Target := brushesConfig.targetOn .default [] .maui

private def brushesByColor : TypeRef :=
  .mk "IDictionary" [.mk "Color" [] false [], .mk "IList" [.mk "IBrush" [] true [""]] false []] false []

theorem differs_of_dictionary :
    brushesConfig.target .default [] "" = .ok brushesTarget ∧
      parse "IDictionary<Color, IList<IBrush?[]>>" = .ok brushesByColor ∧
        ∃ b, ofText brushesTarget "IDictionary<Color, IList<IBrush?[]>>" = .ok b ∧
          b.differs = true ∧ b.text ≠ b.sourceText := by
  have htarget : brushesConfig.target .default [] "" = .ok brushesTarget := rfl
  have hparse : parse "IDictionary<Color, IList<IBrush?[]>>" = .ok brushesByColor := by
    decide +kernel
  obtain ⟨b, hb, -, hdiffers, -⟩ := differs_iff htarget hparse
  have hmapped : brushesTarget.mapName "IBrush" false ≠ "IBrush" := by decide +kernel
  have hchanges : brushesTarget.Changes brushesByColor :=
    .inr ⟨("IBrush", false), by decide, hmapped⟩
  refine ⟨htarget, hparse, b, hb, hdiffers.2 hchanges, ?_⟩
  simpa [differs] using hdiffers.2 hchanges

end Backing

end PlatformClasses
