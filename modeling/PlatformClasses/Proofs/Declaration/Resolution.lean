import Mathlib.Data.List.Perm.Basic
import PlatformClasses.Proofs.Declaration.Faults
import PlatformClasses.Proofs.Declaration.Pairing

/-!
# What becomes of the methods of an attached interface

The accessors of the attached properties are the methods that are kept, and these are all of the methods
if and only if no two have the same name (`methods_paired_once_iff`).

If no two have, nothing depends on the order of the methods: they are accepted if and only if they are
`Resolvable`, and an attached property is a getter with the setter of its property (`IsMadeOf`).  The
registry of a kind then holds the methods of that kind in their order (`Accessors.InOrder`), and so the
attached properties come in the order of the getters (`ofDeclaration_order_free`).
-/

namespace PlatformClasses

namespace Registry

theorem set_of_fresh {α : Type} {name : String} (value : α) {entries : List (String × α)}
    (h : ∀ entry ∈ entries, entry.1 ≠ name) :
    set name value entries = entries ++ [(name, value)] := by
  induction entries with
  | nil => rfl
  | cons first rest ih =>
      have hfirst : first.1 ≠ name := h first List.mem_cons_self
      simp [set, hfirst, ih fun entry hentry => h entry (List.mem_cons_of_mem _ hentry)]

end Registry

namespace AttachedProperty

/-! ## Every method once -/

/-- Pairing fails at most for the structure of the interface.  If it succeeds, the accessors of the
attached properties are the methods that no later one of their name replaces; so each method is an
accessor of exactly one attached property if and only if no two methods have the same name. -/
theorem methods_paired_once_iff (d : Declaration) :
    (∀ fault, ofDeclaration d = .error fault → fault.category = .structural) ∧
      ∀ attached, ofDeclaration d = .ok attached →
        (attached.flatMap accessors).Perm (kept d.methods) ∧
          ((attached.flatMap accessors).Perm d.methods ↔ (d.methods.map (·.name)).Nodup) := by
  refine ⟨onlyStructural_ofDeclaration d, ?_⟩
  intro attached h
  have hperm := (paired_kept h).accessors_perm (nodup_names_kept d.methods)
  refine ⟨hperm, ?_⟩
  rw [← kept_perm_iff]
  exact ⟨hperm.symm.trans, hperm.trans⟩

/-! A canvas with a setter before its getter, a property whose name starts like an accessor, and types of
different spacing; and one with two getters of one name. -/

private def getterOf (property returnType elementType : String) : Method :=
  ⟨"Get" ++ property, returnType, [⟨"element", elementType⟩]⟩

private def setterOf (property valueType : String) : Method :=
  ⟨"Set" ++ property, "void", [⟨"element", "IElement"⟩, ⟨"value", valueType⟩]⟩

private def attachedTo (methods : List Method) : Declaration :=
  ⟨"ICanvasAttached", "Microsoft.StandardUI", [], [], methods, [], none⟩

private def canvasMethods : List Method :=
  [setterOf "Top" "double", getterOf "Left" "double" "IElement",
    getterOf "SetX" "IList<int>" "IElement", getterOf "Top" "double" "IElement",
    setterOf "SetX" "IList< int >"]

private def canvasProperties : List AttachedProperty :=
  [⟨"Left", getterOf "Left" "double" "IElement", none⟩,
    ⟨"SetX", getterOf "SetX" "IList<int>" "IElement", some (setterOf "SetX" "IList< int >")⟩,
    ⟨"Top", getterOf "Top" "double" "IElement", some (setterOf "Top" "double")⟩]

theorem methods_paired_once_of_canvas :
    ofDeclaration (attachedTo canvasMethods) = .ok canvasProperties ∧
      (canvasMethods.map (·.name)).Nodup ∧
        (canvasProperties.flatMap accessors).Perm canvasMethods := by
  have hpaired : ofDeclaration (attachedTo canvasMethods) = .ok canvasProperties := by
    decide +kernel
  have hnodup : (canvasMethods.map (·.name)).Nodup := by decide +kernel
  have hall := (methods_paired_once_iff (attachedTo canvasMethods)).2 canvasProperties hpaired
  exact ⟨hpaired, hnodup, hall.2.2 hnodup⟩

/-- Of two getters of one name, for elements of different types, the first is accepted and lost. -/
theorem overloaded_getter_lost :
    let overloads := [getterOf "Left" "double" "IElement", getterOf "Left" "double" "IButton"]
    ofDeclaration (attachedTo overloads) = .ok [⟨"Left", getterOf "Left" "double" "IButton", none⟩] ∧
      ¬(([⟨"Left", getterOf "Left" "double" "IButton", none⟩] : List AttachedProperty).flatMap
        accessors).Perm overloads := by
  intro overloads
  refine ⟨by decide +kernel, ?_⟩
  intro hperm
  exact absurd hperm.length_eq (by decide)

/-! ## Methods that can be paired -/

/-- A setter takes what a getter returns, white space apart. -/
def SetsWhatIsGot (getter setter : Method) : Prop :=
  ∃ value, valueParameter? setter = some value ∧
    Text.withoutBlanks value.type = Text.withoutBlanks getter.returnType

/-- Methods that can be paired: each is an accessor, and each setter has a getter, which returns what the
setter takes. -/
structure Resolvable (methods : List Method) : Prop where
  accessor : ∀ m ∈ methods, ∃ kind property, IsAccessor kind property m
  getter : ∀ setter ∈ methods, ∀ property, setter.name = "Set" ++ property →
    ∃ getter ∈ methods, getter.name = "Get" ++ property
  valueType : ∀ getter ∈ methods, ∀ setter ∈ methods, ∀ property,
    getter.name = "Get" ++ property → setter.name = "Set" ++ property → SetsWhatIsGot getter setter

theorem Resolvable.perm {methods methods' : List Method} (h : Resolvable methods)
    (hperm : methods'.Perm methods) : Resolvable methods' where
  accessor m hm := h.accessor m (hperm.mem_iff.1 hm)
  getter setter hsetter property hname := by
    obtain ⟨getter, hgetter, hgetterName⟩ := h.getter setter (hperm.mem_iff.1 hsetter) property hname
    exact ⟨getter, hperm.mem_iff.2 hgetter, hgetterName⟩
  valueType getter hgetter setter hsetter :=
    h.valueType getter (hperm.mem_iff.1 hgetter) setter (hperm.mem_iff.1 hsetter)

/-- An attached property has a method as its getter, and as its setter the one that sets the same
property, if there is one. -/
structure IsMadeOf (methods : List Method) (m : Method) (p : AttachedProperty) : Prop where
  getter : p.getter = m
  name : m.name = "Get" ++ p.name
  setter : ∀ setter, p.setter = some setter ↔ setter ∈ methods ∧ setter.name = "Set" ++ p.name

/-- A getter and the other methods determine the attached property. -/
theorem IsMadeOf.eq {methods : List Method} {getter : Method} {p p' : AttachedProperty}
    (h : IsMadeOf methods getter p) (h' : IsMadeOf methods getter p') : p = p' := by
  have hname : p.name = p'.name :=
    (String.append_right_inj _).1 (h.name.symm.trans h'.name)
  have hsetter : p.setter = p'.setter := by
    apply Option.ext
    intro m
    rw [h.setter, h'.setter, hname]
  obtain ⟨name, got, setter⟩ := p
  obtain ⟨name', got', setter'⟩ := p'
  obtain rfl : name = name' := hname
  obtain rfl : setter = setter' := hsetter
  obtain rfl : got = got' := h.getter.trans h'.getter.symm
  rfl

theorem IsMadeOf.perm {methods methods' : List Method} {getter : Method} {p : AttachedProperty}
    (h : IsMadeOf methods getter p) (hperm : methods'.Perm methods) :
    IsMadeOf methods' getter p :=
  ⟨h.getter, h.name, fun m => by rw [h.setter, hperm.mem_iff]⟩

/-! ## Methods of different names -/

/-- The entry of a method in the registry of a kind of accessors, if it is of that kind. -/
def entryOf (kind : AccessorKind) (m : Method) : Option (String × Method) :=
  match accessorOf? m.name with
  | some (k, property) => if k = kind then some (property, m) else none
  | none => none

theorem entryOf_eq_some_iff {kind : AccessorKind} {m : Method} {entry : String × Method} :
    entryOf kind m = some entry ↔ m.name = kind.lead ++ entry.1 ∧ m = entry.2 := by
  obtain ⟨property, setter⟩ := entry
  rw [← accessorOf?_eq_some_iff]
  unfold entryOf
  cases accessorOf? m.name with
  | none => simp
  | some found =>
      obtain ⟨k, p⟩ := found
      by_cases hk : k = kind
      · simp [hk, Prod.ext_iff]
      · simp [hk]

theorem mem_entries_iff {kind : AccessorKind} {methods : List Method} {property : String}
    {m : Method} : (property, m) ∈ methods.filterMap (entryOf kind) ↔
      m ∈ methods ∧ m.name = kind.lead ++ property := by
  simp only [List.mem_filterMap, entryOf_eq_some_iff]
  constructor
  · rintro ⟨m, hm, hname, rfl⟩
    exact ⟨hm, hname⟩
  · rintro ⟨hm, hname⟩
    exact ⟨m, hm, hname, rfl⟩

theorem nodup_properties {methods : List Method} (h : (methods.map (·.name)).Nodup)
    (kind : AccessorKind) : ((methods.filterMap (entryOf kind)).map (·.1)).Nodup := by
  rw [List.Nodup, List.pairwise_map] at h ⊢
  refine List.Pairwise.filterMap _ ?_ h
  intro m m' hne entry hentry entry' hentry' heq
  rw [(entryOf_eq_some_iff.1 hentry).1, (entryOf_eq_some_iff.1 hentry').1, heq] at hne
  exact hne rfl

namespace Accessors

/-- Each registry holds the methods of its kind, in their order. -/
def InOrder (a : Accessors) (methods : List Method) : Prop :=
  ∀ kind, (a.ofKind kind).entries = methods.filterMap (entryOf kind)

/-- Putting in a method of a new name adds one entry to the registry of its kind. -/
theorem InOrder.put {a : Accessors} {methods : List Method} (ha : a.InOrder methods)
    {kind : AccessorKind} {property : String} {m : Method} (hm : IsAccessor kind property m)
    (hfresh : ∀ m' ∈ methods, m'.name ≠ m.name) :
    (a.put kind property m).InOrder (methods ++ [m]) := by
  intro other
  rw [List.filterMap_append]
  by_cases hkind : other = kind
  · subst hkind
    have hnew : ∀ entry ∈ methods.filterMap (entryOf other), entry.1 ≠ property := by
      rintro ⟨property', m'⟩ hentry rfl
      obtain ⟨hm', hname'⟩ := mem_entries_iff.1 hentry
      exact hfresh m' hm' (hname'.trans hm.name.symm)
    have hentry : entryOf other m = some (property, m) := entryOf_eq_some_iff.2 ⟨hm.name, rfl⟩
    rw [ofKind_put_self, Registry.insert, ha other, Registry.set_of_fresh m hnew]
    simp [hentry]
  · have hentry : entryOf other m = none := by
      simp [entryOf, accessorOf?_eq_some_iff.2 hm.name, Ne.symm hkind]
    rw [ofKind_put_of_ne a hkind, ha other]
    simp [hentry]

/-- Methods of different names are put in one after the other, and none is replaced. -/
theorem InOrder.ofMethods {owner : String} {a a' : Accessors} {done methods : List Method}
    (ha : a.InOrder done) (hnodup : ((done ++ methods).map (·.name)).Nodup)
    (h : Accessors.ofMethods owner a methods = .ok a') : a'.InOrder (done ++ methods) := by
  induction methods generalizing a done with
  | nil =>
      cases h
      rwa [List.append_nil]
  | cons m rest ih =>
      obtain ⟨kind, property, hm, hrest⟩ := ofMethods_cons_eq_ok_iff.1 h
      have hsplit : done ++ m :: rest = done ++ [m] ++ rest := by simp
      have hfresh : ∀ m' ∈ done, m'.name ≠ m.name := by
        intro m' hm' heq
        rw [List.map_append, List.nodup_append'] at hnodup
        refine hnodup.2.2 (List.mem_map_of_mem hm') ?_
        rw [heq, List.map_cons]
        exact List.mem_cons_self
      rw [hsplit] at hnodup ⊢
      exact ih (ha.put hm hfresh) hnodup hrest

theorem inOrder_of_ofMethods {owner : String} {a : Accessors} {methods : List Method}
    (hnodup : (methods.map (·.name)).Nodup)
    (h : ofMethods owner ⟨.empty, .empty⟩ methods = .ok a) : a.InOrder methods := by
  have hnone : (⟨.empty, .empty⟩ : Accessors).InOrder [] := by
    intro kind
    cases kind <;> rfl
  exact hnone.ofMethods hnodup h

theorem InOrder.get?_eq_some_iff {a : Accessors} {methods : List Method} (ha : a.InOrder methods)
    (hnodup : (methods.map (·.name)).Nodup) (kind : AccessorKind) {property : String} {m : Method} :
    (a.ofKind kind).get? property = some m ↔ m ∈ methods ∧ m.name = kind.lead ++ property := by
  rw [← AttachedProperty.mem_entries_iff, ← ha kind]
  refine ⟨Registry.mem_of_find, Registry.find_of_mem ?_⟩
  rw [ha kind]
  exact nodup_properties hnodup kind

end Accessors

/-- The entries of the getters are the methods whose names start with `Get`, in their order. -/
theorem forall₂_getters (methods : List Method) :
    List.Forall₂ (fun m e => e.2 = m ∧ m.name = "Get" ++ e.1)
      (methods.filter fun m => Text.hasLead "Get" m.name) (methods.filterMap (entryOf .getter)) := by
  induction methods with
  | nil => exact .nil
  | cons m rest ih =>
      cases hlead : Text.hasLead "Get" m.name with
      | true =>
          obtain ⟨property, hname⟩ := Text.hasLead_eq_true_iff.1 hlead
          have hentry : entryOf .getter m = some (property, m) :=
            entryOf_eq_some_iff.2 ⟨hname, rfl⟩
          rw [List.filter_cons, if_pos hlead, List.filterMap_cons_some hentry]
          exact .cons ⟨rfl, hname⟩ ih
      | false =>
          have hentry : entryOf .getter m = none := by
            cases h : entryOf .getter m with
            | none => rfl
            | some e =>
                have hname : m.name = "Get" ++ e.1 := (entryOf_eq_some_iff.1 h).1
                rw [Text.hasLead_eq_true_iff.2 ⟨e.1, hname⟩] at hlead
                simp at hlead
          rw [List.filter_cons, if_neg (by simp [hlead]), List.filterMap_cons_none hentry]
          exact ih

/-- The attached properties of methods of different names are made of the getters, in their order. -/
theorem isMadeOf_of_ofDeclaration {d : Declaration} (hnodup : (d.methods.map (·.name)).Nodup)
    {attached : List AttachedProperty} (h : ofDeclaration d = .ok attached) :
    List.Forall₂ (IsMadeOf d.methods) (d.methods.filter fun m => Text.hasLead "Get" m.name)
      attached := by
  obtain ⟨a, ha, -, -, rfl⟩ := ofDeclaration_eq_ok_iff.1 h
  have hall := Accessors.inOrder_of_ofMethods hnodup ha
  rw [show a.getters.entries = _ from hall .getter, List.forall₂_map_right_iff]
  refine (forall₂_getters d.methods).imp ?_
  rintro m e ⟨hgetter, hname⟩
  exact ⟨hgetter, hname, fun setter => hall.get?_eq_some_iff hnodup .setter⟩

/-- The check of types, where every setter has a value and a getter. -/
theorem checkValueTypes_eq_ok_iff {owner : String} {getters : Registry Method}
    {setters : List (String × Method)} (hvalue : ∀ entry ∈ setters, ∃ value,
      valueParameter? entry.2 = some value)
    (hgetter : ∀ entry ∈ setters, getters.contains entry.1 = true) :
    checkValueTypes owner getters setters = .ok () ↔
      ∀ entry ∈ setters, ∀ getter ∈ getters.get? entry.1, SetsWhatIsGot getter entry.2 := by
  induction setters with
  | nil => simp [checkValueTypes]
  | cons first rest ih =>
      obtain ⟨value, hvalue₁⟩ := hvalue first List.mem_cons_self
      obtain ⟨getter, hgetter₁⟩ := Option.isSome_iff_exists.1 (hgetter first List.mem_cons_self)
      rw [List.forall_mem_cons, ← ih (fun entry h => hvalue entry (List.mem_cons_of_mem _ h))
        fun entry h => hgetter entry (List.mem_cons_of_mem _ h)]
      by_cases hsame : Text.withoutBlanks value.type = Text.withoutBlanks getter.returnType <;>
        simp [checkValueTypes, SetsWhatIsGot, hvalue₁, hgetter₁, hsame]

/-- The accessors of methods of different names pass the checks if and only if they can be paired. -/
theorem checks_eq_ok_iff {owner : String} {a : Accessors} {methods : List Method}
    (ha : a.InOrder methods) (hnodup : (methods.map (·.name)).Nodup)
    (haccessor : ∀ m ∈ methods, ∃ kind property, IsAccessor kind property m) :
    (checkPaired owner a.getters a.setters.entries = .ok () ∧
      checkValueTypes owner a.getters a.setters.entries = .ok ()) ↔ Resolvable methods := by
  have hsetter : ∀ {property : String} {m : Method},
      (property, m) ∈ a.setters.entries ↔ m ∈ methods ∧ m.name = "Set" ++ property := by
    intro property m
    rw [show a.setters.entries = _ from ha .setter]
    exact mem_entries_iff
  have hgetter : ∀ {property : String} {m : Method},
      a.getters.get? property = some m ↔ m ∈ methods ∧ m.name = "Get" ++ property :=
    ha.get?_eq_some_iff hnodup .getter
  have hvalue : ∀ entry ∈ a.setters.entries, ∃ value, valueParameter? entry.2 = some value := by
    intro entry hentry
    obtain ⟨hmem, hname⟩ := hsetter.1 hentry
    obtain ⟨kind, property, h⟩ := haccessor entry.2 hmem
    obtain ⟨rfl, -⟩ := AccessorKind.lead_append_inj
      (show AccessorKind.setter.lead ++ entry.1 = _ from hname.symm.trans h.name)
    have htwo : entry.2.parameters.length = 2 := h.arity
    have hsecond : 1 < entry.2.parameters.length := by omega
    exact ⟨entry.2.parameters[1], List.getElem?_eq_getElem hsecond⟩
  constructor
  · rintro ⟨hpaired, htypes⟩
    have hcontains := checkPaired_eq_ok_iff.1 hpaired
    refine ⟨haccessor, ?_, ?_⟩
    · intro setter hmem property hname
      obtain ⟨getter, hget⟩ := Option.isSome_iff_exists.1 (hcontains _ (hsetter.2 ⟨hmem, hname⟩))
      exact ⟨getter, hgetter.1 hget⟩
    · intro getter hgetterMem setter hsetterMem property hget hset
      exact (checkValueTypes_eq_ok_iff hvalue hcontains).1 htypes (property, setter)
        (hsetter.2 ⟨hsetterMem, hset⟩) getter (hgetter.2 ⟨hgetterMem, hget⟩)
  · intro h
    have hcontains : ∀ entry ∈ a.setters.entries, a.getters.contains entry.1 = true := by
      intro entry hentry
      obtain ⟨hmem, hname⟩ := hsetter.1 hentry
      obtain ⟨getter, hget⟩ := h.getter entry.2 hmem entry.1 hname
      exact Option.isSome_iff_exists.2 ⟨getter, hgetter.2 hget⟩
    refine ⟨checkPaired_eq_ok_iff.2 hcontains,
      (checkValueTypes_eq_ok_iff hvalue hcontains).2 ?_⟩
    intro entry hentry getter hget
    obtain ⟨hsetterMem, hset⟩ := hsetter.1 hentry
    obtain ⟨hgetterMem, hgot⟩ := hgetter.1 hget
    exact h.valueType getter hgetterMem entry.2 hsetterMem entry.1 hgot hset

/-- Methods of different names are accepted if and only if they can be paired. -/
theorem exists_ofDeclaration_iff {d : Declaration} (hnodup : (d.methods.map (·.name)).Nodup) :
    (∃ attached, ofDeclaration d = .ok attached) ↔ Resolvable d.methods := by
  simp only [ofDeclaration_eq_ok_iff]
  constructor
  · rintro ⟨attached, a, ha, hpaired, htypes, -⟩
    have haccessor := Accessors.exists_ofMethods_iff.1 ⟨a, ha⟩
    have hinOrder := Accessors.inOrder_of_ofMethods hnodup ha
    exact (checks_eq_ok_iff hinOrder hnodup haccessor).1 ⟨hpaired, htypes⟩
  · intro h
    obtain ⟨a, ha⟩ := Accessors.exists_ofMethods_iff.2 h.accessor
    obtain ⟨hpaired, htypes⟩ :=
      (checks_eq_ok_iff (Accessors.inOrder_of_ofMethods hnodup ha) hnodup h.accessor).2 h
    exact ⟨_, a, ha, hpaired, htypes, rfl⟩

/-- Attached properties that are made of the same methods in another order are the same ones. -/
theorem perm_of_isMadeOf {methods methods' getters getters' : List Method}
    {attached attached' : List AttachedProperty} (hperm : methods'.Perm methods)
    (hgetters : getters'.Perm getters) (h : List.Forall₂ (IsMadeOf methods) getters attached)
    (h' : List.Forall₂ (IsMadeOf methods') getters' attached') : attached'.Perm attached := by
  -- the properties in the new order of the getters, which determine them
  obtain ⟨reordered, hreordered, hattached⟩ := List.perm_comp_forall₂ hgetters h
  have hmade : List.Forall₂ (IsMadeOf methods) getters' attached' :=
    h'.imp fun m p hp => hp.perm hperm.symm
  have hunique : Relator.RightUnique (IsMadeOf methods) := fun m p p' hp hp' => hp.eq hp'
  obtain rfl : attached' = reordered := List.right_unique_forall₂' hunique hmade hreordered
  exact hattached

/-- Pairing methods of different names does not depend on their order.  It succeeds if and only if the
methods can be paired, gives one attached property for each getter, in the order of the getters, and for
the methods in another order it gives the same attached properties in another order. -/
theorem ofDeclaration_order_free {d : Declaration} (hnodup : (d.methods.map (·.name)).Nodup) :
    ((∃ attached, ofDeclaration d = .ok attached) ↔ Resolvable d.methods) ∧
      (∀ attached, ofDeclaration d = .ok attached →
        List.Forall₂ (IsMadeOf d.methods) (d.methods.filter fun m => Text.hasLead "Get" m.name)
          attached) ∧
      ∀ d' : Declaration, d'.methods.Perm d.methods → ∀ attached, ofDeclaration d = .ok attached →
        ∃ attached', ofDeclaration d' = .ok attached' ∧ attached'.Perm attached := by
  refine ⟨exists_ofDeclaration_iff hnodup, fun _ => isMadeOf_of_ofDeclaration hnodup, ?_⟩
  intro d' hperm attached h
  have hnodup' : (d'.methods.map (·.name)).Nodup := ((hperm.map _).nodup_iff).2 hnodup
  have hresolvable := (exists_ofDeclaration_iff hnodup).1 ⟨attached, h⟩
  obtain ⟨attached', h'⟩ := (exists_ofDeclaration_iff hnodup').2 (hresolvable.perm hperm)
  refine ⟨attached', h', ?_⟩
  exact perm_of_isMadeOf hperm (hperm.filter _) (isMadeOf_of_ofDeclaration hnodup h)
    (isMadeOf_of_ofDeclaration hnodup' h')

theorem ofDeclaration_order_free_canvas :
    (canvasMethods.map (·.name)).Nodup ∧
      ofDeclaration (attachedTo canvasMethods) = .ok canvasProperties ∧
        Resolvable canvasMethods ∧
          List.Forall₂ (IsMadeOf canvasMethods) (canvasProperties.map (·.getter)) canvasProperties ∧
            ∃ attached, ofDeclaration (attachedTo canvasMethods.reverse) = .ok attached ∧
              attached.Perm canvasProperties := by
  have hnodup : (canvasMethods.map (·.name)).Nodup := by decide +kernel
  have hpaired : ofDeclaration (attachedTo canvasMethods) = .ok canvasProperties := by
    decide +kernel
  obtain ⟨hresolvable, hmade, hpermuted⟩ :=
    ofDeclaration_order_free (show ((attachedTo canvasMethods).methods.map (·.name)).Nodup from hnodup)
  have hgetters : (canvasMethods.filter fun m => Text.hasLead "Get" m.name) =
      canvasProperties.map (·.getter) := by
    decide +kernel
  refine ⟨hnodup, hpaired, hresolvable.1 ⟨_, hpaired⟩, ?_, ?_⟩
  · rw [← hgetters]
    exact hmade canvasProperties hpaired
  · exact hpermuted (attachedTo canvasMethods.reverse) (List.reverse_perm _) canvasProperties hpaired

end AttachedProperty

end PlatformClasses
