import PlatformClasses.Declaration.Model
import PlatformClasses.Proofs.Outcome

/-!
# Accessors and their parameters

Every method of an attached interface must be an accessor, and then it is put into the registry of its
kind; nothing else can happen to it (`Accessors.add_eq_ok_iff`).

An accessor takes the parameters of its kind: a getter the element, and a setter the element and the
value.  The invariant is `Accessors.TakeParameters`; putting in an accessor keeps it, so every attached
property of an element has the parameters that are read of it (`attached_of_ofDeclarations`).
-/

namespace PlatformClasses

namespace Registry

variable {α : Type}

/-- Setting a value adds no other entry. -/
theorem mem_set {name : String} {value : α} {entries : List (String × α)} {entry : String × α}
    (h : entry ∈ set name value entries) : entry = (name, value) ∨ entry ∈ entries := by
  induction entries with
  | nil =>
      obtain rfl : entry = (name, value) := by simpa [set] using h
      exact .inl rfl
  | cons first rest ih =>
      unfold set at h
      split at h
      · rcases List.mem_cons.1 h with rfl | hrest
        · exact .inl rfl
        · exact .inr (List.mem_cons_of_mem first hrest)
      · rcases List.mem_cons.1 h with rfl | hrest
        · exact .inr List.mem_cons_self
        · rcases ih hrest with rfl | hmem
          · exact .inl rfl
          · exact .inr (List.mem_cons_of_mem first hmem)

theorem mem_of_find {name : String} {value : α} {entries : List (String × α)}
    (h : find name entries = some value) : (name, value) ∈ entries := by
  induction entries with
  | nil => simp [find] at h
  | cons first rest ih =>
      unfold find at h
      split at h
      · next hname =>
        obtain rfl : first.2 = value := by simpa using h
        rw [← hname]
        exact List.mem_cons_self
      · exact List.mem_cons_of_mem first (ih h)

/-- Every value of a registry has a property. -/
def All (P : α → Prop) (r : Registry α) : Prop := ∀ entry ∈ r.entries, P entry.2

theorem all_empty (P : α → Prop) : All P empty := fun _ h => absurd h (by simp [empty])

/-- A property of all values is kept by inserting one that has it. -/
theorem All.insert {P : α → Prop} {r : Registry α} (h : All P r) (name : String) {value : α}
    (hvalue : P value) : All P (r.insert name value) := by
  intro entry hentry
  rcases mem_set hentry with rfl | hmem
  · exact hvalue
  · exact h entry hmem

/-- What is found has the property of all values. -/
theorem All.of_get? {P : α → Prop} {r : Registry α} (h : All P r) {name : String} {value : α}
    (hget : r.get? name = some value) : P value := h (name, value) (mem_of_find hget)

end Registry

namespace AttachedProperty

/-- What the names of accessors start with. -/
def AccessorKind.lead : AccessorKind → String
  | .getter => "Get"
  | .setter => "Set"

/-- A name is that of an accessor if it is the lead of its kind and the name of a property. -/
theorem accessorOf?_eq_some_iff {name property : String} {kind : AccessorKind} :
    accessorOf? name = some (kind, property) ↔ name = kind.lead ++ property := by
  unfold accessorOf?
  cases hget : Text.afterLead? "Get" name with
  | some got =>
      rw [Text.afterLead?_eq_some_iff] at hget
      subst hget
      cases kind with
      | getter => simp [AccessorKind.lead]
      | setter =>
          simp only [Option.some.injEq, Prod.mk.injEq, reduceCtorEq, false_and, false_iff]
          intro h
          have hfirst := congrArg (fun s : String => s.toList.head?) h
          simp [AccessorKind.lead] at hfirst
  | none =>
      cases kind with
      | getter =>
          simp only [Option.map_eq_some_iff, Prod.mk.injEq, reduceCtorEq, false_and, and_false,
            exists_false, false_iff]
          intro h
          have hlead : Text.afterLead? "Get" name = some property := Text.afterLead?_eq_some_iff.2 h
          rw [hget] at hlead
          simp at hlead
      | setter => simp [Text.afterLead?_eq_some_iff, AccessorKind.lead]

/-- A name tells the kind of the accessor and the property. -/
theorem AccessorKind.lead_append_inj {kind kind' : AccessorKind} {property property' : String}
    (h : kind.lead ++ property = kind'.lead ++ property') : kind = kind' ∧ property = property' := by
  have hfound := accessorOf?_eq_some_iff.2 h
  rw [accessorOf?_eq_some_iff.2 rfl] at hfound
  exact Prod.mk.inj (Option.some.inj hfound)

/-! ## One method after the other -/

/-- A method is an accessor of a property: its name says so, and it takes the parameters of its kind. -/
structure IsAccessor (kind : AccessorKind) (property : String) (m : Method) : Prop where
  name : m.name = kind.lead ++ property
  property_ne : property ≠ ""
  arity : m.parameters.length = kind.arity

namespace Accessors

/-- The accessors of a kind. -/
def ofKind (a : Accessors) : AccessorKind → Registry Method
  | .getter => a.getters
  | .setter => a.setters

/-- The accessors with one given to a property. -/
def put (a : Accessors) (kind : AccessorKind) (property : String) (m : Method) : Accessors :=
  match kind with
  | .getter => { a with getters := a.getters.insert property m }
  | .setter => { a with setters := a.setters.insert property m }

@[simp] theorem ofKind_put_self (a : Accessors) (kind : AccessorKind) (property : String)
    (m : Method) : (a.put kind property m).ofKind kind = (a.ofKind kind).insert property m := by
  cases kind <;> rfl

/-- Adding an accessor leaves those of the other kind alone. -/
theorem ofKind_put_of_ne (a : Accessors) {kind other : AccessorKind} (h : other ≠ kind)
    (property : String) (m : Method) : (a.put kind property m).ofKind other = a.ofKind other := by
  cases kind <;> cases other <;> first | rfl | exact absurd rfl h

/-- Adding a method succeeds if and only if it is an accessor, and gives it to its property. -/
theorem add_eq_ok_iff {owner : String} {a a' : Accessors} {m : Method} :
    a.add owner m = .ok a' ↔
      ∃ kind property, IsAccessor kind property m ∧ a' = a.put kind property m := by
  cases haccessor : accessorOf? m.name with
  | none =>
      have hnot : ∀ kind property, ¬IsAccessor kind property m := by
        intro kind property h
        rw [accessorOf?_eq_some_iff.2 h.name] at haccessor
        simp at haccessor
      simp [add, haccessor, hnot]
  | some found =>
      obtain ⟨kind, property⟩ := found
      have hname : m.name = kind.lead ++ property := accessorOf?_eq_some_iff.1 haccessor
      constructor
      · intro h
        simp only [add, haccessor] at h
        split at h
        · simp at h
        next hproperty =>
        split at h
        · simp at h
        next harity =>
        refine ⟨kind, property, ⟨hname, hproperty, not_ne_iff.1 harity⟩, ?_⟩
        cases kind <;> exact (Except.ok.inj h).symm
      · rintro ⟨kind', property', h, rfl⟩
        obtain ⟨rfl, rfl⟩ := AccessorKind.lead_append_inj (hname.symm.trans h.name)
        simp only [add, haccessor, h.property_ne, h.arity]
        cases kind <;> rfl

/-- Methods are taken for accessors one after the other. -/
theorem ofMethods_cons_eq_ok_iff {owner : String} {a a' : Accessors} {m : Method}
    {rest : List Method} : ofMethods owner a (m :: rest) = .ok a' ↔
      ∃ kind property, IsAccessor kind property m ∧
        ofMethods owner (a.put kind property m) rest = .ok a' := by
  cases hadd : a.add owner m with
  | error fault =>
      have hnot : ∀ kind property, ¬IsAccessor kind property m := by
        intro kind property h
        rw [add_eq_ok_iff.2 ⟨kind, property, h, rfl⟩] at hadd
        simp at hadd
      simp [ofMethods, hadd, hnot]
  | ok next =>
      obtain ⟨kind, property, h, rfl⟩ := add_eq_ok_iff.1 hadd
      simp only [ofMethods, hadd]
      constructor
      · exact fun hrest => ⟨kind, property, h, hrest⟩
      · rintro ⟨kind', property', h', hrest⟩
        obtain ⟨rfl, rfl⟩ := AccessorKind.lead_append_inj (h.name.symm.trans h'.name)
        exact hrest

/-- Methods are accepted if and only if each is an accessor. -/
theorem exists_ofMethods_iff {owner : String} {a : Accessors} {methods : List Method} :
    (∃ a', ofMethods owner a methods = .ok a') ↔
      ∀ m ∈ methods, ∃ kind property, IsAccessor kind property m := by
  induction methods generalizing a with
  | nil => simp [ofMethods]
  | cons m rest ih =>
      simp only [ofMethods_cons_eq_ok_iff, List.forall_mem_cons]
      constructor
      · rintro ⟨a', kind, property, h, hrest⟩
        exact ⟨⟨kind, property, h⟩, ih.1 ⟨a', hrest⟩⟩
      · rintro ⟨⟨kind, property, h⟩, hrest⟩
        obtain ⟨a', hrest⟩ := ih.2 hrest
        exact ⟨a', kind, property, h, hrest⟩

/-! ## Parameters -/

/-- Every accessor takes the parameters of its kind. -/
structure TakeParameters (a : Accessors) : Prop where
  getters : a.getters.All fun m => m.parameters.length = AccessorKind.getter.arity
  setters : a.setters.All fun m => m.parameters.length = AccessorKind.setter.arity

/-- Accessors that are added have the parameters of their kind. -/
theorem TakeParameters.put {a : Accessors} (ha : a.TakeParameters) {kind : AccessorKind}
    {property : String} {m : Method} (hm : IsAccessor kind property m) :
    (a.put kind property m).TakeParameters := by
  cases kind with
  | getter => exact { ha with getters := ha.getters.insert property hm.arity }
  | setter => exact { ha with setters := ha.setters.insert property hm.arity }

/-- Whatever methods are taken for accessors have the parameters of their kind. -/
theorem TakeParameters.ofMethods {owner : String} {a a' : Accessors} {methods : List Method}
    (ha : a.TakeParameters) (h : Accessors.ofMethods owner a methods = .ok a') :
    a'.TakeParameters := by
  induction methods generalizing a with
  | nil =>
      cases h
      exact ha
  | cons m rest ih =>
      obtain ⟨kind, property, hm, hrest⟩ := ofMethods_cons_eq_ok_iff.1 h
      exact ih (ha.put hm) hrest

end Accessors

/-- What the steps of pairing give if all succeed. -/
theorem ofDeclaration_eq_ok_iff {d : Declaration} {attached : List AttachedProperty} :
    ofDeclaration d = .ok attached ↔
      ∃ a, Accessors.ofMethods d.name ⟨.empty, .empty⟩ d.methods = .ok a ∧
        checkPaired d.name a.getters a.setters.entries = .ok () ∧
        checkValueTypes d.name a.getters a.setters.entries = .ok () ∧
        attached = a.getters.entries.map fun e => ⟨e.1, e.2, a.setters.get? e.1⟩ := by
  unfold ofDeclaration
  simp only [bind_eq_ok, pure_eq_ok]
  constructor
  · rintro ⟨a, ha, ⟨⟩, hpaired, ⟨⟩, htypes, rfl⟩
    exact ⟨a, ha, hpaired, htypes, rfl⟩
  · rintro ⟨a, ha, hpaired, htypes, rfl⟩
    exact ⟨a, ha, (), hpaired, (), htypes, rfl⟩

/-- The accessors of an attached property have the parameters that are read of them. -/
structure HasParameters (p : AttachedProperty) : Prop where
  element : ∃ element, p.element? = some element
  value : ∀ setter ∈ p.setter, ∃ value, valueParameter? setter = some value

/-- Getters and setters that are paired have the parameters that they need. -/
theorem hasParameters_of_ofDeclaration {d : Declaration} {attached : List AttachedProperty}
    (h : ofDeclaration d = .ok attached) : ∀ p ∈ attached, p.HasParameters := by
  obtain ⟨a, ha, -, -, rfl⟩ := ofDeclaration_eq_ok_iff.1 h
  have hnone : (⟨.empty, .empty⟩ : Accessors).TakeParameters :=
    ⟨Registry.all_empty _, Registry.all_empty _⟩
  have hall := hnone.ofMethods ha
  intro p hp
  obtain ⟨⟨property, getter⟩, hentry, rfl⟩ := List.mem_map.1 hp
  have hgetter : getter.parameters.length = 1 := hall.getters _ hentry
  constructor
  · obtain ⟨element, hone⟩ := List.length_eq_one_iff.1 hgetter
    exact ⟨element, by simp [element?, hone]⟩
  · intro setter hsetter
    have hlength : setter.parameters.length = 2 := hall.setters.of_get? hsetter
    have hvalue : 1 < setter.parameters.length := by omega
    exact ⟨setter.parameters[1], List.getElem?_eq_getElem hvalue⟩

end AttachedProperty

namespace ModelElement

/-- The attached properties of an element have the parameters that they need. -/
theorem attached_of_ofDeclarations {d : Declaration} {companion : Option Declaration}
    {e : ModelElement} (h : ofDeclarations d companion = .ok e) :
    ∀ p ∈ e.attached, p.HasParameters := by
  cases companion with
  | none =>
      cases h
      simp
  | some c =>
      cases hc : AttachedProperty.ofDeclaration c with
      | error fault => simp [ofDeclarations, hc] at h
      | ok attached =>
          obtain rfl : (⟨d, some c, attached⟩ : ModelElement) = e := by
            simpa [ofDeclarations, hc] using h
          exact AttachedProperty.hasParameters_of_ofDeclaration hc

end ModelElement

end PlatformClasses
