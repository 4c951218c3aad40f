import Mathlib.Data.List.Nodup
import Mathlib.Data.List.Pairwise
import PlatformClasses.Proofs.Declaration.Accessors
import PlatformClasses.Proofs.Declaration.Grouping

/-!
# Pairing accessors

The registries of accessors hold one method for a property, and a method replaces an earlier one of its
name.  So they hold the last method of each name, which is the invariant `Accessors.HoldLast`; these
methods are the `kept` ones.  The attached properties hold every method that is kept exactly where its
name puts it, which is what `Paired` says (`paired_kept`).  Where no two methods of an attached interface
have the same name, all are kept.
-/

namespace PlatformClasses

namespace Registry

variable {α : Type}

theorem find_of_mem {name : String} {value : α} {entries : List (String × α)}
    (hnodup : (entries.map (·.1)).Nodup) (h : (name, value) ∈ entries) :
    find name entries = some value := by
  induction entries with
  | nil => simp at h
  | cons first rest ih =>
      obtain ⟨hfresh, hrest⟩ := List.nodup_cons.1 hnodup
      rcases List.mem_cons.1 h with rfl | hmem
      · simp [find]
      · have hne : first.1 ≠ name := by
          rintro rfl
          exact hfresh (List.mem_map.2 ⟨_, hmem, rfl⟩)
        simp [find, hne, ih hrest hmem]

end Registry

namespace AttachedProperty

open ModelElement (lastNamed? lastNamed?_cons name_of_lastNamed? exists_lastNamed?_of_mem)

/-! ## The methods that are kept -/

namespace Accessors

/-- Each property has the last of the methods that are its accessor of a kind. -/
structure HoldLast (a : Accessors) (methods : List Method) : Prop where
  get? : ∀ kind property,
    (a.ofKind kind).get? property = lastNamed? (·.name) methods (kind.lead ++ property)
  nodup : ∀ kind, (a.ofKind kind).names.Nodup

theorem holdLast_empty : (⟨.empty, .empty⟩ : Accessors).HoldLast [] where
  get? kind property := by cases kind <;> rfl
  nodup kind := by cases kind <;> exact List.nodup_nil

/-- Of two accessors of one kind for one property the later is held. -/
theorem HoldLast.put {a : Accessors} {methods : List Method} (ha : a.HoldLast methods)
    {kind : AccessorKind} {property : String} {m : Method} (hm : IsAccessor kind property m) :
    (a.put kind property m).HoldLast (methods ++ [m]) := by
  have hlast : ∀ n, lastNamed? (·.name) (methods ++ [m]) n =
      if m.name = n then some m else lastNamed? (·.name) methods n := by
    intro n
    by_cases h : m.name = n <;> simp [lastNamed?, h]
  constructor
  · intro other property'
    rw [hlast]
    by_cases hkind : other = kind
    · subst hkind
      rw [ofKind_put_self]
      by_cases hproperty : property' = property
      · subst hproperty
        rw [Registry.get?_insert_self, if_pos hm.name]
      · have hne : m.name ≠ other.lead ++ property' := by
          rw [hm.name]
          exact fun h => hproperty (AccessorKind.lead_append_inj h).2.symm
        rw [Registry.get?_insert_of_ne _ hproperty, if_neg hne, ha.get?]
    · have hne : m.name ≠ other.lead ++ property' := by
        rw [hm.name]
        exact fun h => hkind (AccessorKind.lead_append_inj h).1.symm
      rw [ofKind_put_of_ne a hkind, if_neg hne, ha.get?]
  · intro other
    by_cases hkind : other = kind
    · subst hkind
      rw [ofKind_put_self, Registry.names_insert]
      split
      · exact ha.nodup other
      next hfresh =>
      rw [← List.concat_eq_append]
      exact (ha.nodup other).concat hfresh
    · rw [ofKind_put_of_ne a hkind]
      exact ha.nodup other

/-- Over all methods, the last accessor of each kind is held for each property. -/
theorem HoldLast.ofMethods {owner : String} {a a' : Accessors} {done methods : List Method}
    (ha : a.HoldLast done) (h : Accessors.ofMethods owner a methods = .ok a') :
    a'.HoldLast (done ++ methods) := by
  induction methods generalizing a done with
  | nil =>
      cases h
      rwa [List.append_nil]
  | cons m rest ih =>
      obtain ⟨kind, property, hm, hrest⟩ := ofMethods_cons_eq_ok_iff.1 h
      have hnext := ih (ha.put hm) hrest
      rwa [List.append_assoc] at hnext

end Accessors

/-- The methods without those that a later one of the same name replaces. -/
def kept (methods : List Method) : List Method :=
  methods.pwFilter fun m m' => m.name ≠ m'.name

/-- Leaving out methods that come again leaves out no name. -/
theorem forall_mem_kept_iff (m : Method) (methods : List Method) :
    (∀ m' ∈ kept methods, m.name ≠ m'.name) ↔ ∀ m' ∈ methods, m.name ≠ m'.name := by
  refine List.forall_mem_pwFilter ?_ m methods
  intro x y z hne
  by_cases hxy : x.name = y.name
  · exact .inr (hxy ▸ hne)
  · exact .inl hxy

/-- A method is kept if it is the last one of its name. -/
theorem mem_kept_iff {methods : List Method} {m : Method} :
    m ∈ kept methods ↔ lastNamed? (·.name) methods m.name = some m := by
  induction methods with
  | nil => simp [kept, lastNamed?]
  | cons first rest ih =>
      rw [lastNamed?_cons]
      by_cases hlast : ∀ m' ∈ rest, first.name ≠ m'.name
      · have hkept : kept (first :: rest) = first :: kept rest :=
          List.pwFilter_cons_of_pos ((forall_mem_kept_iff first rest).2 hlast)
        rw [hkept, List.mem_cons, ih]
        by_cases hname : first.name = m.name
        · have hnone : lastNamed? (·.name) rest m.name = none := by
            cases h : lastNamed? (·.name) rest m.name with
            | none => rfl
            | some m' =>
                obtain ⟨hmem, hname'⟩ := name_of_lastNamed? _ h
                exact absurd (hname.trans hname'.symm) (hlast m' hmem)
          simp [hnone, hname, eq_comm]
        · have hne : m ≠ first := fun h => hname (h ▸ rfl)
          simp [hname, hne]
      · have hkept : kept (first :: rest) = kept rest :=
          List.pwFilter_cons_of_neg (mt (forall_mem_kept_iff first rest).1 hlast)
        rw [hkept, ih]
        by_cases hname : first.name = m.name
        · obtain ⟨m', hmem, hsame⟩ : ∃ m' ∈ rest, first.name = m'.name := by
            simpa using hlast
          obtain ⟨last, hfound⟩ := exists_lastNamed?_of_mem (·.name) hmem
          have hfound : lastNamed? (·.name) rest m.name = some last := by
            rw [← hname, hsame]
            exact hfound
          simp [hfound]
        · simp [hname]

/-- The methods that are kept have different names. -/
theorem nodup_names_kept (methods : List Method) : ((kept methods).map (·.name)).Nodup := by
  rw [List.Nodup, List.pairwise_map]
  exact List.pairwise_pwFilter methods

/-- Methods with different names are all kept. -/
theorem kept_eq_self {methods : List Method} (h : (methods.map (·.name)).Nodup) :
    kept methods = methods :=
  List.pwFilter_eq_self.2 (List.pairwise_map.1 h)

/-- All methods are kept if and only if no two have the same name. -/
theorem kept_perm_iff {methods : List Method} :
    (kept methods).Perm methods ↔ (methods.map (·.name)).Nodup := by
  constructor
  · intro hperm
    exact ((hperm.map _).nodup_iff).1 (nodup_names_kept methods)
  · intro hnodup
    rw [kept_eq_self hnodup]

/-! ## The steps of pairing -/

/-- The check is passed if there is a getter for each setter. -/
theorem checkPaired_eq_ok_iff {owner : String} {getters : Registry Method}
    {setters : List (String × Method)} : checkPaired owner getters setters = .ok () ↔
      ∀ entry ∈ setters, getters.contains entry.1 = true := by
  induction setters with
  | nil => simp [checkPaired]
  | cons first rest ih =>
      rw [List.forall_mem_cons, ← ih]
      cases h : getters.contains first.1 <;> simp [checkPaired, h]

/-! ## Pairs -/

/-- The accessors of an attached property, the getter first. -/
def accessors (p : AttachedProperty) : List Method := p.getter :: p.setter.toList

/-- Attached properties hold the methods of an interface, each where its name puts it. -/
structure Paired (methods : List Method) (attached : List AttachedProperty) : Prop where
  nodup : (attached.map (·.name)).Nodup
  getter : ∀ p ∈ attached, p.getter ∈ methods ∧ p.getter.name = "Get" ++ p.name
  setter : ∀ p ∈ attached, ∀ setter ∈ p.setter, setter ∈ methods ∧ setter.name = "Set" ++ p.name
  covered : ∀ m ∈ methods, ∃ p ∈ attached, m ∈ p.accessors
  takes : ∀ p ∈ attached, p.getter.parameters.length = AccessorKind.getter.arity ∧
    ∀ setter ∈ p.setter, setter.parameters.length = AccessorKind.setter.arity

/-- The attached properties pair the methods that are kept. -/
theorem paired_kept {d : Declaration} {attached : List AttachedProperty}
    (h : ofDeclaration d = .ok attached) : Paired (kept d.methods) attached := by
  obtain ⟨a, ha, hpaired, -, rfl⟩ := ofDeclaration_eq_ok_iff.1 h
  have hlast : a.HoldLast d.methods := Accessors.holdLast_empty.ofMethods ha
  have haccessors := Accessors.exists_ofMethods_iff.1 ⟨a, ha⟩
  have hfound : ∀ (kind : AccessorKind) {property : String} {m : Method},
      (a.ofKind kind).get? property = some m ↔
        m ∈ kept d.methods ∧ m.name = kind.lead ++ property := by
    intro kind property m
    rw [hlast.get?, mem_kept_iff]
    constructor
    · intro hm
      have hname := (name_of_lastNamed? _ hm).2
      exact ⟨hname ▸ hm, hname⟩
    · rintro ⟨hm, hname⟩
      exact hname ▸ hm
  have hentry : ∀ {property : String} {m : Method}, (property, m) ∈ a.getters.entries ↔
      m ∈ kept d.methods ∧ m.name = "Get" ++ property := by
    intro property m
    refine Iff.trans ?_ (hfound .getter)
    exact ⟨Registry.find_of_mem (hlast.nodup .getter), Registry.mem_of_find⟩
  have htakes : ∀ m ∈ kept d.methods, ∀ (kind : AccessorKind) {property : String},
      m.name = kind.lead ++ property → m.parameters.length = kind.arity := by
    intro m hm kind property hname
    obtain ⟨kind', property', haccessor⟩ := haccessors m (List.pwFilter_subset d.methods hm)
    obtain ⟨rfl, -⟩ := AccessorKind.lead_append_inj (hname.symm.trans haccessor.name)
    exact haccessor.arity
  constructor
  case nodup =>
    rw [List.map_map]
    exact hlast.nodup .getter
  case getter =>
    intro p hp
    obtain ⟨⟨property, m⟩, hmem, rfl⟩ := List.mem_map.1 hp
    exact hentry.1 hmem
  case setter =>
    intro p hp setter hsome
    obtain ⟨⟨property, m⟩, -, rfl⟩ := List.mem_map.1 hp
    exact (hfound .setter).1 hsome
  case covered =>
    intro m hm
    obtain ⟨kind, property, haccessor⟩ := haccessors m (List.pwFilter_subset d.methods hm)
    have hget : (a.ofKind kind).get? property = some m :=
      (hfound kind).2 ⟨hm, haccessor.name⟩
    cases kind with
    | getter =>
        exact ⟨_, List.mem_map_of_mem (Registry.mem_of_find hget), List.mem_cons_self⟩
    | setter =>
        have hcontains := checkPaired_eq_ok_iff.1 hpaired _ (Registry.mem_of_find hget)
        obtain ⟨getter, hgetter⟩ := Option.isSome_iff_exists.1 hcontains
        refine ⟨_, List.mem_map_of_mem (Registry.mem_of_find hgetter), ?_⟩
        exact List.mem_cons_of_mem _ (Option.mem_toList.2 hget)
  case takes =>
    intro p hp
    obtain ⟨⟨property, m⟩, hmem, rfl⟩ := List.mem_map.1 hp
    obtain ⟨hm, hname⟩ := hentry.1 hmem
    refine ⟨htakes m hm .getter hname, ?_⟩
    intro setter hsome
    obtain ⟨hsetter, hsetterName⟩ := (hfound .setter).1 hsome
    exact htakes setter hsetter .setter hsetterName

/-- Methods with different names are paired without loss. -/
theorem paired_of_ofDeclaration {d : Declaration} {attached : List AttachedProperty}
    (hnodup : (d.methods.map (·.name)).Nodup) (h : ofDeclaration d = .ok attached) :
    Paired d.methods attached := by
  rw [← kept_eq_self hnodup]
  exact paired_kept h

/-- The methods of an interface are the accessors of its attached properties, in another order. -/
theorem Paired.accessors_perm {methods : List Method} {attached : List AttachedProperty}
    (h : Paired methods attached) (hnodup : (methods.map (·.name)).Nodup) :
    (attached.flatMap accessors).Perm methods := by
  have hname : ∀ p ∈ attached, ∀ m ∈ p.accessors, m ∈ methods ∧
      ∃ kind, m.name = AccessorKind.lead kind ++ p.name := by
    intro p hp m hm
    rcases List.mem_cons.1 hm with rfl | hset
    · exact ⟨(h.getter p hp).1, .getter, (h.getter p hp).2⟩
    · have hsetter := h.setter p hp m (Option.mem_toList.1 hset)
      exact ⟨hsetter.1, .setter, hsetter.2⟩
  have hkinds : ∀ p ∈ attached, p.accessors.Nodup := by
    intro p hp
    cases hset : p.setter with
    | none => simp [accessors, hset]
    | some setter =>
        have hne : p.getter ≠ setter := by
          intro heq
          have hgetter := (h.getter p hp).2
          rw [heq, (h.setter p hp setter hset).2] at hgetter
          have hkind : AccessorKind.setter = .getter := (AccessorKind.lead_append_inj hgetter).1
          simp at hkind
        simp [accessors, hset, hne]
  refine (List.perm_ext_iff_of_nodup ?_ (List.Nodup.of_map _ hnodup)).2 ?_
  · rw [List.nodup_flatMap]
    refine ⟨hkinds, (List.pairwise_map.1 h.nodup).imp_of_mem ?_⟩
    intro p p' hp hp' hne m hm hm'
    obtain ⟨-, kind, hnamed⟩ := hname p hp m hm
    obtain ⟨-, kind', hnamed'⟩ := hname p' hp' m hm'
    exact hne (AccessorKind.lead_append_inj (hnamed.symm.trans hnamed')).2
  · intro m
    rw [List.mem_flatMap]
    constructor
    · rintro ⟨p, hp, hm⟩
      exact (hname p hp m hm).1
    · exact h.covered m

end AttachedProperty

end PlatformClasses
