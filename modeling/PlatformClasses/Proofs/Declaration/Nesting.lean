import PlatformClasses.Proofs.Declaration.Faults
import PlatformClasses.Proofs.Source.Positions

/-!
# Where interfaces may stand

A syntax tree is accepted only if its top level holds one namespace, with nothing beside it but using
directives and extern aliases, and if every interface, wherever in the tree, stands directly in that
namespace; the declarations are those interfaces, each once and in the order of the source.  So an
interface within a type, within another interface, within an inner namespace or within a conditional group
makes the whole source a fault (`ofTree_nesting`).

The fault need not be that of the misplaced interface, since what comes before it in the source is checked
first; but it is a structural one, as all faults of a source are.
-/

namespace PlatformClasses

open Source

namespace Declaration

/-- A node that may stand beside the namespace. -/
def IsAside : Node → Prop
  | .usingDirective _ => True
  | .externAlias => True
  | _ => False

/-- The name of a node that is a namespace. -/
def namespaceName? : Node → Option String
  | .namespaceBlock name _ => some name
  | _ => none

theorem namespacesOf_eq_ok {origin : String} {nodes : List Node} {names : List String}
    (h : namespacesOf origin nodes = .ok names) :
    (∀ node ∈ nodes, IsAside node ∨ (namespaceName? node).isSome) ∧
      nodes.filterMap namespaceName? = names := by
  induction nodes generalizing names with
  | nil =>
      obtain rfl : [] = names := by simpa [namespacesOf] using h
      exact ⟨by simp, rfl⟩
  | cons node rest ih =>
      rw [List.forall_mem_cons]
      cases node with
      | namespaceBlock name members =>
          obtain ⟨more, hmore, rfl⟩ := map_eq_ok.1 h
          obtain ⟨hrest, rfl⟩ := ih hmore
          exact ⟨⟨.inr rfl, hrest⟩, rfl⟩
      | usingDirective directive =>
          obtain ⟨hrest, rfl⟩ := ih h
          exact ⟨⟨.inl trivial, hrest⟩, rfl⟩
      | externAlias =>
          obtain ⟨hrest, rfl⟩ := ih h
          exact ⟨⟨.inl trivial, hrest⟩, rfl⟩
      | _ => simp [namespacesOf] at h

/-- A top level with one namespace. -/
theorem namespacesOf_eq_singleton {origin : String} {nodes : List Node} {name : String}
    (h : namespacesOf origin nodes = .ok [name]) :
    ∃ before members after, nodes = before ++ .namespaceBlock name members :: after ∧
      ∀ node ∈ before ++ after, IsAside node := by
  obtain ⟨hnodes, hnames⟩ := namespacesOf_eq_ok h
  obtain ⟨before, node, after, rfl, hbefore, hnode, hafter⟩ := List.filterMap_eq_cons_iff.1 hnames
  obtain ⟨members, rfl⟩ : ∃ members, node = .namespaceBlock name members := by
    cases node with
    | namespaceBlock other members =>
        obtain rfl : other = name := by simpa [namespaceName?] using hnode
        exact ⟨members, rfl⟩
    | _ => simp [namespaceName?] at hnode
  refine ⟨before, members, after, rfl, ?_⟩
  have hnone : ∀ node ∈ before ++ after, namespaceName? node = none := by
    intro node hmem
    rcases List.mem_append.1 hmem with hmem | hmem
    · exact hbefore node hmem
    · exact List.filterMap_eq_nil_iff.1 hafter node hmem
  intro node hmem
  have hall : node ∈ before ++ .namespaceBlock name members :: after := by
    rcases List.mem_append.1 hmem with hmem | hmem
    · exact List.mem_append_left _ hmem
    · exact List.mem_append_right _ (List.mem_cons_of_mem _ hmem)
  rcases hnodes node hall with haside | hsome
  · exact haside
  · simp [hnone node hmem] at hsome

/-- A declaration is what an interface of a source says. -/
structure IsOf (d : Declaration) (nameSpace : String) (usings : List String)
    (sourceFile : Option Path) (interfaceName : String) (baseTypes : List String)
    (members : List Node) : Prop where
  name : d.name = interfaceName
  nameSpace : d.nameSpace = nameSpace
  usings : d.usings = usings
  baseTypes : d.baseTypes = baseTypes
  properties : d.properties = propertiesOf members
  methods : methodsOf interfaceName members = .ok d.methods
  sourceFile : d.sourceFile = sourceFile

/-- Interfaces are made declarations of one by one, and only where all of them stand in their proper
place. -/
theorem ofInterfaces_eq_ok {nameSpace : String} {usings : List String} {sourceFile : Option Path}
    {interfaces : List PlacedInterface} {declarations : List Declaration}
    (h : ofInterfaces nameSpace usings sourceFile interfaces = .ok declarations) :
    List.Forall₂ (fun i d => i.around = properPlace ∧
      IsOf d nameSpace usings sourceFile i.name i.baseTypes i.members) interfaces declarations := by
  induction interfaces generalizing declarations with
  | nil =>
      obtain rfl : [] = declarations := by simpa [ofInterfaces] using h
      exact List.Forall₂.nil
  | cons i rest ih =>
      unfold ofInterfaces at h
      split at h
      · next hplace =>
        obtain ⟨methods, hmethods, h⟩ := bind_eq_ok.1 h
        obtain ⟨more, hmore, h⟩ := bind_eq_ok.1 h
        obtain rfl := pure_eq_ok.1 h
        exact List.Forall₂.cons ⟨hplace, ⟨rfl, rfl, rfl, rfl, rfl, hmethods, rfl⟩⟩ (ih hmore)
      · simp at h

/-- The way to a node that is directly in the only namespace. -/
theorem eq_of_isDirect {before after : List Node} {name : String} {members : List Node}
    (haside : ∀ node ∈ before ++ after, IsAside node) {p : Position}
    (h : IsDirect (before ++ .namespaceBlock name members :: after) p) :
    ∃ k, p = [before.length, k] := by
  obtain _ | ⟨j, _ | ⟨k, _ | ⟨l, rest⟩⟩⟩ := p
  · exact absurd h id
  · exact absurd h id
  · obtain ⟨name', members', hnode⟩ := h
    by_cases hj : j = before.length
    · exact ⟨k, by rw [hj]⟩
    · exfalso
      have hmem : Node.namespaceBlock name' members' ∈ before ++ after := by
        rw [List.getElem?_append] at hnode
        split at hnode
        · exact List.mem_append_left _ (List.mem_of_getElem? hnode)
        · next hlt =>
          obtain ⟨n, hn⟩ := Nat.exists_eq_add_one_of_ne_zero (by omega : j - before.length ≠ 0)
          rw [hn, List.getElem?_cons_succ] at hnode
          exact List.mem_append_right _ (List.mem_of_getElem? hnode)
      exact haside _ hmem
  · exact absurd h id

/-- A tree that gives declarations holds its interfaces directly in its only namespace. -/
theorem ofTree_eq_ok {origin : String} {sourceFile : Option Path} {nodes : List Node}
    {declarations : List Declaration} (h : ofTree origin sourceFile nodes = .ok declarations) :
    ∃ before name members after, nodes = before ++ .namespaceBlock name members :: after ∧
      (∀ node ∈ before ++ after, IsAside node) ∧
      (∀ p ∈ interfacePositions nodes, ∃ k, p = [before.length, k]) ∧
      List.Forall₂ (fun p d => ∃ interfaceName baseTypes members,
        nodeAt? nodes p = some (.interfaceBlock interfaceName baseTypes members) ∧
          d.IsOf name (usingsOf nodes) sourceFile interfaceName baseTypes members)
        (interfacePositions nodes) declarations := by
  obtain ⟨names, hnames, h⟩ := bind_eq_ok.1 h
  split at h
  · next name =>
    obtain ⟨before, members, after, hnodes, haside⟩ := namespacesOf_eq_singleton hnames
    have hfound := forall₂_interfaces [Node.sourceKindName] nodes
    have hmade := forall₂_comp hfound (ofInterfaces_eq_ok h)
    refine ⟨before, name, members, after, hnodes, haside, ?_, ?_⟩
    · intro p hp
      obtain ⟨d, -, i, hi, hplace, -⟩ := exists_of_forall₂ hmade hp
      have hdirect := isDirect_of_properPlace hi hplace
      rw [hnodes] at hdirect
      exact eq_of_isDirect haside hdirect
    · refine hmade.imp ?_
      rintro p d ⟨i, hi, -, hof⟩
      exact ⟨i.name, i.baseTypes, i.members, hi.nodeAt?, hof⟩
  · simp at h

end Declaration

namespace ModelElement

open Declaration

/-- If a tree is accepted, its top level is a namespace beside which only using directives and extern
aliases stand, and the declarations are the interfaces of the whole tree, in the order of the source and
each once, all of which stand directly in that namespace.  So if an interface stands elsewhere, however
deep, the tree is refused, and that for a structural fault. -/
theorem ofTree_nesting (origin : String) (sourceFile : Option Path) (nodes : List Node) :
    (∀ elements, ofTree origin sourceFile nodes = .ok elements →
      ∃ before name members after, nodes = before ++ .namespaceBlock name members :: after ∧
        (∀ node ∈ before ++ after, IsAside node) ∧
        ∃ (positions : List Position) (declarations : List Declaration),
          positions.Pairwise (· < ·) ∧
          (∀ p, p ∈ positions ↔ ∃ interfaceName baseTypes members,
            nodeAt? nodes p = some (.interfaceBlock interfaceName baseTypes members)) ∧
          (∀ p ∈ positions, ∃ k, p = [before.length, k]) ∧
          List.Forall₂ (fun p d => ∃ interfaceName baseTypes members,
            nodeAt? nodes p = some (.interfaceBlock interfaceName baseTypes members) ∧
              d.IsOf name (usingsOf nodes) sourceFile interfaceName baseTypes members)
            positions declarations ∧
          ofSource origin declarations = .ok elements) ∧
    ∀ p interfaceName baseTypes members,
      nodeAt? nodes p = some (.interfaceBlock interfaceName baseTypes members) →
        ¬IsDirect nodes p →
          ∃ fault, ofTree origin sourceFile nodes = .error fault ∧ fault.category = .structural := by
  constructor
  · intro elements h
    obtain ⟨declarations, hread, hgroup⟩ := bind_eq_ok.1 h
    obtain ⟨before, name, members, after, hnodes, haside, hdirect, hmade⟩ := ofTree_eq_ok hread
    exact ⟨before, name, members, after, hnodes, haside, interfacePositions nodes, declarations,
      pairwise_interfacePositions nodes, fun p => mem_interfacePositions_iff, hdirect, hmade, hgroup⟩
  · intro p interfaceName baseTypes members hp hnot
    cases h : ofTree origin sourceFile nodes with
    | error fault => exact ⟨fault, rfl, onlyStructural_ofTree origin sourceFile nodes fault h⟩
    | ok elements =>
        exfalso
        obtain ⟨declarations, hread, -⟩ := bind_eq_ok.1 h
        obtain ⟨before, name, members, after, rfl, -, hdirect, -⟩ := ofTree_eq_ok hread
        obtain ⟨k, rfl⟩ := hdirect p (mem_interfacePositions_iff.2 ⟨_, _, _, hp⟩)
        exact hnot ⟨name, members, by simp⟩

end ModelElement

end PlatformClasses
