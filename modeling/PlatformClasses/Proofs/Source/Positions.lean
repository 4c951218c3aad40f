import Mathlib.Data.List.Forall2
import Mathlib.Data.List.Lex
import PlatformClasses.Declaration.Reading

/-!
# Positions of interfaces in a syntax tree

A position says which way leads down to a node: its number among the nodes of the top level, its number
among the members of that one, and so on.  Positions are ordered like lists of numbers, so a node comes
before the nodes within it and after everything that ends before it, which is the order of the source.

The search for interfaces is checked against positions.  `interfacePositions` is the list of positions
that it visits: every interface of the tree, at whatever depth, is at one of them
(`mem_interfacePositionsIn_iff`), they increase, so that none is visited twice
(`pairwise_interfacePositionsFrom`), and the search gives what stands there, with the kinds of the nodes
on the way (`forall₂_interfacesOfAll`).
-/

namespace PlatformClasses.Source

/-- The way down to a node, by numbers. -/
abbrev Position := List Nat

namespace Node

/-- The nodes directly within a node. -/
def children : Node → List Node
  | namespaceBlock _ members => members
  | interfaceBlock _ _ members => members
  | typeDeclaration _ members => members
  | branch _ members => members
  | _ => []

/-- The kinds that lie between a node's members and what is around the node. -/
def bodyKinds : Node → List String
  | branch kind _ => [branchKindName kind]
  | node => [bodyKindName, node.kindName]

/-- The node that a position leads to from a node. -/
def at? : Node → Position → Option Node
  | node, [] => some node
  | node, k :: rest => (node.children[k]?).bind fun child => child.at? rest

/-- The kinds around the node that a position leads to, from the innermost on, given those around the
node where it starts. -/
def kindsAround (around : List String) : Node → Position → List String
  | _, [] => around
  | node, k :: rest =>
    match node.children[k]? with
    | some child => child.kindsAround (node.bodyKinds ++ around) rest
    | none => around

theorem sizeOf_lt_of_mem_children {node child : Node} (h : child ∈ node.children) :
    sizeOf child < sizeOf node := by
  have hlt := List.sizeOf_lt_of_mem h
  cases node <;> simp_all [children] <;> omega

/-- Induction on nodes: what holds of a node if it holds of its members holds of every node. -/
theorem induction_on_children {motive : Node → Prop}
    (step : ∀ node, (∀ child ∈ node.children, motive child) → motive node) (node : Node) :
    motive node :=
  step node fun child h =>
    have : sizeOf child < sizeOf node := sizeOf_lt_of_mem_children h
    induction_on_children step child
termination_by sizeOf node

end Node

/-- The node at a position of a tree. -/
def nodeAt? (nodes : List Node) : Position → Option Node
  | [] => none
  | k :: rest => (nodes[k]?).bind fun node => node.at? rest

/-! ## The positions that are visited -/

mutual
/-- The positions of the interfaces of a node, as they lead down from it. -/
def interfacePositionsIn : Node → List Position
  | .interfaceBlock _ _ members => [] :: interfacePositionsFrom 0 members
  | .namespaceBlock _ members => interfacePositionsFrom 0 members
  | .typeDeclaration _ members => interfacePositionsFrom 0 members
  | .branch _ members => interfacePositionsFrom 0 members
  | _ => []

/-- The positions of the interfaces of several nodes, the first of which has the given number. -/
def interfacePositionsFrom (number : Nat) : List Node → List Position
  | [] => []
  | node :: rest =>
    (interfacePositionsIn node).map (number :: ·) ++ interfacePositionsFrom (number + 1) rest
end

/-- The positions of the interfaces of a tree, in the order of the source. -/
def interfacePositions (nodes : List Node) : List Position := interfacePositionsFrom 0 nodes

theorem interfacePositionsIn_eq (node : Node) :
    interfacePositionsIn node =
      (match node with
        | .interfaceBlock .. => [[]]
        | _ => []) ++ interfacePositionsFrom 0 node.children := by
  cases node <;> simp [interfacePositionsIn, interfacePositionsFrom, Node.children]

/-- A position among nodes is the number of one of them and a position in it. -/
theorem mem_interfacePositionsFrom_iff {nodes : List Node} {number : Nat} {p : Position} :
    p ∈ interfacePositionsFrom number nodes ↔
      ∃ k rest node, p = (number + k) :: rest ∧ nodes[k]? = some node ∧
        rest ∈ interfacePositionsIn node := by
  induction nodes generalizing number with
  | nil => simp [interfacePositionsFrom]
  | cons first others ih =>
      rw [interfacePositionsFrom, List.mem_append, List.mem_map, ih]
      constructor
      · rintro (⟨rest, hrest, rfl⟩ | ⟨k, rest, node, rfl, hnode, hrest⟩)
        · exact ⟨0, rest, first, rfl, rfl, hrest⟩
        · refine ⟨k + 1, rest, node, ?_, hnode, hrest⟩
          rw [show number + (k + 1) = number + 1 + k by omega]
      · rintro ⟨k, rest, node, rfl, hnode, hrest⟩
        cases k with
        | zero =>
            obtain rfl : first = node := by simpa using hnode
            exact .inl ⟨rest, hrest, rfl⟩
        | succ k =>
            refine .inr ⟨k, rest, node, ?_, hnode, hrest⟩
            rw [show number + (k + 1) = number + 1 + k by omega]

theorem nil_not_mem_interfacePositionsFrom (number : Nat) (nodes : List Node) :
    [] ∉ interfacePositionsFrom number nodes := by
  intro h
  obtain ⟨k, rest, node, hp, -⟩ := mem_interfacePositionsFrom_iff.1 h
  simp at hp

/-- Every interface within a node is visited, and nothing else is.  The induction is on the position. -/
theorem mem_interfacePositionsIn_iff {node : Node} {p : Position} :
    p ∈ interfacePositionsIn node ↔
      ∃ name baseTypes members, node.at? p = some (.interfaceBlock name baseTypes members) := by
  induction p generalizing node with
  | nil =>
      have hbelow := nil_not_mem_interfacePositionsFrom 0 node.children
      rw [interfacePositionsIn_eq]
      cases node <;> simp_all [Node.at?]
  | cons k rest ih =>
      have hown : k :: rest ∈ interfacePositionsIn node ↔
          k :: rest ∈ interfacePositionsFrom 0 node.children := by
        rw [interfacePositionsIn_eq]
        cases node <;> simp
      rw [hown, mem_interfacePositionsFrom_iff]
      constructor
      · rintro ⟨k', rest', child, hp, hchild, hrest⟩
        obtain ⟨rfl, rfl⟩ : k = k' ∧ rest = rest' := by simpa using hp
        simpa [Node.at?, hchild] using ih.1 hrest
      · rintro ⟨name, baseTypes, members, hnode⟩
        obtain ⟨child, hchild, hrest⟩ := Option.bind_eq_some_iff.1 hnode
        exact ⟨k, rest, child, by simp, hchild, ih.2 ⟨name, baseTypes, members, hrest⟩⟩

/-- The visited positions are those of the interfaces of the tree. -/
theorem mem_interfacePositions_iff {nodes : List Node} {p : Position} :
    p ∈ interfacePositions nodes ↔
      ∃ name baseTypes members, nodeAt? nodes p = some (.interfaceBlock name baseTypes members) := by
  unfold interfacePositions
  cases p with
  | nil => simp [nil_not_mem_interfacePositionsFrom, nodeAt?]
  | cons k rest =>
      rw [mem_interfacePositionsFrom_iff]
      constructor
      · rintro ⟨k', rest', node, hp, hnode, hrest⟩
        obtain ⟨rfl, rfl⟩ : k = k' ∧ rest = rest' := by simpa using hp
        simpa [nodeAt?, hnode] using mem_interfacePositionsIn_iff.1 hrest
      · rintro ⟨name, baseTypes, members, h⟩
        obtain ⟨node, hnode, hrest⟩ := Option.bind_eq_some_iff.1 h
        exact ⟨k, rest, node, by simp, hnode,
          mem_interfacePositionsIn_iff.2 ⟨name, baseTypes, members, hrest⟩⟩

/-! ## The order of the visits -/

theorem pairwise_interfacePositionsFrom {nodes : List Node}
    (h : ∀ node ∈ nodes, (interfacePositionsIn node).Pairwise (· < ·)) (number : Nat) :
    (interfacePositionsFrom number nodes).Pairwise (· < ·) := by
  induction nodes generalizing number with
  | nil => exact List.Pairwise.nil
  | cons first others ih =>
      have hfirst := h first List.mem_cons_self
      have hothers := ih (fun node hnode => h node (List.mem_cons_of_mem first hnode)) (number + 1)
      refine List.pairwise_append.2 ⟨?_, hothers, ?_⟩
      · exact hfirst.map _ fun p q hpq => List.cons_lt_cons_iff.2 (.inr ⟨rfl, hpq⟩)
      · intro p hp q hq
        obtain ⟨rest, -, rfl⟩ := List.mem_map.1 hp
        obtain ⟨k, rest', node, rfl, -⟩ := mem_interfacePositionsFrom_iff.1 hq
        exact List.cons_lt_cons_iff.2 (.inl (by omega))

/-- The positions of interfaces in a node are in order. -/
theorem pairwise_interfacePositionsIn (node : Node) :
    (interfacePositionsIn node).Pairwise (· < ·) := by
  induction node using Node.induction_on_children with
  | step node ih =>
      have hbelow := pairwise_interfacePositionsFrom ih 0
      have hfirst : ∀ p ∈ interfacePositionsFrom 0 node.children, [] < p := by
        intro p hp
        obtain ⟨k, rest, child, rfl, -⟩ := mem_interfacePositionsFrom_iff.1 hp
        exact List.nil_lt_cons _ _
      rw [interfacePositionsIn_eq]
      split
      · exact List.pairwise_cons.2 ⟨hfirst, hbelow⟩
      · exact hbelow

/-- Positions are visited in the order of the source, none of them twice. -/
theorem pairwise_interfacePositions (nodes : List Node) :
    (interfacePositions nodes).Pairwise (· < ·) :=
  pairwise_interfacePositionsFrom (fun node _ => pairwise_interfacePositionsIn node) 0

/-! ## What the search gives -/

open Declaration (PlacedInterface interfacesOf interfacesOfAll)

/-- An interface as it stands at a position below a node, with the kinds that lie around it. -/
def IsFoundBelow (around : List String) (node : Node) (p : Position) (i : PlacedInterface) : Prop :=
  node.at? p = some (.interfaceBlock i.name i.baseTypes i.members) ∧
    i.around = node.kindsAround around p

/-- An interface as it stands at a position of several nodes, the first of which has the given number. -/
def IsFoundFrom (around : List String) (number : Nat) (nodes : List Node) (p : Position)
    (i : PlacedInterface) : Prop :=
  ∃ k rest node, p = (number + k) :: rest ∧ nodes[k]? = some node ∧ IsFoundBelow around node rest i

/-- The interfaces in a node are the node, if it is one, and those in its children. -/
theorem interfacesOf_eq (around : List String) (node : Node) :
    interfacesOf around node =
      (match node with
        | .interfaceBlock name baseTypes members => [⟨around, name, baseTypes, members⟩]
        | _ => []) ++ interfacesOfAll (node.bodyKinds ++ around) node.children := by
  cases node <;>
    simp [interfacesOf, interfacesOfAll, Node.children, Node.bodyKinds, Node.kindName]

/-- The interfaces among nodes correspond to their positions if they do so in each node. -/
theorem forall₂_interfacesOfAll {around : List String} {nodes : List Node}
    (h : ∀ node ∈ nodes, List.Forall₂ (IsFoundBelow around node) (interfacePositionsIn node)
      (interfacesOf around node)) (number : Nat) :
    List.Forall₂ (IsFoundFrom around number nodes) (interfacePositionsFrom number nodes)
      (interfacesOfAll around nodes) := by
  induction nodes generalizing number with
  | nil => exact List.Forall₂.nil
  | cons first others ih =>
      have hfirst := h first List.mem_cons_self
      have hothers := ih (fun node hnode => h node (List.mem_cons_of_mem first hnode)) (number + 1)
      unfold interfacePositionsFrom interfacesOfAll
      refine List.rel_append ?_ ?_
      · refine List.forall₂_map_left_iff.2 (hfirst.imp fun p i hpi => ?_)
        exact ⟨0, p, first, rfl, rfl, hpi⟩
      · refine hothers.imp fun p i hpi => ?_
        obtain ⟨k, rest, node, rfl, hnode, hrest⟩ := hpi
        refine ⟨k + 1, rest, node, ?_, hnode, hrest⟩
        rw [show number + (k + 1) = number + 1 + k by omega]

/-- The search gives the interfaces of a node in the order of their positions. -/
theorem forall₂_interfacesOf (around : List String) (node : Node) :
    List.Forall₂ (IsFoundBelow around node) (interfacePositionsIn node)
      (interfacesOf around node) := by
  induction node using Node.induction_on_children generalizing around with
  | step node ih =>
      have hbelow : List.Forall₂ (IsFoundBelow around node) (interfacePositionsFrom 0 node.children)
          (interfacesOfAll (node.bodyKinds ++ around) node.children) := by
        refine (forall₂_interfacesOfAll (fun child h => ih child h _) 0).imp fun p i hpi => ?_
        obtain ⟨k, rest, child, rfl, hchild, hfound, hkinds⟩ := hpi
        rw [Nat.zero_add]
        refine ⟨?_, ?_⟩
        · rw [Node.at?, hchild, Option.bind_some]
          exact hfound
        · simp only [Node.kindsAround, hchild]
          exact hkinds
      rw [interfacePositionsIn_eq, interfacesOf_eq]
      cases node with
      | interfaceBlock name baseTypes members => exact List.Forall₂.cons ⟨rfl, rfl⟩ hbelow
      | _ => exact hbelow

/-- The search gives the interfaces of a tree in the order of their positions, each once. -/
theorem forall₂_interfaces (around : List String) (nodes : List Node) :
    List.Forall₂ (IsFoundFrom around 0 nodes) (interfacePositions nodes)
      (interfacesOfAll around nodes) :=
  forall₂_interfacesOfAll (fun node _ => forall₂_interfacesOf around node) 0

/-- What is found at a position is the node that stands there. -/
theorem IsFoundFrom.nodeAt? {around : List String} {nodes : List Node} {p : Position}
    {i : PlacedInterface} (h : IsFoundFrom around 0 nodes p i) :
    nodeAt? nodes p = some (.interfaceBlock i.name i.baseTypes i.members) := by
  obtain ⟨k, rest, node, rfl, hnode, hfound, -⟩ := h
  rw [Nat.zero_add, Source.nodeAt?, hnode, Option.bind_some]
  exact hfound

/-! ## The proper place -/

/-- A position directly in a namespace of the top level. -/
def IsDirect (nodes : List Node) : Position → Prop
  | [k, _] => ∃ name members, nodes[k]? = some (.namespaceBlock name members)
  | _ => False

theorem bodyKinds_cases (node : Node) :
    node.bodyKinds = [Node.bodyKindName, node.kindName] ∨
      ∃ kind, node.bodyKinds = [Node.branchKindName kind] := by
  cases node with
  | branch kind members => exact .inr ⟨kind, rfl⟩
  | _ => exact .inl rfl

/-- What stands around a node stands around everything in it. -/
theorem suffix_kindsAround (around : List String) (node : Node) (p : Position) :
    around <:+ node.kindsAround around p := by
  induction p generalizing node around with
  | nil => exact List.suffix_rfl
  | cons k rest ih =>
      unfold Node.kindsAround
      split
      · next child hchild => exact (List.suffix_append _ _).trans (ih _ child)
      · exact List.suffix_rfl

theorem branchKindName_ne_bodyKindName (kind : BranchKind) :
    Node.branchKindName kind ≠ Node.bodyKindName := by
  cases kind <;> decide

/-- Only a namespace is called one. -/
theorem eq_namespaceBlock_of_kindName {node : Node} (h : node.kindName = "namespace_declaration") :
    ∃ name members, node = .namespaceBlock name members := by
  cases node with
  | namespaceBlock name members => exact ⟨name, members, rfl⟩
  | typeDeclaration kind members => cases kind <;> simp [Node.kindName, Node.typeKindName] at h
  | directive kind => cases kind <;> simp [Node.kindName, Node.directiveKindName] at h
  | branch kind members => cases kind <;> simp [Node.kindName, Node.branchKindName] at h
  | _ => simp [Node.kindName] at h

/-- Only what stands directly in a namespace of the top level has the kinds of the proper place around
it: a deeper position has more of them, or the part of a conditional group is one of them. -/
theorem isDirect_of_properPlace {nodes : List Node} {p : Position} {i : PlacedInterface}
    (h : IsFoundFrom [Node.sourceKindName] 0 nodes p i) (hproper : i.around = Declaration.properPlace) :
    IsDirect nodes p := by
  obtain ⟨k, rest, node, rfl, hnode, hfound, haround⟩ := h
  rw [Nat.zero_add]
  rw [hproper] at haround
  unfold Declaration.properPlace at haround
  cases rest with
  | nil => simp [Node.kindsAround] at haround
  | cons j rest =>
      obtain ⟨child, hchild, hrest⟩ := Option.bind_eq_some_iff.1 hfound
      simp only [Node.kindsAround, hchild] at haround
      cases rest with
      | nil =>
          have hkinds : node.bodyKinds = [Node.bodyKindName, "namespace_declaration"] := by
            simpa [Node.kindsAround] using List.append_cancel_right haround.symm
          rcases bodyKinds_cases node with hbody | ⟨kind, hbranch⟩
          · have hname : node.kindName = "namespace_declaration" := by simpa [hbody] using hkinds
            obtain ⟨name, members, rfl⟩ := eq_namespaceBlock_of_kindName hname
            exact ⟨name, members, hnode⟩
          · simp [hbranch] at hkinds
      | cons j' rest =>
          exfalso
          obtain ⟨grandchild, hgrandchild, -⟩ := Option.bind_eq_some_iff.1 hrest
          simp only [Node.kindsAround, hgrandchild] at haround
          have hsuffix := suffix_kindsAround
            (child.bodyKinds ++ (node.bodyKinds ++ [Node.sourceKindName])) grandchild rest
          rw [← haround] at hsuffix
          have hsome : 1 ≤ node.bodyKinds.length := by
            rcases bodyKinds_cases node with hbody | ⟨kind, hbranch⟩
            · simp [hbody]
            · simp [hbranch]
          have hlength := hsuffix.length_le
          rcases bodyKinds_cases child with hbody | ⟨kind, hbranch⟩
          · simp only [hbody, List.length_append, List.length_cons, List.length_nil] at hlength
            omega
          · simp only [hbranch, List.length_append, List.length_cons, List.length_nil] at hlength
            have heq := hsuffix.eq_of_length (by simp [hbranch]; omega)
            rw [hbranch] at heq
            exact branchKindName_ne_bodyKindName kind (List.cons.inj heq).1

end PlatformClasses.Source
