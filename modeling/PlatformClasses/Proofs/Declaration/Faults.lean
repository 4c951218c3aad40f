import PlatformClasses.Proofs.Outcome
import PlatformClasses.SourceFile

/-!
# Faults of a source

Whatever is wrong with a source file, the fault that says so is a structural one: faults of names and of
types only arise when classes are generated.
-/

namespace PlatformClasses

/-- A step that fails at most with a structural fault. -/
def OnlyStructural {α : Type} (x : Except Fault α) : Prop :=
  ∀ fault, x = .error fault → fault.category = .structural

namespace OnlyStructural

variable {α β : Type}

/-- A success has no faults. -/
theorem ok (a : α) : OnlyStructural (.ok a : Except Fault α) := fun _ h => by simp at h

/-- A fault of the right kind is one of the faults. -/
theorem error {fault : Fault} (h : fault.category = .structural) :
    OnlyStructural (.error fault : Except Fault α) := by
  intro f hf
  obtain rfl : fault = f := by simpa using hf
  exact h

/-- Steps one after the other fail structurally if each of them does. -/
theorem bind {x : Except Fault α} {f : α → Except Fault β} (hx : OnlyStructural x)
    (hf : ∀ a, OnlyStructural (f a)) : OnlyStructural (x >>= f) := by
  intro fault h
  rcases bind_eq_error.1 h with h | ⟨a, -, h⟩
  · exact hx fault h
  · exact hf a fault h

theorem map {x : Except Fault α} (hx : OnlyStructural x) (f : α → β) :
    OnlyStructural (x.map f) :=
  fun fault h => hx fault (map_eq_error.1 h)

end OnlyStructural

open OnlyStructural

/-! ## Attached properties -/

namespace AttachedProperty

/-- Adding an accessor fails structurally, if at all. -/
theorem onlyStructural_add (owner : String) (a : Accessors) (m : Method) :
    OnlyStructural (a.add owner m) := by
  unfold Accessors.add
  split
  · exact error rfl
  · next kind property _ =>
    split
    · exact error rfl
    · split
      · exact error rfl
      · cases kind <;> exact ok _

/-- Taking methods for accessors fails structurally, if at all. -/
theorem onlyStructural_ofMethods (owner : String) (methods : List Method) (a : Accessors) :
    OnlyStructural (Accessors.ofMethods owner a methods) := by
  induction methods generalizing a with
  | nil => exact ok a
  | cons m rest ih =>
      unfold Accessors.ofMethods
      split
      · next a' _ => exact ih a'
      · next e h => exact error (onlyStructural_add owner a m e h)

/-- A setter without a getter is a structural fault. -/
theorem onlyStructural_checkPaired (owner : String) (getters : Registry Method)
    (setters : List (String × Method)) : OnlyStructural (checkPaired owner getters setters) := by
  induction setters with
  | nil => exact ok ()
  | cons setter rest ih =>
      unfold checkPaired
      split
      · exact ih
      · exact error rfl

/-- A setter whose type is not that of its getter is a structural fault. -/
theorem onlyStructural_checkValueTypes (owner : String) (getters : Registry Method)
    (setters : List (String × Method)) :
    OnlyStructural (checkValueTypes owner getters setters) := by
  induction setters with
  | nil => exact ok ()
  | cons setter rest ih =>
      unfold checkValueTypes
      simp only
      split
      · exact ih
      · exact error rfl

/-- Pairing accessors fails structurally, if at all. -/
theorem onlyStructural_ofDeclaration (d : Declaration) : OnlyStructural (ofDeclaration d) := by
  refine (onlyStructural_ofMethods d.name d.methods _).bind fun a => ?_
  refine (onlyStructural_checkPaired d.name a.getters _).bind fun _ => ?_
  exact (onlyStructural_checkValueTypes d.name a.getters _).bind fun _ => ok _

end AttachedProperty

/-! ## Declarations -/

namespace Declaration

/-- A parameter without a type is a structural fault. -/
theorem onlyStructural_parametersOf (method : String) (nodes : List Source.ParameterNode) :
    OnlyStructural (parametersOf method nodes) := by
  induction nodes with
  | nil => exact ok []
  | cons node rest ih =>
      unfold parametersOf
      split
      · exact error rfl
      · exact ih.map _

/-- Reading the methods of an interface fails structurally, if at all. -/
theorem onlyStructural_methodsOf (owner : String) (members : List Source.Node) :
    OnlyStructural (methodsOf owner members) := by
  induction members with
  | nil => exact ok []
  | cons member rest ih =>
      cases member with
      | method node =>
          refine ((onlyStructural_parametersOf _ _).map _).bind fun m => ?_
          exact ih.bind fun more => ok _
      | _ => exact ih

/-- Reading interfaces fails structurally, if at all. -/
theorem onlyStructural_ofInterfaces (nameSpace : String) (usings : List String)
    (sourceFile : Option Path) (interfaces : List PlacedInterface) :
    OnlyStructural (ofInterfaces nameSpace usings sourceFile interfaces) := by
  induction interfaces with
  | nil => exact ok []
  | cons i rest ih =>
      unfold ofInterfaces
      split
      · refine (onlyStructural_methodsOf i.name i.members).bind fun methods => ?_
        exact ih.bind fun more => ok _
      · exact error rfl

/-- What stands beside the namespaces is a structural fault. -/
theorem onlyStructural_namespacesOf (origin : String) (nodes : List Source.Node) :
    OnlyStructural (namespacesOf origin nodes) := by
  induction nodes with
  | nil => exact ok []
  | cons node rest ih =>
      cases node with
      | namespaceBlock name members => exact ih.map _
      | usingDirective directive => exact ih
      | externAlias => exact ih
      | _ => exact error rfl

theorem onlyStructural_ofTree (origin : String) (sourceFile : Option Path)
    (nodes : List Source.Node) : OnlyStructural (ofTree origin sourceFile nodes) := by
  refine (onlyStructural_namespacesOf origin nodes).bind fun namespaces => ?_
  split
  · exact onlyStructural_ofInterfaces _ _ _ _
  · exact error rfl

end Declaration

/-! ## Model elements -/

namespace ModelElement

/-- An attached interface without an owner is a structural fault. -/
theorem onlyStructural_companions (origin : String) (known : List String)
    (declarations : List Declaration) (found : Registry Declaration) :
    OnlyStructural (companions origin known found declarations) := by
  induction declarations generalizing found with
  | nil => exact ok found
  | cons d rest ih =>
      unfold companions
      split
      · exact ih found
      · split
        · exact ih _
        · exact error rfl

/-- Making an element fails structurally, if at all. -/
theorem onlyStructural_ofDeclarations (d : Declaration) (companion : Option Declaration) :
    OnlyStructural (ofDeclarations d companion) := by
  cases companion with
  | none => exact ok _
  | some c =>
      intro fault h
      cases hc : AttachedProperty.ofDeclaration c with
      | ok attached => simp [ofDeclarations, hc] at h
      | error e =>
          obtain rfl : e = fault := by simpa [ofDeclarations, hc] using h
          exact AttachedProperty.onlyStructural_ofDeclaration c e hc

/-- Bringing declarations and their companions together fails structurally, if at all. -/
theorem onlyStructural_withCompanions (found : Registry Declaration)
    (declarations : List Declaration) : OnlyStructural (withCompanions found declarations) := by
  induction declarations with
  | nil => exact ok []
  | cons d rest ih =>
      unfold withCompanions
      split
      · exact ih
      · refine (onlyStructural_ofDeclarations d _).bind fun e => ?_
        exact ih.bind fun more => ok _

theorem onlyStructural_ofTree (origin : String) (sourceFile : Option Path)
    (nodes : List Source.Node) : OnlyStructural (ofTree origin sourceFile nodes) := by
  refine (Declaration.onlyStructural_ofTree _ sourceFile _).bind fun declarations => ?_
  refine (onlyStructural_companions _ _ declarations _).bind fun found => ?_
  exact onlyStructural_withCompanions found declarations

/-- Every fault of a text is structural, whatever reader reads it. -/
theorem onlyStructural_ofText (reader : SourceReader) (sourceFile : Option Path) (text : List Char) :
    OnlyStructural (ofText reader sourceFile text) := by
  unfold ofText
  simp only
  split
  · exact error rfl
  · exact onlyStructural_ofTree _ sourceFile _

end ModelElement

/-- A source file is refused for a structural fault only. -/
theorem onlyStructural_elements (reader : SourceReader) (tree : FileTree) (path : Path) :
    OnlyStructural (SourceFile.elements reader tree path) := by
  refine bind ?_ fun cs => ModelElement.onlyStructural_ofText reader (some path) cs
  unfold SourceFile.text
  split
  · exact error rfl
  · split
    · exact error rfl
    · exact ok _

end PlatformClasses
