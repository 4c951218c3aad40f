import PlatformClasses.Config.Basic
import PlatformClasses.Proofs.Outcome
import PlatformClasses.SourceFile

/-!
# Reading declarations

Each interface of a syntax tree becomes one declaration, in the order of the source.

What is read of a text depends on the reader of sources.  The lemmas here are about any reader; those
that name tokens are about the built-in one.
-/

namespace PlatformClasses

/-- What the built-in reader makes of a text, by the tokens of the text. -/
theorem SourceReader.treeOf?_builtIn (text : List Char) :
    builtIn.treeOf? text = (Source.tokens? text).bind Source.treeOfTokens? :=
  rfl

namespace Declaration

/-- The declarations of interfaces are named like them, in order. -/
theorem name_of_ofInterfaces {nameSpace : String} {usings : List String} {sourceFile : Option Path}
    {interfaces : List PlacedInterface} {declarations : List Declaration}
    (h : ofInterfaces nameSpace usings sourceFile interfaces = .ok declarations) :
    declarations.map (·.name) = interfaces.map (·.name) := by
  induction interfaces generalizing declarations with
  | nil =>
      obtain rfl : [] = declarations := by simpa [ofInterfaces] using h
      rfl
  | cons i rest ih =>
      unfold ofInterfaces at h
      split at h
      · obtain ⟨methods, -, h⟩ := bind_eq_ok.1 h
        obtain ⟨more, hmore, h⟩ := bind_eq_ok.1 h
        obtain rfl := pure_eq_ok.1 h
        rw [List.map_cons, List.map_cons, ih hmore]
      · simp at h

/-- The declarations of a tree are named like its interfaces. -/
theorem name_of_ofTree {origin : String} {sourceFile : Option Path} {nodes : List Source.Node}
    {declarations : List Declaration} (h : ofTree origin sourceFile nodes = .ok declarations) :
    declarations.map (·.name) =
      (interfacesOfAll [Source.Node.sourceKindName] nodes).map (·.name) := by
  obtain ⟨namespaces, -, h⟩ := bind_eq_ok.1 h
  split at h
  · exact name_of_ofInterfaces h
  · simp at h

/-- The namespaces are the same whatever messages call the source. -/
theorem namespacesOf_anyOrigin {origin origin' : String} {nodes : List Source.Node}
    {names : List String} (h : namespacesOf origin' nodes = .ok names) :
    namespacesOf origin nodes = .ok names := by
  induction nodes generalizing names with
  | nil => exact h
  | cons node rest ih =>
      cases node with
      | namespaceBlock name members =>
          obtain ⟨more, hmore, rfl⟩ := map_eq_ok.1 h
          exact map_eq_ok.2 ⟨more, ih hmore, rfl⟩
      | usingDirective directive => exact ih h
      | externAlias => exact ih h
      | _ => cases h

end Declaration

namespace ModelElement

/-- A tree with one namespace and no interfaces has no elements. -/
theorem ofTree_eq_nil {origin origin' nameSpace : String} {nodes : List Source.Node}
    (hnameSpace : Declaration.namespacesOf origin' nodes = .ok [nameSpace])
    (hnone : Declaration.interfacesOfAll [Source.Node.sourceKindName] nodes = [])
    (sourceFile : Option Path) : ofTree origin sourceFile nodes = .ok [] := by
  have hdeclarations : Declaration.ofTree origin sourceFile nodes = .ok [] := by
    rw [Declaration.ofTree, Declaration.namespacesOf_anyOrigin hnameSpace, hnone]
    rfl
  rw [ofTree, hdeclarations]
  rfl

/-- The elements of a text are those of its tree. -/
theorem ofText_eq_ok {reader : SourceReader} {sourceFile : Option Path} {text : List Char}
    {elements : List ModelElement} :
    ofText reader sourceFile text = .ok elements ↔ ∃ nodes declarations,
      reader.treeOf? text = some nodes ∧
        Declaration.ofTree (originOf sourceFile) sourceFile nodes = .ok declarations ∧
          ofSource (originOf sourceFile) declarations = .ok elements := by
  unfold ofText
  cases reader.treeOf? text with
  | none => simp
  | some nodes => simp [ofTree, bind_eq_ok]

/-- The elements of a text by its tokens. -/
theorem ofText_of_tokens {sourceFile : Option Path} {text : List Char} {tokens : List Source.Token}
    {origin : String} {elements : List ModelElement} (htokens : Source.tokens? text = some tokens)
    (horigin : originOf sourceFile = origin)
    (helements : (Source.treeOfTokens? tokens).map (ofTree origin sourceFile) =
      some (.ok elements)) :
    ofText .builtIn sourceFile text = .ok elements := by
  subst horigin
  obtain ⟨nodes, hnodes, helements⟩ := Option.map_eq_some_iff.1 helements
  simp only [ofText, SourceReader.treeOf?_builtIn, htokens, Option.bind_some, hnodes]
  exact helements

end ModelElement

/-- The elements of a file by the tokens of its text. -/
theorem elements_of_tokens {tree : FileTree} {path : Path} {text : List Char}
    {tokens : List Source.Token} {origin : String} {elements : List ModelElement}
    (htext : SourceFile.text tree path = .ok text) (htokens : Source.tokens? text = some tokens)
    (horigin : path.toString = origin)
    (helements : (Source.treeOfTokens? tokens).map (ModelElement.ofTree origin (some path)) =
      some (.ok elements)) :
    SourceFile.elements .builtIn tree path = .ok elements := by
  simp only [SourceFile.elements, htext, bind, Except.bind]
  exact ModelElement.ofText_of_tokens htokens horigin helements

/-! ## Sources of empty interfaces -/

namespace EmptyInterfaces

/-- A namespace of empty interfaces as text. -/
def text (names : List String) : String :=
  names.foldl (fun text name => text ++ "interface " ++ name ++ "\x7b\x7d") "namespace M\x7b" ++ "\x7d"

/-- The tokens of that text. -/
def tokens (names : List String) : List Source.Token :=
  let word := Source.Token.mk [] .word
  let name := Source.Token.mk [⟨.blank, " "⟩] .word
  let mark := Source.Token.mk [] .mark
  [word "namespace", name "M", mark "\x7b"] ++
    names.flatMap (fun n => [word "interface", name n, mark "\x7b", mark "\x7d"]) ++
      [mark "\x7d", ⟨[], .stop, ""⟩]

/-- An empty interface. -/
def declaration (sourceFile : Option Path) (name : String) : Declaration :=
  ⟨name, "M", [], [], [], [], sourceFile⟩

/-- An empty interface that nothing accompanies. -/
def element (sourceFile : Option Path) (name : String) : ModelElement :=
  ⟨declaration sourceFile name, none, []⟩

/-- A run that reads such texts. -/
def config (inputs : List Path) : Config where
  inputs := inputs
  outputRoot := ⟨0, []⟩
  platform := "wpf"
  rootNamespace := "M"
  collections := .empty
  verbose := false
  logDirectory := none

end EmptyInterfaces

/-! ## A source with a fluent property -/

namespace FluentInterface

/-- An interface with a fluent property as text. -/
def text (name : String) : String :=
  "namespace M\x7binterface " ++ name ++ "\x7b[Fluent]int X\x7bget;\x7d\x7d\x7d"

/-- The tokens of that text. -/
def tokens (name : String) : List Source.Token :=
  let word := Source.Token.mk [] .word
  let apart := Source.Token.mk [⟨.blank, " "⟩] .word
  let mark := Source.Token.mk [] .mark
  [word "namespace", apart "M", mark "\x7b", word "interface", apart name, mark "\x7b", mark "[",
    word "Fluent", mark "]", word "int", apart "X", mark "\x7b", word "get", mark ";", mark "\x7d",
    mark "\x7d", mark "\x7d", ⟨[], .stop, ""⟩]

/-- The element of such an interface. -/
def element (sourceFile : Path) (name : String) : ModelElement :=
  ⟨⟨name, "M", [], [⟨"X", "int", none, true, ["Fluent"]⟩], [], [], some sourceFile⟩, none, []⟩

end FluentInterface

end PlatformClasses
