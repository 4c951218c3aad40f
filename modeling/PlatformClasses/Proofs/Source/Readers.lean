import PlatformClasses.Proofs.Declaration.Reading
import PlatformClasses.Proofs.Source.Directives
import PlatformClasses.Proofs.Source.InterfaceNames
import PlatformClasses.Proofs.Source.SetterSource
import PlatformClasses.Proofs.Source.Words

/-!
# What is asked of a reader of sources

Most of what is proved of readings and runs holds whatever reads the sources.  Where a result does depend
on the reader, it asks for no more than it needs: that the names of interfaces have no slashes, that the
using directives of a tree are spelled by the tokens of its text, or that a plain source of setter methods
is well formed.  The built-in reader has all three properties.
-/

namespace PlatformClasses

open Source

namespace SourceReader

/-! ## Three properties -/

/-- No interface of a tree has a slash in its name. -/
def NamesInterfaces (r : SourceReader) : Prop :=
  ∀ text nodes, r.treeOf? text = some nodes →
    ∀ i ∈ Declaration.interfacesOfAll [Node.sourceKindName] nodes, '/' ∉ i.name.toList

/-- The using directives of a tree have the tokens of the text, in their order and with what stands
between them. -/
def QuotesUsings (r : SourceReader) : Prop :=
  ∀ text nodes, r.treeOf? text = some nodes →
    ∃ tokens, tokens? text = some tokens ∧ ReadFrom nodes tokens

/-- A text that spells a plain source of setter methods is read as one. -/
def ReadsSetters (r : SourceReader) : Prop :=
  ∀ (s : SetterSource) (text : List Char), s.IsPlain → Spells text s.faces → text.head? ≠ some '#' →
    ∃ nodes, r.treeOf? text = some nodes ∧ AreSetterNodes nodes

/-! ## The built-in reader -/

/-- The built-in reader finds interfaces whose names are words of the text. -/
theorem namesInterfaces_builtIn : builtIn.NamesInterfaces := by
  intro text nodes htree i hi hslash
  obtain ⟨tokens, htokens, hnodes⟩ := Option.bind_eq_some_iff.1 htree
  obtain ⟨t, ht, hword, htext⟩ := namedIn_treeOfTokens? hnodes _ i hi
  rw [← htext] at hslash
  have hchar := wordsAreNames_tokens? htokens t ht hword '/' hslash
  exact absurd hchar (by decide)

/-- The built-in reader gives the using directives that stand in the text, as they are written there. -/
theorem quotesUsings_builtIn : builtIn.QuotesUsings := by
  intro text nodes htree
  obtain ⟨tokens, htokens, hnodes⟩ := Option.bind_eq_some_iff.1 htree
  exact ⟨tokens, htokens, readFrom_treeOfTokens? hnodes⟩

/-- The built-in reader finds nothing in setter methods of plain names and types. -/
theorem readsSetters_builtIn : builtIn.ReadsSetters := by
  intro s text hs hspells hstart
  obtain ⟨tokens, htokens, hspelled⟩ := tokens?_of_spells hspells hstart
  obtain ⟨nodes, hnodes, hsetters⟩ := treeOfTokens?_source hs hspelled
  refine ⟨nodes, ?_, hsetters⟩
  rw [treeOf?_builtIn, htokens]
  exact hnodes

/-! ## What follows -/

/-- A text that spells a plain source of setter methods is read without model elements. -/
theorem ReadsSetters.ofText {r : SourceReader} (hr : r.ReadsSetters) {s : SetterSource}
    (hs : s.IsPlain) {text : List Char} (h : Spells text s.faces) (hstart : text.head? ≠ some '#')
    (sourceFile : Option Path) : ModelElement.ofText r sourceFile text = .ok [] := by
  obtain ⟨nodes, htree, hsetters⟩ := hr s text hs h hstart
  rw [ModelElement.ofText, htree]
  exact hsetters.ofTree _ sourceFile

end SourceReader

end PlatformClasses
