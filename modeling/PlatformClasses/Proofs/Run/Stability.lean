import PlatformClasses.Proofs.ClassFile.Contents
import PlatformClasses.Proofs.ClassFile.ExtensionFiles
import PlatformClasses.Proofs.Declaration.Reading
import PlatformClasses.Proofs.Run.Rerun

/-!
# Stable runs

The usual place of extension methods lies in the directory that the model is read from, so that the next
run finds them among its inputs.  As long as it finds no model elements in what was written, the run
repeats itself (`Session.run_again`).  There are none in the extension methods of declarations whose names
and types are plain; of a class that is found again it must be known that none are read from its text.  The
run does not repeat itself for an interface `IFor`, whose variable is a reserved word that the list of
keywords does not have.
-/

namespace PlatformClasses

open ClassFile

/-! ## The text of a generated file -/

/-- Well laid lines that are filled begin with the first of these, at no depth. -/
theorem WellLaid.head_eq {ls : List DraftLine} (h : WellLaid ls) {first : String} {rest : List String}
    (hfilled : (ls.map (·.text)).filter (· != "") = first :: rest) (hplain : IsPlain first) :
    ∃ more, ls = ⟨0, first⟩ :: more := by
  cases ls with
  | nil => simp at hfilled
  | cons l ls =>
      have hl : l.text ≠ "" := h.first l rfl
      obtain ⟨rfl, -⟩ : l.text = first ∧ (ls.map (·.text)).filter (· != "") = rest := by
        simpa [hl] using hfilled
      have hdepth := h.nested.depth_add [] l ls rfl hl
      obtain ⟨depth, text⟩ := l
      obtain rfl : depth = 0 := by
        simpa [opened, closed, hplain.ne_closing] using hdepth
      exact ⟨ls, rfl⟩

/-- Every generated file begins with a comment. -/
theorem generate_begins {t : Target} {e : ModelElement} {files : List GeneratedFile}
    (h : generate t e = .ok files) {f : GeneratedFile} (hf : f ∈ files) :
    ∃ cs, f.content.toList = '/' :: cs := by
  have hlaid := (generate_wellLaid h f hf).1
  obtain ⟨fs, s, -, -, -, -, rfl, hold, -⟩ := ElementFiles.exists_of_generate h
  have hfilled : ∃ name rest, f.draft.filledLines = headerLine name :: rest := by
    rcases List.mem_cons.1 hf with rfl | hf
    · exact ⟨_, _, hold.primary.lines⟩
    rcases List.mem_append.1 hf with hf | hf
    · have hattached := hold.attached
      rw [Option.mem_toList.1 hf] at hattached
      generalize s.attached = c at hattached
      cases hattached with
      | some hin => exact ⟨_, _, hin.lines⟩
    · have hextensions := hold.extensions
      rw [Option.mem_toList.1 hf] at hextensions
      generalize s.extensions = c at hextensions
      cases hextensions with
      | some hin => exact ⟨_, _, hin.lines⟩
  obtain ⟨name, rest, hfilled⟩ := hfilled
  have hslash : '/' ∈ (headerLine name).toList := by
    rw [headerLine_eq]
    simp
  obtain ⟨more, hlines⟩ := hlaid.head_eq hfilled (.of_mem '/' hslash (by decide) (by decide))
  rw [GeneratedFile.content, Draft.text_eq_linesText, hlines, toList_linesText, headerLine_eq]
  simp

/-- A file in whose text a reader finds no model elements. -/
def GeneratedFile.DeclaresNothing (reader : SourceReader) (f : GeneratedFile) : Prop :=
  ∀ sourceFile,
    ModelElement.ofText reader sourceFile (SourceFile.lineFeeds f.content.toList) = .ok []

variable {reader : SourceReader}

/-- A file that declares nothing is silent wherever it is read. -/
theorem GeneratedFile.DeclaresNothing.isSilent {t : Target} {e : ModelElement}
    {files : List GeneratedFile} (h : generate t e = .ok files) {f : GeneratedFile} (hf : f ∈ files)
    (hnothing : f.DeclaresNothing reader) : f.IsSilent reader := by
  intro tree path hread
  obtain ⟨cs, hcs⟩ := generate_begins h hf
  have htext := hnothing (some path)
  rw [GeneratedFile.bytes, hcs] at hread
  rw [hcs] at htext
  rw [SourceFile.elements_of_read hread, htext]

/-- What an input may find of what is written for an element: the extension methods of a plain
declaration, and of the class and the attached class such files as declare nothing. -/
structure ModelElement.MayMeet (reader : SourceReader) (t : Target) (e : ModelElement)
    (here : List String) (input : Path) : Prop where
  own : ∀ classes, ClassSet.ofElement t e = .ok classes → ∀ d ∈ classes.ownPlaces, ∀ p,
    t.pathOf d.nameSpace d.className = .ok p → FileTree.place here p = FileTree.place here input →
      ∀ files, generate t e = .ok files → ∀ f ∈ files, f.path = p → f.DeclaresNothing reader
  plain : ∀ classes c, ClassSet.ofElement t e = .ok classes → classes.extensions = some c → ∀ p,
    t.pathOf c.nameSpace c.name = .ok p → FileTree.place here p = FileTree.place here input →
      e.declaration.IsPlain

/-- A file that an input may find declares no interfaces. -/
theorem isSilent_of_mayMeet (hreader : reader.ReadsSetters) {t : Target}
    (ht : Target.FollowsMarker t.known) {e : ModelElement} {files : List GeneratedFile}
    (h : generate t e = .ok files) {f : GeneratedFile} (hf : f ∈ files) {here : List String}
    {input : Path} (hplace : FileTree.place here f.path = FileTree.place here input)
    (hmeet : e.MayMeet reader t here input) : f.IsSilent reader := by
  obtain ⟨classes, hclasses, hfiles⟩ := bind_eq_ok.1 h
  rcases ClassSet.mem_files_cases hfiles hf with ⟨d, hd, hpath⟩ | ⟨c, hc, hpath, hdraft⟩
  · exact (hmeet.own classes hclasses d hd f.path hpath hplace files h f hf rfl).isSilent h hf
  · have hplain := hmeet.plain classes c hclasses hc f.path hpath hplace
    exact fun tree path hread =>
      ClassSet.elements_of_read_extensions hreader ht hplain hclasses hc hdraft hread

namespace Session

/-- A run repeats itself on the tree that it leaves, if its inputs find nothing of what it writes but the
extension methods of plain declarations and classes whose files declare nothing, and if it replaces no file
that declares something.  Of the reader it is asked that it reads plain sources of setter methods. -/
theorem run_again (hreader : reader.ReadsSetters) {config : Config} {settings : Settings}
    {platforms : List String} {s again : Session} {elements : List ModelElement} {paths : List Path}
    (htree : s.tree.IsProper) (hroot : config.outputRoot.IsSound)
    (hinputs : Discovery.AreSettled s.tree config.inputs)
    (hread : elementsOf reader s.tree (Discovery.ofInputs s.tree config.inputs).files = .ok elements)
    (h : (run reader config settings platforms s).2 = .ok paths)
    (hagain : again.tree = (run reader config settings platforms s).1.tree)
    (hmeet : ∀ input ∈ (Discovery.ofInputs again.tree config.inputs).files,
      ∀ platform ∈ chosenPlatforms config platforms, ∀ t,
        config.target settings elements platform = .ok t → ∀ e ∈ elements,
          e.MayMeet reader t s.tree.here input)
    (hreplaced : ∀ input ∈ (Discovery.ofInputs s.tree config.inputs).files, ∀ p ∈ paths,
      FileTree.place s.tree.here p = FileTree.place s.tree.here input →
        SourceFile.elements reader s.tree input = .ok []) :
    (run reader config settings platforms again).2 = .ok paths ∧
      ∀ p, (run reader config settings platforms again).1.tree.lookup? p = again.tree.lookup? p := by
  have hpaths := (writes_of_run hread h).paths
  refine run_again_of_silent htree hroot hinputs hread h hagain ?_ ?_
  · intro input hinput f hlast
    obtain ⟨hf, hplace⟩ := FileTree.mem_of_lastAt? hlast
    obtain ⟨platform, hplatform, t, ht, e, he, files, hfiles, hmem⟩ := exists_of_mem_runFiles hf
    exact isSilent_of_mayMeet hreader (Config.followsMarker_of_target ht) hfiles hmem hplace
      (hmeet input hinput platform hplatform t ht e he)
  · intro input hinput f hlast
    obtain ⟨hf, hplace⟩ := FileTree.mem_of_lastAt? hlast
    refine hreplaced input hinput f.path ?_ hplace
    rw [hpaths]
    exact List.mem_map_of_mem hf

/-! An interface with a fluent property, generated into the directory that it is read from. -/

private def nestedPath : Path := ⟨0, ["src", "StandardUI", "a.cs"]⟩

private def nestedFile (project name : String) : Path := ⟨0, ["src", project, "generated", name]⟩

private def nestedSession (name : String) : Session where
  tree := ⟨[], [(⟨1, ["src"]⟩, .directory), (⟨1, ["src", "StandardUI"]⟩, .directory),
    (⟨1, ["src", "StandardUI", "a.cs"]⟩, .file (Text.Utf8.encode (FluentInterface.text name).toList))]⟩

private def nestedConfig (input : List String) : Config :=
  { EmptyInterfaces.config [⟨0, input⟩] with outputRoot := ⟨0, ["src"]⟩ }

private def nestedElements (name : String) : List ModelElement :=
  [FluentInterface.element nestedPath name]

private theorem elements_nested {tree : FileTree} {name : String}
    (htext : SourceFile.text tree nestedPath = .ok (FluentInterface.text name).toList)
    (htokens : Source.tokens? (FluentInterface.text name).toList =
      some (FluentInterface.tokens name))
    (helements : (Source.treeOfTokens? (FluentInterface.tokens name)).map
      (ModelElement.ofTree "src/StandardUI/a.cs" (some nestedPath)) =
        some (.ok (nestedElements name))) :
    SourceFile.elements .builtIn tree nestedPath = .ok (nestedElements name) :=
  elements_of_tokens htext htokens (by decide +kernel) helements

private theorem isProper_nested (name : String) : (nestedSession name).tree.IsProper := by
  have hplaces : ∀ e ∈ (nestedSession name).tree.entries,
      e.1 ∈ [(⟨1, ["src"]⟩ : Path), ⟨1, ["src", "StandardUI"]⟩, ⟨1, ["src", "StandardUI", "a.cs"]⟩] := by
    intro e he
    exact List.mem_map_of_mem (f := Prod.fst) he
  refine ⟨fun c hc => ?_, ?_, fun e he => ?_, fun e he => ?_, fun e he => ?_, ?_⟩
  · exact absurd hc List.not_mem_nil
  · show [(⟨1, ["src"]⟩ : Path), ⟨1, ["src", "StandardUI"]⟩, ⟨1, ["src", "StandardUI", "a.cs"]⟩].Nodup
    decide
  · exact (by decide : ∀ q ∈ _, FileTree.isOnWayHere [] q = false) e.1 (hplaces e he)
  · exact (by decide : ∀ q ∈ _, FileTree.IsCanonical q) e.1 (hplaces e he)
  · exact (by decide : ∀ q ∈ _, Path.IsSound q) e.1 (hplaces e he)
  · intro e he
    rcases List.mem_cons.1 he with rfl | he
    · rfl
    rcases List.mem_cons.1 he with rfl | he
    · rfl
    obtain rfl := List.mem_singleton.1 he
    rfl

private theorem isPlain_nested : (FluentInterface.element nestedPath "IA").declaration.IsPlain where
  name := by decide +kernel
  nameSpace := by decide +kernel
  usings := by decide +kernel
  made := by
    intro className h
    obtain rfl : "A" = className := Option.some.inj h
    decide +kernel
  properties := by
    intro p hp _
    obtain rfl := List.mem_singleton.1 hp
    refine ⟨by decide +kernel, fun type htype => ?_⟩
    have hparse : TypeRef.parse "int" = .ok (.mk "int" [] false []) := by decide +kernel
    obtain rfl := Except.ok.inj (hparse.symm.trans htype)
    decide +kernel

/-- The characters of lines with four spaces for each level. -/
private def charsOf (ls : List DraftLine) : List Char :=
  ls.flatMap fun l => List.replicate (4 * (l.depth : Int)).toNat ' ' ++ l.text.toList ++ ['\n']

private def classLines : List DraftLine :=
  [⟨0, "// This file is generated from IA.cs. Update the source file to change its contents."⟩,
    ⟨0, ""⟩, ⟨0, "using M;"⟩, ⟨0, "using System.Windows;"⟩, ⟨0, ""⟩,
    ⟨0, "namespace Microsoft.StandardUI.Wpf"⟩, ⟨0, "\x7b"⟩,
    ⟨1, "public class A : StandardUIDependencyObject, IA"⟩, ⟨1, "\x7b"⟩,
    ⟨2, "public static readonly System.Windows.DependencyProperty XProperty = " ++
      "PropertyUtils.Create(nameof(X), typeof(int), typeof(A), 0);"⟩, ⟨0, ""⟩,
    ⟨2, "public int X"⟩, ⟨2, "\x7b"⟩, ⟨3, "get => (int) GetValue(XProperty);"⟩,
    ⟨3, "set => SetValue(XProperty, value);"⟩, ⟨2, "\x7d"⟩, ⟨1, "\x7d"⟩, ⟨0, "\x7d"⟩]

private theorem ofText_classLines (sourceFile : Option Path) :
    ModelElement.ofText .builtIn sourceFile (charsOf classLines) = .ok [] := by
  have htree : (SourceReader.builtIn.treeOf? (charsOf classLines)).map (fun nodes =>
      (Declaration.namespacesOf "" nodes,
        (Declaration.interfacesOfAll [Source.Node.sourceKindName] nodes).map (·.name))) =
          some (.ok ["Microsoft.StandardUI.Wpf"], []) := by
    decide +kernel
  obtain ⟨nodes, hnodes, hread⟩ := Option.map_eq_some_iff.1 htree
  obtain ⟨hnameSpace, hnone⟩ := Prod.mk.inj hread
  rw [ModelElement.ofText, hnodes]
  exact ModelElement.ofTree_eq_nil hnameSpace (List.map_eq_nil_iff.1 hnone) sourceFile

/-- The file of the class declares nothing. -/
private theorem declaresNothing_class {t : Target}
    (ht : (nestedConfig ["src"]).target .default (nestedElements "IA") "wpf" = .ok t)
    {files : List GeneratedFile}
    (h : generate t (FluentInterface.element nestedPath "IA") = .ok files) {f : GeneratedFile}
    (hf : f ∈ files) (hpath : f.path = nestedFile "StandardUI.WPF" "A.cs") :
    f.DeclaresNothing .builtIn := by
  have hlines : (((nestedConfig ["src"]).target .default (nestedElements "IA") "wpf").bind fun t =>
      (generate t (FluentInterface.element nestedPath "IA")).map fun files =>
        (files.filter (·.path == nestedFile "StandardUI.WPF" "A.cs")).map fun f =>
          (f.draft.indentSize, f.draft.lines)) = .ok [(4, classLines)] := by
    decide +kernel
  rw [ht] at hlines
  simp only [Except.bind, h, Except.map, Except.ok.injEq] at hlines
  have hkept : f ∈ files.filter (·.path == nestedFile "StandardUI.WPF" "A.cs") := by
    simp [hf, hpath]
  have hmem := List.mem_map_of_mem (f := fun f : GeneratedFile => (f.draft.indentSize, f.draft.lines))
    hkept
  rw [hlines, List.mem_singleton, Prod.mk.injEq] at hmem
  have hfeeds : '\r' ∉ (linesText 4 classLines).toList := not_mem_linesText (by decide +kernel) 4
  intro sourceFile
  rw [GeneratedFile.content, Draft.text_eq_linesText, hmem.1, hmem.2,
    SourceFile.lineFeeds_of_not_mem hfeeds, toList_linesText]
  exact ofText_classLines sourceFile

/-- The next run finds the class and its extension methods and repeats the first one. -/
theorem run_again_nested :
    (run .builtIn (nestedConfig ["src"]) .default ["wpf"] (nestedSession "IA")).2 =
        .ok [nestedFile "StandardUI.WPF" "A.cs", nestedFile "StandardUI" "AExtensions.cs"] ∧
      (Discovery.ofInputs
        (run .builtIn (nestedConfig ["src"]) .default ["wpf"] (nestedSession "IA")).1.tree
        (nestedConfig ["src"]).inputs).files =
          [nestedPath, nestedFile "StandardUI" "AExtensions.cs", nestedFile "StandardUI.WPF" "A.cs"] ∧
      ∀ again : Session,
        again.tree = (run .builtIn (nestedConfig ["src"]) .default ["wpf"] (nestedSession "IA")).1.tree →
          (run .builtIn (nestedConfig ["src"]) .default ["wpf"] again).2 =
              .ok [nestedFile "StandardUI.WPF" "A.cs", nestedFile "StandardUI" "AExtensions.cs"] ∧
            ∀ p, (run .builtIn (nestedConfig ["src"]) .default ["wpf"] again).1.tree.lookup? p =
              again.tree.lookup? p := by
  have hfound : (Discovery.ofInputs (nestedSession "IA").tree (nestedConfig ["src"]).inputs).files =
      [nestedPath] := by
    decide +kernel
  have hread : elementsOf .builtIn (nestedSession "IA").tree
      (Discovery.ofInputs (nestedSession "IA").tree (nestedConfig ["src"]).inputs).files =
        .ok (nestedElements "IA") := by
    rw [hfound]
    exact elementsOf_singleton
      (elements_nested (by decide +kernel) (by decide +kernel) (by decide +kernel))
  have hresult : (run .builtIn (nestedConfig ["src"]) .default ["wpf"] (nestedSession "IA")).2 =
      .ok [nestedFile "StandardUI.WPF" "A.cs", nestedFile "StandardUI" "AExtensions.cs"] := by
    rw [result_of_read_ok hread]
    decide +kernel
  have hfiles : (Discovery.ofInputs
      (run .builtIn (nestedConfig ["src"]) .default ["wpf"] (nestedSession "IA")).1.tree
      (nestedConfig ["src"]).inputs).files =
        [nestedPath, nestedFile "StandardUI" "AExtensions.cs", nestedFile "StandardUI.WPF" "A.cs"] := by
    rw [tree_of_read_ok hread]
    decide +kernel
  refine ⟨hresult, hfiles, fun again hagain => ?_⟩
  refine run_again SourceReader.readsSetters_builtIn (isProper_nested "IA") (by decide)
    ⟨by decide, by decide⟩ hread hresult hagain ?_ ?_
  · intro input hinput platform hplatform t ht e he
    obtain rfl : platform = "wpf" := List.mem_singleton.1 hplatform
    obtain rfl := List.mem_singleton.1 he
    refine ⟨fun classes hclasses d hd p hp _ files h f hf hpath => ?_, fun _ _ _ _ _ _ _ => isPlain_nested⟩
    have hpaths : (((nestedConfig ["src"]).target .default (nestedElements "IA") "wpf").bind fun t =>
        (ClassSet.ofElement t (FluentInterface.element nestedPath "IA")).map fun classes =>
          classes.ownPlaces.map fun d => t.pathOf d.nameSpace d.className) =
        .ok [.ok (nestedFile "StandardUI.WPF" "A.cs")] := by
      decide +kernel
    rw [ht] at hpaths
    simp only [Except.bind, hclasses, Except.map, Except.ok.injEq] at hpaths
    have hplace := List.mem_map_of_mem (f := fun d => t.pathOf d.nameSpace d.className) hd
    rw [hpaths, hp, List.mem_singleton] at hplace
    obtain rfl := Except.ok.inj hplace
    exact declaresNothing_class ht h hf hpath
  · intro input hinput p hp hplace
    rw [hfound, List.mem_singleton] at hinput
    subst hinput
    exact absurd hplace ((by decide : ∀ p ∈ [nestedFile "StandardUI.WPF" "A.cs",
      nestedFile "StandardUI" "AExtensions.cs"],
        FileTree.place [] p ≠ FileTree.place [] nestedPath) p hp)

/-! The extension methods of an interface `IFor` have a parameter `for`, so that the next run stops at
them. -/

private def forLines : List DraftLine :=
  [⟨0, "// This file is generated from IFor.cs. Update the source file to change its contents."⟩,
    ⟨0, ""⟩, ⟨0, "namespace M"⟩, ⟨0, "\x7b"⟩, ⟨1, "public static class ForExtensions"⟩, ⟨1, "\x7b"⟩,
    ⟨2, "public static IFor X(this IFor for, int value)"⟩, ⟨2, "\x7b"⟩, ⟨3, "for.X = value;"⟩,
    ⟨3, "return for;"⟩, ⟨2, "\x7d"⟩, ⟨1, "\x7d"⟩, ⟨0, "\x7d"⟩]

private theorem treeOf?_forLines : SourceReader.builtIn.treeOf? (charsOf forLines) = none := by
  decide +kernel

private theorem elements_for {again : Session} {paths : List Path}
    (hread : elementsOf .builtIn (nestedSession "IFor").tree
      (Discovery.ofInputs (nestedSession "IFor").tree (nestedConfig ["src", "StandardUI"]).inputs).files =
        .ok (nestedElements "IFor"))
    (h : (run .builtIn (nestedConfig ["src", "StandardUI"]) .default ["wpf"] (nestedSession "IFor")).2 =
      .ok paths)
    (hagain : again.tree =
      (run .builtIn (nestedConfig ["src", "StandardUI"]) .default ["wpf"] (nestedSession "IFor")).1.tree) :
    SourceFile.elements .builtIn again.tree (nestedFile "StandardUI" "ForExtensions.cs") =
      .error (.syntaxErrors "src/StandardUI/generated/ForExtensions.cs") := by
  have hfile : (FileTree.lastAt? []
      (runFiles (nestedConfig ["src", "StandardUI"]) .default (nestedElements "IFor") ["wpf"])
      (FileTree.place [] (nestedFile "StandardUI" "ForExtensions.cs"))).map
        (fun f => (f.path, f.draft.indentSize, f.draft.lines)) =
          some (nestedFile "StandardUI" "ForExtensions.cs", 4, forLines) := by
    decide +kernel
  obtain ⟨f, hlast, hf⟩ := Option.map_eq_some_iff.1 hfile
  simp only [Prod.mk.injEq] at hf
  obtain ⟨hpath, hindent, hlines⟩ := hf
  have hplaces := (writes_of_run hread h).places
  rw [← hagain] at hplaces
  have hreach := hplaces.reached f (FileTree.mem_of_lastAt? hlast).1
  rw [hpath] at hreach
  have hhere : again.tree.here = [] := hplaces.here
  have hbytes := FileTree.read_eq_ok hreach (by rw [hhere]; exact hplaces.written _ f hlast)
  have hfeeds : '\r' ∉ (linesText 4 forLines).toList :=
    not_mem_linesText (by decide +kernel) 4
  have htree := treeOf?_forLines
  have hchars : (linesText 4 forLines).toList = charsOf forLines := toList_linesText 4 forLines
  obtain ⟨cs, hcs⟩ : ∃ cs, (linesText 4 forLines).toList = '/' :: cs := by
    rw [hchars]
    exact ⟨_, rfl⟩
  rw [GeneratedFile.bytes, GeneratedFile.content, Draft.text_eq_linesText, hindent, hlines,
    hcs] at hbytes
  rw [← hchars, hcs] at htree
  rw [hcs] at hfeeds
  have horigin : (nestedFile "StandardUI" "ForExtensions.cs").toString =
      "src/StandardUI/generated/ForExtensions.cs" := by
    decide +kernel
  rw [SourceFile.elements_of_read hbytes, SourceFile.lineFeeds_of_not_mem hfeeds, ModelElement.ofText,
    htree, ModelElement.originOf, horigin]

/-- The extension methods of an interface `IFor` have a parameter `for`, so that the next run stops at
them. -/
theorem run_again_stops_at_keyword :
    (run .builtIn (nestedConfig ["src", "StandardUI"]) .default ["wpf"] (nestedSession "IFor")).2 =
        .ok [nestedFile "StandardUI.WPF" "For.cs", nestedFile "StandardUI" "ForExtensions.cs"] ∧
      ∀ again : Session,
        again.tree = (run .builtIn (nestedConfig ["src", "StandardUI"]) .default ["wpf"]
          (nestedSession "IFor")).1.tree →
          (run .builtIn (nestedConfig ["src", "StandardUI"]) .default ["wpf"] again).2 =
            .error (.fault (.syntaxErrors "src/StandardUI/generated/ForExtensions.cs")) := by
  have hfound : (Discovery.ofInputs (nestedSession "IFor").tree
      (nestedConfig ["src", "StandardUI"]).inputs).files = [nestedPath] := by
    decide +kernel
  have hread : elementsOf .builtIn (nestedSession "IFor").tree
      (Discovery.ofInputs (nestedSession "IFor").tree (nestedConfig ["src", "StandardUI"]).inputs).files =
        .ok (nestedElements "IFor") := by
    rw [hfound]
    exact elementsOf_singleton
      (elements_nested (by decide +kernel) (by decide +kernel) (by decide +kernel))
  have hresult : (run .builtIn (nestedConfig ["src", "StandardUI"]) .default ["wpf"]
      (nestedSession "IFor")).2 =
        .ok [nestedFile "StandardUI.WPF" "For.cs", nestedFile "StandardUI" "ForExtensions.cs"] := by
    rw [result_of_read_ok hread]
    decide +kernel
  refine ⟨hresult, fun again hagain => ?_⟩
  have hfiles : (Discovery.ofInputs again.tree (nestedConfig ["src", "StandardUI"]).inputs).files =
      [nestedPath, nestedFile "StandardUI" "ForExtensions.cs"] := by
    rw [hagain, tree_of_read_ok hread]
    decide +kernel
  have hfirst : SourceFile.text again.tree nestedPath = .ok (FluentInterface.text "IFor").toList := by
    rw [hagain, tree_of_read_ok hread]
    decide +kernel
  have hstop := elements_for hread hresult hagain
  have hfault : elementsOf .builtIn again.tree
      (Discovery.ofInputs again.tree (nestedConfig ["src", "StandardUI"]).inputs).files =
        .error (.syntaxErrors "src/StandardUI/generated/ForExtensions.cs") := by
    have helements := elements_nested hfirst (by decide +kernel) (by decide +kernel)
    rw [hfiles]
    simp only [elementsOf, helements, hstop, Except.map]
  rw [run_of_read_error hfault]

end Session

end PlatformClasses
