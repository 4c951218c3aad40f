import PlatformClasses.Proofs.ClassFile.Clashes
import PlatformClasses.Proofs.Run.FailFast
import PlatformClasses.Proofs.Source.Readers

/-!
# Collisions within a run

A run writes the files of its elements in order, whatever stands at their paths.  So it is the elements
that decide whether a file is written over by another one of the same run: the paths that a run for one
platform gives are all different if and only if no two of its elements clash.
-/

namespace PlatformClasses

/-! ## The names of elements -/

section

variable {reader : SourceReader} (hreader : reader.NamesInterfaces) {elements : List ModelElement}
  {e : ModelElement}

include hreader

/-- The interfaces that a source has elements for are named like owners. -/
theorem ModelElement.isOwnerName_of_ofText {sourceFile : Option Path} {text : List Char}
    (h : ofText reader sourceFile text = .ok elements) (he : e ∈ elements) :
    IsOwnerName e.declaration.name := by
  obtain ⟨nodes, declarations, htree, hdeclarations, helements⟩ := ofText_eq_ok.1 h
  have hgrouped : (e.declaration, e.companion) ∈ grouped (·.name) declarations := by
    rw [← ofSource_eq_ok helements]
    exact List.mem_map_of_mem he
  obtain ⟨d, hd, heq⟩ := List.mem_map.1 hgrouped
  obtain rfl : d = e.declaration := (Prod.mk.inj heq).1
  obtain ⟨hmem, hattached⟩ := List.mem_filter.1 hd
  refine ⟨?_, by simpa using hattached⟩
  have hname : e.declaration.name ∈
      (Declaration.interfacesOfAll [Source.Node.sourceKindName] nodes).map (·.name) := by
    rw [← Declaration.name_of_ofTree hdeclarations]
    exact List.mem_map_of_mem hmem
  obtain ⟨i, hi, hsame⟩ := List.mem_map.1 hname
  rw [← hsame]
  exact hreader text nodes htree i hi

/-- The interfaces that the sources of a run have elements for are named like owners. -/
theorem isOwnerName_of_elementsOf {tree : FileTree} {files : List Path}
    (h : Session.elementsOf reader tree files = .ok elements) (he : e ∈ elements) :
    IsOwnerName e.declaration.name := by
  obtain ⟨parts, hparts, rfl⟩ := (Session.elementsOf_eq_ok_iff reader tree files elements).1 h
  obtain ⟨part, hpart, hmem⟩ := List.mem_flatten.1 he
  have hread : (Except.ok part : Except Fault (List ModelElement)) ∈
      files.map (SourceFile.elements reader tree) := by
    rw [hparts]
    exact List.mem_map_of_mem hpart
  obtain ⟨path, -, helements⟩ := List.mem_map.1 hread
  obtain ⟨text, -, htext⟩ := bind_eq_ok.1 helements
  exact ModelElement.isOwnerName_of_ofText hreader htext hmem

end

/-! ## The files of all elements -/

theorem disjoint_outputs_iff {t : Target} (ht : Target.FollowsMarker t.known) {e : ModelElement}
    (hname : IsOwnerName e.declaration.name) {files : List GeneratedFile}
    (hfiles : generate t e = .ok files) {elements : List ModelElement}
    (hnames : ∀ e ∈ elements, IsOwnerName e.declaration.name) {outputs : List (List GeneratedFile)}
    (houtputs : elements.map (generate t) = outputs.map .ok) :
    List.Disjoint (files.map (·.path)) (outputs.flatten.map (·.path)) ↔
      ∀ e' ∈ elements, ¬ Clash t e e' := by
  induction elements generalizing outputs with
  | nil =>
      obtain rfl : outputs = [] := by simpa using houtputs.symm
      simp
  | cons e' rest ih =>
      cases outputs with
      | nil => simp at houtputs
      | cons files' outputs =>
          obtain ⟨hfiles', hrest⟩ := List.cons.inj houtputs
          have hname' := hnames e' (by simp)
          rw [List.flatten_cons, List.map_append, List.disjoint_append_right,
            ClassSet.paths_meet_iff ht hname hname' hfiles hfiles',
            ih (fun e he => hnames e (by simp [he])) hrest, List.forall_mem_cons]

/-- The files of several elements have different paths if and only if no two of the elements clash. -/
theorem nodup_outputs_iff {t : Target} (ht : Target.FollowsMarker t.known)
    {elements : List ModelElement} (hnames : ∀ e ∈ elements, IsOwnerName e.declaration.name)
    {outputs : List (List GeneratedFile)}
    (houtputs : elements.map (generate t) = outputs.map .ok) :
    (outputs.flatten.map (·.path)).Nodup ↔ elements.Pairwise fun e e' => ¬ Clash t e e' := by
  induction elements generalizing outputs with
  | nil =>
      obtain rfl : outputs = [] := by simpa using houtputs.symm
      simp
  | cons e rest ih =>
      cases outputs with
      | nil => simp at houtputs
      | cons files outputs =>
          obtain ⟨hfiles, hrest⟩ := List.cons.inj houtputs
          have hname := hnames e (by simp)
          have hnamesRest : ∀ e ∈ rest, IsOwnerName e.declaration.name :=
            fun e he => hnames e (by simp [he])
          have hown := ClassSet.nodup_paths ht hname hfiles
          rw [List.flatten_cons, List.map_append, List.nodup_append', ih hnamesRest hrest,
            disjoint_outputs_iff ht hname hfiles hnamesRest hrest, List.pairwise_cons]
          constructor
          · rintro ⟨-, hlater, hfirst⟩
            exact ⟨hfirst, hlater⟩
          · rintro ⟨hfirst, hlater⟩
            exact ⟨hown, hlater, hfirst⟩

namespace Session

/-! ## Whole runs -/

variable {reader : SourceReader}

/-- A run for one platform that succeeds has read its elements, has generated them all, and gives their
paths in order. -/
theorem paths_of_run {config : Config} {settings : Settings} {platforms : List String} {s : Session}
    {platform : String} {paths : List Path} (hone : chosenPlatforms config platforms = [platform])
    (h : (run reader config settings platforms s).2 = .ok paths) :
    ∃ elements t, ∃ outputs : List (List GeneratedFile),
      elementsOf reader s.tree (Discovery.ofInputs s.tree config.inputs).files = .ok elements ∧
        config.target settings elements platform = .ok t ∧
          elements.map (generate t) = outputs.map .ok ∧
            paths = outputs.flatten.map (·.path) := by
  cases hread : elementsOf reader s.tree (Discovery.ofInputs s.tree config.inputs).files with
  | error fault =>
      rw [run_of_read_error hread] at h
      simp at h
  | ok elements =>
      have hjobs := carriedOut_run hread settings platforms (by simp [WritesSucceed, h])
      rw [h, hone] at hjobs
      generalize hresult : (Except.ok paths : Except Failure (List Path)) = result at hjobs
      generalize hlist : Job.ofRun [platform] elements = jobs at hjobs
      cases hjobs with
      | stopped => simp at hresult
      | @completed _ outputs houtputs _ =>
          obtain rfl := Except.ok.inj hresult
          subst hlist
          cases outputs with
          | nil => simp [Job.ofRun] at houtputs
          | cons first outputs =>
              simp only [Job.ofRun, List.flatMap_cons, List.flatMap_nil, List.append_nil,
                List.map_cons, List.map_map, List.cons.injEq] at houtputs
              obtain ⟨htarget, hrest⟩ := houtputs
              obtain ⟨t, ht, rfl⟩ := map_eq_ok.1 htarget
              refine ⟨elements, t, outputs, rfl, ht, ?_, by simp⟩
              rw [← hrest]
              refine List.map_congr_left fun e _ => ?_
              simp [Job.output, ht, bind, Except.bind]

/-- The paths that a run for one platform gives are all different if and only if no two of its elements
clash, as long as the names of interfaces have no slashes. -/
theorem run_paths_nodup_iff (hreader : reader.NamesInterfaces) {config : Config} {settings : Settings}
    {platforms : List String} {s : Session} {platform : String} {paths : List Path}
    (hone : chosenPlatforms config platforms = [platform])
    (h : (run reader config settings platforms s).2 = .ok paths) :
    ∃ elements t,
      elementsOf reader s.tree (Discovery.ofInputs s.tree config.inputs).files = .ok elements ∧
        config.target settings elements platform = .ok t ∧
          (paths.Nodup ↔ elements.Pairwise fun e e' => ¬ Clash t e e') := by
  obtain ⟨elements, t, outputs, hread, ht, houtputs, rfl⟩ := paths_of_run hone h
  refine ⟨elements, t, hread, ht, ?_⟩
  exact nodup_outputs_iff (Config.followsMarker_of_target ht)
    (fun e he => isOwnerName_of_elementsOf hreader hread he) houtputs

/-! Two interfaces of one file, and one interface in two files, which once has a base type. -/

private def pathA : Path := ⟨0, ["a.cs"]⟩

private def pathB : Path := ⟨0, ["b.cs"]⟩

private def classPath (name : String) : Path := ⟨0, ["StandardUI.WPF", "generated", name]⟩

private def distinctSession : Session where
  tree := ⟨[], [(⟨1, ["a.cs"]⟩, .file (Text.Utf8.encode (EmptyInterfaces.text ["IA", "IB"]).toList))]⟩

theorem run_paths_nodup_of_distinct :
    let elements := [EmptyInterfaces.element (some pathA) "IA",
      EmptyInterfaces.element (some pathA) "IB"]
    chosenPlatforms (EmptyInterfaces.config [pathA]) [] = ["wpf"] ∧
      (run .builtIn (EmptyInterfaces.config [pathA]) .default [] distinctSession).2 =
          .ok [classPath "A.cs", classPath "B.cs"] ∧
        ∃ t, (EmptyInterfaces.config [pathA]).target .default elements "wpf" = .ok t ∧
          elements.Pairwise fun e e' => ¬ Clash t e e' := by
  intro elements
  have hone : chosenPlatforms (EmptyInterfaces.config [pathA]) [] = ["wpf"] := rfl
  have helements : SourceFile.elements .builtIn distinctSession.tree pathA = .ok elements := by
    have htext : SourceFile.text distinctSession.tree pathA =
        .ok (EmptyInterfaces.text ["IA", "IB"]).toList := by
      decide +kernel
    have htokens : Source.tokens? (EmptyInterfaces.text ["IA", "IB"]).toList =
        some (EmptyInterfaces.tokens ["IA", "IB"]) := by
      decide +kernel
    have horigin : pathA.toString = "a.cs" := by decide +kernel
    refine elements_of_tokens htext htokens horigin ?_
    decide +kernel
  have hfiles : (Discovery.ofInputs distinctSession.tree
      (EmptyInterfaces.config [pathA]).inputs).files = [pathA] := by
    decide +kernel
  have hread : elementsOf .builtIn distinctSession.tree
      (Discovery.ofInputs distinctSession.tree (EmptyInterfaces.config [pathA]).inputs).files =
        .ok elements := by
    rw [hfiles]
    exact elementsOf_singleton helements
  have hresult : (run .builtIn (EmptyInterfaces.config [pathA]) .default [] distinctSession).2 =
      .ok [classPath "A.cs", classPath "B.cs"] := by
    rw [result_of_read_ok hread]
    decide +kernel
  obtain ⟨elements', t, hread', ht, hnodup⟩ := run_paths_nodup_iff
    SourceReader.namesInterfaces_builtIn hone hresult
  obtain rfl : elements = elements' := Except.ok.inj (hread.symm.trans hread')
  exact ⟨hone, hresult, t, ht, hnodup.1 (by decide +kernel)⟩

private def derivedText : String := "namespace M\x7binterface IA:IB\x7b\x7d\x7d"

private def derivedTokens : List Source.Token :=
  let word := Source.Token.mk [] .word
  let name := Source.Token.mk [⟨.blank, " "⟩] .word
  let mark := Source.Token.mk [] .mark
  [word "namespace", name "M", mark "\x7b", word "interface", name "IA", mark ":", word "IB",
    mark "\x7b", mark "\x7d", mark "\x7d", ⟨[], .stop, ""⟩]

private def derivedElement : ModelElement :=
  ⟨⟨"IA", "M", [], [], [], ["IB"], some pathB⟩, none, []⟩

private def repeatedSession : Session where
  tree :=
    ⟨[], [(⟨1, ["a.cs"]⟩, .file (Text.Utf8.encode (EmptyInterfaces.text ["IA"]).toList)),
      (⟨1, ["b.cs"]⟩, .file (Text.Utf8.encode derivedText.toList))]⟩

private theorem elements_repeated :
    SourceFile.elements .builtIn repeatedSession.tree pathA =
        .ok [EmptyInterfaces.element (some pathA) "IA"] ∧
      SourceFile.elements .builtIn repeatedSession.tree pathB = .ok [derivedElement] := by
  constructor
  · have htext : SourceFile.text repeatedSession.tree pathA =
        .ok (EmptyInterfaces.text ["IA"]).toList := by
      decide +kernel
    have htokens : Source.tokens? (EmptyInterfaces.text ["IA"]).toList =
        some (EmptyInterfaces.tokens ["IA"]) := by
      decide +kernel
    have horigin : pathA.toString = "a.cs" := by decide +kernel
    refine elements_of_tokens htext htokens horigin ?_
    decide +kernel
  · have htext : SourceFile.text repeatedSession.tree pathB = .ok derivedText.toList := by
      decide +kernel
    have htokens : Source.tokens? derivedText.toList = some derivedTokens := by decide +kernel
    have horigin : pathB.toString = "b.cs" := by decide +kernel
    refine elements_of_tokens htext htokens horigin ?_
    decide +kernel

/-- The class of an interface that two files declare is written twice to one path. -/
theorem run_repeats_path :
    (run .builtIn (EmptyInterfaces.config [pathA, pathB]) .default ["wpf"] repeatedSession).2 =
        .ok [classPath "A.cs", classPath "A.cs"] ∧
      ¬ [classPath "A.cs", classPath "A.cs"].Nodup := by
  obtain ⟨hfirst, hsecond⟩ := elements_repeated
  have hfiles : (Discovery.ofInputs repeatedSession.tree
      (EmptyInterfaces.config [pathA, pathB]).inputs).files = [pathA, pathB] := by
    decide +kernel
  have hread : elementsOf .builtIn repeatedSession.tree (Discovery.ofInputs repeatedSession.tree
      (EmptyInterfaces.config [pathA, pathB]).inputs).files =
        .ok [EmptyInterfaces.element (some pathA) "IA", derivedElement] := by
    rw [hfiles, elementsOf_eq_ok_iff]
    exact ⟨[[EmptyInterfaces.element (some pathA) "IA"], [derivedElement]],
      by simp [hfirst, hsecond], by simp⟩
  constructor
  · rw [result_of_read_ok hread]
    decide +kernel
  · decide

end Session

end PlatformClasses
