import PlatformClasses.Proofs.Run.Collisions
import PlatformClasses.Proofs.Run.Outputs

/-!
# The order of platforms

Runs for the same platforms leave the same tree, in whatever order the platforms come and however often.
A run reads all of its elements before it writes, so its files are those of its platforms; and where
several platforms write to one place, each of them leaves the same file there, if the ending of file names
does not lead up.  An ending that leads up lets the files of all platforms end up in one place, and then
the last platform counts (`tree_depends_on_order`).
-/

namespace PlatformClasses

/-! ## Targets of one run -/

theorem Platform.mem_all_of_ofName {name : String} {p : Platform} (h : ofName name = .ok p) :
    p ∈ all := by
  unfold ofName at h
  split at h
  · next q hq =>
    obtain rfl := Except.ok.inj h
    exact List.mem_of_find?_eq_some hq
  · simp at h

/-- The settings leave the directories as they usually are, and file names do not lead up. -/
structure Settings.AreUsual (settings : Settings) : Prop where
  sharedProject : settings.sharedProject = "StandardUI"
  generatedDirectory : settings.generatedDirectory = "generated"
  staysBelow : ".." ∉ (Text.pieces '/' settings.fileExtension).tail

/-- With the usual settings, every target of a run is a usual one. -/
theorem Config.isUsual_of_target {c : Config} {settings : Settings} (hsettings : settings.AreUsual)
    {elements : List ModelElement} {platform : String} {t : Target}
    (h : c.target settings elements platform = .ok t) : t.IsUsual := by
  rw [target_eq_map] at h
  obtain ⟨p, hp, rfl⟩ := map_eq_ok.1 h
  exact
    { platform := Platform.mem_all_of_ofName hp
      sharedProject := hsettings.sharedProject
      generatedDirectory := hsettings.generatedDirectory
      staysBelow := hsettings.staysBelow }

/-- The targets of a run differ in their platforms alone. -/
theorem Config.target_eq_withPlatform {c : Config} {settings : Settings}
    {elements : List ModelElement} {platform platform' : String} {t t' : Target}
    (h : c.target settings elements platform = .ok t)
    (h' : c.target settings elements platform' = .ok t') : t' = t.withPlatform t'.platform := by
  rw [target_eq_map] at h h'
  obtain ⟨p, -, rfl⟩ := map_eq_ok.1 h
  obtain ⟨p', -, rfl⟩ := map_eq_ok.1 h'
  rfl

/-- Which files a run has depends on which platforms there are, not on their order. -/
theorem mem_runFiles_congr {config : Config} {settings : Settings} {elements : List ModelElement}
    {platforms platforms' : List String} (h : ∀ platform, platform ∈ platforms ↔ platform ∈ platforms')
    (f : GeneratedFile) : f ∈ runFiles config settings elements platforms ↔
      f ∈ runFiles config settings elements platforms' := by
  simp only [runFiles, List.mem_flatMap, h]

namespace Session

/-- Platforms of one run leave the same file wherever two of them write. -/
theorem lastAt?_platformFiles {here : List String} {config : Config} {settings : Settings}
    (hsettings : settings.AreUsual) {elements : List ModelElement} (hnamed : ∀ e ∈ elements, IsOwnerName e.declaration.name ∧
      IsDotted e.declaration.nameSpace) {platform platform' : String}
    (h : Generates config settings elements platform)
    (h' : Generates config settings elements platform') {q : Path} {f g : GeneratedFile}
    (hf : FileTree.lastAt? here (platformFiles config settings elements platform) q = some f)
    (hg : FileTree.lastAt? here (platformFiles config settings elements platform') q = some g) :
    f = g := by
  obtain ⟨t, ht, hgenerates⟩ := h
  obtain ⟨t', ht', hgenerates'⟩ := h'
  have hknown := Config.followsMarker_of_target ht
  have hplatform := (Config.isUsual_of_target hsettings ht').platform
  rw [platformFiles_of_target ht] at hf
  rw [platformFiles_of_target ht'] at hg
  rw [Config.target_eq_withPlatform ht ht'] at hg hgenerates'
  exact lastAt?_eq (Config.isUsual_of_target hsettings ht) hplatform
    (fun e he => ⟨hknown, (hnamed e he).1, (hnamed e he).2⟩) hgenerates hgenerates' hf hg

/-- Runs for the same platforms in any order leave the same tree.  In it the extension methods of an
element are the same for every platform, and no platform writes where the class or the attached class of
another one goes.  Of the reader it is asked that the names of interfaces have no slashes. -/
theorem run_platform_order {reader : SourceReader} (hreader : reader.NamesInterfaces) {config : Config}
    {settings : Settings} (hsettings : settings.AreUsual) {platforms platforms' : List String} {s : Session}
    {elements : List ModelElement}
    (hread : elementsOf reader s.tree (Discovery.ofInputs s.tree config.inputs).files = .ok elements)
    (hnames : ∀ e ∈ elements, IsDotted e.declaration.nameSpace)
    (hsame : ∀ platform, platform ∈ chosenPlatforms config platforms ↔
      platform ∈ chosenPlatforms config platforms') {paths paths' : List Path}
    (h : (run reader config settings platforms s).2 = .ok paths)
    (h' : (run reader config settings platforms' s).2 = .ok paths') :
    (∀ p, (run reader config settings platforms s).1.tree.lookup? p =
      (run reader config settings platforms' s).1.tree.lookup? p) ∧
    ∀ platform ∈ chosenPlatforms config platforms, ∀ other ∈ chosenPlatforms config platforms,
      ∀ t t', config.target settings elements platform = .ok t →
        config.target settings elements other = .ok t' →
          (∀ e ∈ elements, ∀ classes classes', ClassSet.ofElement t e = .ok classes →
            ClassSet.ofElement t' e = .ok classes' →
              classes.extensions.map (fun c => (c.draft t.indentSize classes.sourceName).text) =
                classes'.extensions.map fun c =>
                  (c.draft t'.indentSize classes'.sourceName).text) ∧
          (t.platform ≠ t'.platform → ∀ e ∈ elements, ∀ classes,
            ClassSet.ofElement t e = .ok classes → ∀ d ∈ classes.ownPlaces, ∀ p,
              t.pathOf d.nameSpace d.className = .ok p →
                ∀ g ∈ platformFiles config settings elements other,
                  FileTree.place s.tree.here p ≠ FileTree.place s.tree.here g.path) := by
  have hnamed : ∀ e ∈ elements, IsOwnerName e.declaration.name ∧ IsDotted e.declaration.nameSpace :=
    fun e he => ⟨isOwnerName_of_elementsOf hreader hread he, hnames e he⟩
  have hwrites := writes_of_run hread h
  have hwrites' := writes_of_run hread h'
  constructor
  · refine FileTree.lookup?_congr (hwrites.places.here.trans hwrites'.places.here.symm) ?_
    refine hwrites.places.entryAt?_eq hwrites'.places ?_ (mem_runFiles_congr hsame)
    intro q
    refine FileTree.lastAt?_flatMap_congr hsame ?_
    intro platform hplatform platform' hplatform' f g hf hg
    exact lastAt?_platformFiles hsettings hnamed (hwrites.generates platform hplatform)
      (hwrites.generates platform' hplatform') hf hg
  · intro platform hplatform other hother t t' ht ht'
    have husual := Config.isUsual_of_target hsettings ht
    have husual' := Config.isUsual_of_target hsettings ht'
    have hknown := Config.followsMarker_of_target ht
    have heq := Config.target_eq_withPlatform ht ht'
    obtain ⟨t'', ht'', hgenerates⟩ := hwrites.generates other hother
    obtain rfl : t' = t'' := Except.ok.inj (ht'.symm.trans ht'')
    constructor
    · intro e he classes classes' hclasses hclasses'
      rw [heq] at hclasses'
      obtain ⟨hextensions, hsource⟩ := ClassSet.extensions_withPlatform hclasses hclasses'
      have hindent : t'.indentSize = t.indentSize := by
        rw [heq]
        rfl
      rw [hextensions, hsource, hindent]
    · intro hne e he classes hclasses d hd p hp g hg
      rw [platformFiles_of_target ht'] at hg
      obtain ⟨e', he', hmem⟩ := List.mem_flatMap.1 hg
      obtain ⟨files, hfiles⟩ := hgenerates e' he'
      rw [filesOf_of_ok hfiles] at hmem
      rw [heq] at hfiles
      have hnamedAt : ∀ e ∈ elements, ClassSet.IsNamed t e :=
        fun e he => ⟨hknown, (hnamed e he).1, (hnamed e he).2⟩
      exact ClassSet.place_ne_of_mem_ownPlaces s.tree.here husual husual'.platform hne (hnamedAt e he)
        (hnamedAt e' he') hclasses hd hp hfiles hmem

/-! An interface with a fluent property, generated for two platforms in both orders: once with the usual
ending of file names, and once with one that leads up to the output directory. -/

private def orderedPath : Path := ⟨0, ["a.cs"]⟩

private def orderedSession : Session where
  tree := ⟨[], [(⟨1, ["a.cs"]⟩, .file (Text.Utf8.encode (FluentInterface.text "IA").toList))]⟩

private def orderedConfig : Config := EmptyInterfaces.config [orderedPath]

private def orderedElements : List ModelElement := [FluentInterface.element orderedPath "IA"]

private theorem read_ordered :
    elementsOf .builtIn orderedSession.tree
      (Discovery.ofInputs orderedSession.tree orderedConfig.inputs).files = .ok orderedElements := by
  have htext : SourceFile.text orderedSession.tree orderedPath =
      .ok (FluentInterface.text "IA").toList := by
    decide +kernel
  have htokens : Source.tokens? (FluentInterface.text "IA").toList =
      some (FluentInterface.tokens "IA") := by
    decide +kernel
  have horigin : orderedPath.toString = "a.cs" := by decide +kernel
  have helements : SourceFile.elements .builtIn orderedSession.tree orderedPath = .ok orderedElements := by
    refine elements_of_tokens htext htokens horigin ?_
    decide +kernel
  have hfiles : (Discovery.ofInputs orderedSession.tree orderedConfig.inputs).files =
      [orderedPath] := by
    decide +kernel
  rw [hfiles]
  exact elementsOf_singleton helements

theorem run_platform_order_two :
    Settings.AreUsual .default ∧ (∀ e ∈ orderedElements, IsDotted e.declaration.nameSpace) ∧
      (run .builtIn orderedConfig .default ["wpf", "maui"] orderedSession).2.map List.length = .ok 4 ∧
        (run .builtIn orderedConfig .default ["maui", "wpf", "maui"] orderedSession).2.map List.length =
            .ok 6 ∧
          ∀ p, (run .builtIn orderedConfig .default ["wpf", "maui"] orderedSession).1.tree.lookup? p =
            (run .builtIn orderedConfig .default ["maui", "wpf", "maui"]
              orderedSession).1.tree.lookup? p := by
  have hsettings : Settings.AreUsual .default :=
    ⟨by decide +kernel, by decide +kernel, by decide +kernel⟩
  have hdotted : ∀ e ∈ orderedElements, IsDotted e.declaration.nameSpace := by decide +kernel
  have hforward :
      (run .builtIn orderedConfig .default ["wpf", "maui"] orderedSession).2.map List.length = .ok 4 := by
    rw [result_of_read_ok read_ordered]
    decide +kernel
  have hbackward : (run .builtIn orderedConfig .default ["maui", "wpf", "maui"] orderedSession).2.map
      List.length = .ok 6 := by
    rw [result_of_read_ok read_ordered]
    decide +kernel
  have hsame : ∀ platform, platform ∈ chosenPlatforms orderedConfig ["wpf", "maui"] ↔
      platform ∈ chosenPlatforms orderedConfig ["maui", "wpf", "maui"] := by
    intro platform
    by_cases hwpf : platform = "wpf" <;> simp [chosenPlatforms, hwpf]
  obtain ⟨paths, hpaths, -⟩ := map_eq_ok.1 hforward
  obtain ⟨paths', hpaths', -⟩ := map_eq_ok.1 hbackward
  exact ⟨hsettings, hdotted, hforward, hbackward,
    (run_platform_order SourceReader.namesInterfaces_builtIn hsettings read_ordered hdotted hsame hpaths
      hpaths').1⟩

private def meetingSettings : Settings := { fileExtension := "/../../../X.cs" }

private def meetingSession : Session where
  tree := ⟨[], [(⟨1, ["a.cs"]⟩, .file (Text.Utf8.encode (EmptyInterfaces.text ["IA"]).toList))]⟩

private def meetingElements : List ModelElement := [EmptyInterfaces.element (some orderedPath) "IA"]

private theorem read_meeting :
    elementsOf .builtIn meetingSession.tree
      (Discovery.ofInputs meetingSession.tree orderedConfig.inputs).files = .ok meetingElements := by
  have htext : SourceFile.text meetingSession.tree orderedPath =
      .ok (EmptyInterfaces.text ["IA"]).toList := by
    decide +kernel
  have htokens : Source.tokens? (EmptyInterfaces.text ["IA"]).toList =
      some (EmptyInterfaces.tokens ["IA"]) := by
    decide +kernel
  have horigin : orderedPath.toString = "a.cs" := by decide +kernel
  have helements : SourceFile.elements .builtIn meetingSession.tree orderedPath = .ok meetingElements := by
    refine elements_of_tokens htext htokens horigin ?_
    decide +kernel
  have hfiles : (Discovery.ofInputs meetingSession.tree orderedConfig.inputs).files =
      [orderedPath] := by
    decide +kernel
  rw [hfiles]
  exact elementsOf_singleton helements

/-- With an ending that leads up to the output directory, both platforms write the one class to one file,
and the platform that comes last decides what it holds. -/
theorem tree_depends_on_order :
    meetingSettings.sharedProject = "StandardUI" ∧
      meetingSettings.generatedDirectory = "generated" ∧
        (∀ e ∈ meetingElements, IsDotted e.declaration.nameSpace) ∧
          (run .builtIn orderedConfig meetingSettings ["wpf", "maui"] meetingSession).2.map List.length =
              .ok 2 ∧
            (run .builtIn orderedConfig meetingSettings ["maui", "wpf"] meetingSession).2.map List.length =
                .ok 2 ∧
              (run .builtIn orderedConfig meetingSettings ["wpf", "maui"] meetingSession).1.tree.lookup?
                  ⟨0, ["X.cs"]⟩ ≠
                (run .builtIn orderedConfig meetingSettings ["maui", "wpf"] meetingSession).1.tree.lookup?
                  ⟨0, ["X.cs"]⟩ := by
  refine ⟨rfl, rfl, by decide +kernel, ?_, ?_, ?_⟩
  · rw [result_of_read_ok read_meeting]
    decide +kernel
  · rw [result_of_read_ok read_meeting]
    decide +kernel
  · rw [tree_of_read_ok read_meeting, tree_of_read_ok read_meeting]
    decide +kernel

end Session

end PlatformClasses
