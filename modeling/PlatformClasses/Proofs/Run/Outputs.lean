import PlatformClasses.Proofs.ClassFile.PlatformFiles
import PlatformClasses.Proofs.Run.FailFast

/-!
# The files of a run

A run that succeeds has read its elements and generated every one of them for every platform, and its
files are those of its platforms, one after the other.  So what such a run does to the tree is a matter of
one list of files (`writes_of_run`).
-/

namespace PlatformClasses

/-- The files of elements for a platform, as far as they can be generated. -/
def platformFiles (config : Config) (settings : Settings) (elements : List ModelElement)
    (platform : String) : List GeneratedFile :=
  match config.target settings elements platform with
  | .ok t => elements.flatMap (filesOf t)
  | .error _ => []

/-- The files of elements for several platforms. -/
def runFiles (config : Config) (settings : Settings) (elements : List ModelElement)
    (platforms : List String) : List GeneratedFile :=
  platforms.flatMap (platformFiles config settings elements)

theorem platformFiles_of_target {config : Config} {settings : Settings}
    {elements : List ModelElement} {platform : String} {t : Target}
    (h : config.target settings elements platform = .ok t) :
    platformFiles config settings elements platform = elements.flatMap (filesOf t) := by
  simp only [platformFiles, h]

/-- All elements can be generated for a platform. -/
def Generates (config : Config) (settings : Settings) (elements : List ModelElement)
    (platform : String) : Prop :=
  ∃ t, config.target settings elements platform = .ok t ∧
    ∀ e ∈ elements, ∃ files, generate t e = .ok files

/-- What a run has done that read some elements and succeeded. -/
structure Writes (config : Config) (settings : Settings) (elements : List ModelElement)
    (platforms : List String) (s s' : Session) (paths : List Path) : Prop where
  generates : ∀ platform ∈ platforms, Generates config settings elements platform
  tree : s'.tree = s.tree.overwrite (runFiles config settings elements platforms)
  places : FileTree.Overwritten s.tree (runFiles config settings elements platforms) s'.tree
  paths : paths = (runFiles config settings elements platforms).map (·.path)

namespace Job

/-- The files of jobs that are all done. -/
theorem flatten_eq {config : Config} {settings : Settings} {elements : List ModelElement}
    {platforms : List String} {outputs : List (List GeneratedFile)}
    (h : (ofRun platforms elements).map (output config settings elements) = outputs.map .ok) :
    (∀ platform ∈ platforms, Generates config settings elements platform) ∧
      outputs.flatten = runFiles config settings elements platforms := by
  have hdone : ∀ job ∈ ofRun platforms elements, ∃ files,
      output config settings elements job = .ok files := by
    intro job hjob
    have hmem : output config settings elements job ∈ outputs.map .ok := by
      rw [← h]
      exact List.mem_map_of_mem hjob
    obtain ⟨files, -, hfiles⟩ := List.mem_map.1 hmem
    exact ⟨files, hfiles.symm⟩
  have hgenerates : ∀ platform ∈ platforms, Generates config settings elements platform := by
    intro platform hplatform
    have hjobs : ∀ job ∈ target platform :: elements.map (element platform),
        job ∈ ofRun platforms elements :=
      fun job hjob => List.mem_flatMap.2 ⟨platform, hplatform, hjob⟩
    obtain ⟨_, htarget⟩ := hdone _ (hjobs _ List.mem_cons_self)
    obtain ⟨t, ht, -⟩ := map_eq_ok.1 htarget
    refine ⟨t, ht, ?_⟩
    intro e he
    obtain ⟨files, hfiles⟩ := hdone _ (hjobs _ (List.mem_cons_of_mem _ (List.mem_map_of_mem he)))
    refine ⟨files, ?_⟩
    simpa [output, ht, bind, Except.bind] using hfiles
  refine ⟨hgenerates, ?_⟩
  have houtputs : outputs = (ofRun platforms elements).map fun job =>
      (output config settings elements job).toOption.getD [] := by
    have hback := congrArg (List.map fun x : Except Fault (List GeneratedFile) =>
      x.toOption.getD []) h
    rw [List.map_map, List.map_map] at hback
    have hid : ((fun x : Except Fault (List GeneratedFile) => x.toOption.getD []) ∘ Except.ok) = id :=
      rfl
    rw [hid, List.map_id] at hback
    exact hback.symm
  rw [houtputs, ← List.flatMap_def, ofRun, List.flatMap_assoc, runFiles]
  refine List.flatMap_congr fun platform hplatform => ?_
  obtain ⟨t, ht, -⟩ := hgenerates platform hplatform
  have htarget : output config settings elements (target platform) = .ok [] := by
    simp [output, ht, Except.map]
  have helement : ∀ e, output config settings elements (element platform e) = generate t e := by
    simp [output, ht, bind, Except.bind]
  rw [platformFiles_of_target ht, List.flatMap_cons, List.flatMap_map, htarget]
  simp only [helement]
  rfl

end Job

namespace Session

variable {reader : SourceReader}

/-- What a run does to the tree is what generating does to it. -/
theorem tree_of_read_ok {config : Config} {s : Session} {elements : List ModelElement}
    (hread : elementsOf reader s.tree (Discovery.ofInputs s.tree config.inputs).files = .ok elements)
    (settings : Settings) (platforms : List String) :
    (run reader config settings platforms s).1.tree =
      (generatePlatforms config settings elements (chosenPlatforms config platforms)
        (afterReading config s (.ok elements))).1.tree := by
  cases hgenerate : generatePlatforms config settings elements (chosenPlatforms config platforms)
      (afterReading config s (.ok elements)) with
  | mk s' result =>
      obtain ⟨events, hrun⟩ := run_of_read_ok hread hgenerate
      rw [hrun]
      rfl

/-- A run that succeeds has written the files of its elements for its platforms, in order. -/
theorem writes_of_run {config : Config} {settings : Settings} {platforms : List String}
    {s : Session} {elements : List ModelElement} {paths : List Path}
    (hread : elementsOf reader s.tree (Discovery.ofInputs s.tree config.inputs).files = .ok elements)
    (h : (run reader config settings platforms s).2 = .ok paths) :
    Writes config settings elements (chosenPlatforms config platforms) s
      (run reader config settings platforms s).1 paths := by
  have hjobs := carriedOut_run hread settings platforms (by simp [WritesSucceed, h])
  rw [h] at hjobs
  generalize hresult : (Except.ok paths : Except Failure (List Path)) = result at hjobs
  generalize hlist : Job.ofRun (chosenPlatforms config platforms) elements = jobs at hjobs
  cases hjobs with
  | stopped => simp at hresult
  | @completed _ outputs houtputs hwritten =>
      obtain rfl := Except.ok.inj hresult
      subst hlist
      obtain ⟨hgenerates, hfiles⟩ := Job.flatten_eq houtputs
      exact ⟨hgenerates, hfiles ▸ hwritten.tree, hfiles ▸ hwritten.places, by rw [hfiles]⟩

end Session

end PlatformClasses
