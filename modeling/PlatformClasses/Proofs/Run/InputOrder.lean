import PlatformClasses.Proofs.Run.Discovery

/-!
# The order of the inputs

Inputs are a set to a run: neither their order nor how often one of them is given matters.  What they
stand for is put in path order, each file once, and a list in path order is given by its members
(`ofInputs_files_congr`).

The inputs are still seen in the log, which names those that are skipped.  Nothing that a run does depends
on what has been logged, so events before those of a session stay there through every step
(`run_preceded`).  From the skipped inputs on, two runs with the same inputs are one and the same run
(`run_inputs_as_set`).
-/

namespace PlatformClasses

namespace Discovery

variable {tree : FileTree} {inputs inputs' : List Path}

/-- Ordering what is found loses nothing. -/
theorem mem_files_iff (hinputs : ∀ i ∈ inputs, i.IsSound)
    (hplaces : ∀ e ∈ tree.entries, e.1.IsSound) {p : Path} :
    p ∈ (ofInputs tree inputs).files ↔ p ∈ found tree inputs := by
  show p ∈ ordered (found tree inputs) ↔ p ∈ found tree inputs
  exact mem_ordered_iff fun q hq => isSound_of_mem_found hplaces hinputs hq

/-- What is found depends on which inputs there are, not on their order. -/
theorem mem_found_congr (h : ∀ i, i ∈ inputs ↔ i ∈ inputs') (p : Path) :
    p ∈ found tree inputs ↔ p ∈ found tree inputs' := by
  rw [mem_found_iff, mem_found_iff]
  exact exists_congr fun i => and_congr_left fun _ => h i

/-- The files are in strict order. -/
theorem pairwise_files (tree : FileTree) (inputs : List Path) :
    (ofInputs tree inputs).files.Pairwise Before :=
  pairwise_ordered (found tree inputs)

/-- No file comes twice. -/
theorem nodup_files (tree : FileTree) (inputs : List Path) : (ofInputs tree inputs).files.Nodup := by
  apply (pairwise_files tree inputs).imp
  intro p q hbefore heq
  subst heq
  exact irrefl p hbefore

/-- The same inputs stand for the same files, in the same order. -/
theorem ofInputs_files_congr (hinputs : ∀ i ∈ inputs, i.IsSound)
    (hplaces : ∀ e ∈ tree.entries, e.1.IsSound) (h : ∀ i, i ∈ inputs ↔ i ∈ inputs') :
    (ofInputs tree inputs).files = (ofInputs tree inputs').files := by
  have hinputs' : ∀ i ∈ inputs', i.IsSound := fun i hi => hinputs i ((h i).2 hi)
  apply (pairwise_files tree inputs).eq_of_mem_iff (pairwise_files tree inputs')
  intro p
  rw [mem_files_iff hinputs hplaces, mem_files_iff hinputs' hplaces, mem_found_congr h]

theorem mem_skipped_congr (h : ∀ i, i ∈ inputs ↔ i ∈ inputs') (i : Path) :
    i ∈ (ofInputs tree inputs).skipped ↔ i ∈ (ofInputs tree inputs').skipped := by
  simp only [ofInputs, List.mem_filter, h]

end Discovery

/-! ## Events before those of a session -/

namespace Session

/-- The session with events before its own. -/
def preceded (s : Session) (events : List LogEvent) : Session :=
  { s with events := events ++ s.events }

@[simp] theorem tree_preceded (s : Session) (events : List LogEvent) :
    (s.preceded events).tree = s.tree := rfl

@[simp] theorem progress_preceded (s : Session) (events : List LogEvent) :
    (s.preceded events).progress = s.progress := rfl

theorem record_preceded (s : Session) (events more : List LogEvent) :
    (s.preceded events).record more = (s.record more).preceded events := by
  simp [preceded, record]

/-- A step does the same after other events. -/
theorem step_preceded (s : Session) (events : List LogEvent)
    (change : Progress → Progress × List LogEvent) :
    (s.preceded events).step change = (s.step change).preceded events := by
  simp [preceded, step]

/-- An element is generated in the same way after other events. -/
theorem generateElement_preceded (t : Target) (e : ModelElement) (s : Session)
    (events : List LogEvent) :
    generateElement t e (s.preceded events) =
      ((generateElement t e s).1.preceded events, (generateElement t e s).2) := by
  unfold generateElement
  simp only [step_preceded, tree_preceded]
  cases generateFiles t e (s.step (Progress.enterDeclaration e.declaration.name)).tree with
  | mk tree result =>
      cases result with
      | error failure => simp [preceded, step]
      | ok paths => simp [preceded, step]

theorem generateElements_preceded (t : Target) (elements : List ModelElement) (s : Session)
    (events : List LogEvent) :
    generateElements t elements (s.preceded events) =
      ((generateElements t elements s).1.preceded events, (generateElements t elements s).2) := by
  induction elements generalizing s with
  | nil => rfl
  | cons e rest ih =>
      unfold generateElements
      rw [generateElement_preceded]
      cases generateElement t e s with
      | mk s₁ result =>
          cases result with
          | error failure => rfl
          | ok paths => simp only [ih]

/-- Generating for platforms does the same after other events. -/
theorem generatePlatforms_preceded (config : Config) (settings : Settings)
    (elements : List ModelElement) (platforms : List String) (s : Session) (events : List LogEvent) :
    generatePlatforms config settings elements platforms (s.preceded events) =
      ((generatePlatforms config settings elements platforms s).1.preceded events,
        (generatePlatforms config settings elements platforms s).2) := by
  induction platforms generalizing s with
  | nil => rfl
  | cons platform rest ih =>
      unfold generatePlatforms
      cases config.target settings elements platform with
      | error fault => rfl
      | ok t =>
          simp only [record_preceded, generateElements_preceded]
          cases generateElements t elements
              (s.record [.generating elements.length t.platform.name]) with
          | mk s₁ result =>
              cases result with
              | error failure => rfl
              | ok paths => simp only [ih]

/-! ## Runs after the reading -/

/-- What a run does with what it has read. -/
def runRead (config : Config) (settings : Settings) (platforms : List String) (s : Session) :
    Except Fault (List ModelElement) → Session × Except Failure (List Path)
  | .error fault => (s, .error (.fault fault))
  | .ok elements =>
    match generatePlatforms config settings elements (chosenPlatforms config platforms) s with
    | (s, .error failure) => (s, .error failure)
    | (s, .ok paths) => (s.record [s.progress.summary, .memory], .ok paths)

/-- A run depends on its inputs only through what is loaded. -/
theorem run_eq_runRead (reader : SourceReader) (config : Config) (settings : Settings)
    (platforms : List String) (s : Session) :
    run reader config settings platforms s =
      runRead config settings platforms (load reader config s).1 (load reader config s).2 := by
  unfold run
  cases load reader config s with
  | mk s₁ loaded =>
      cases loaded with
      | error fault => rfl
      | ok elements => rfl

/-- What has been logged before stays there, and nothing else depends on it. -/
theorem runRead_preceded (config : Config) (settings : Settings) (platforms : List String)
    (s : Session) (loaded : Except Fault (List ModelElement)) (events : List LogEvent) :
    runRead config settings platforms (s.preceded events) loaded =
      ((runRead config settings platforms s loaded).1.preceded events,
        (runRead config settings platforms s loaded).2) := by
  cases loaded with
  | error fault => rfl
  | ok elements =>
      unfold runRead
      simp only [generatePlatforms_preceded]
      cases generatePlatforms config settings elements (chosenPlatforms config platforms) s with
      | mk s' result =>
          cases result with
          | error failure => rfl
          | ok paths => simp only [record_preceded, progress_preceded]

theorem generatePlatforms_with_inputs (config : Config) (inputs : List Path) (settings : Settings)
    (elements : List ModelElement) (platforms : List String) (s : Session) :
    generatePlatforms { config with inputs := inputs } settings elements platforms s =
      generatePlatforms config settings elements platforms s := by
  have htarget : ∀ platform, Config.target { config with inputs := inputs } settings elements platform =
      config.target settings elements platform := fun _ => rfl
  induction platforms generalizing s with
  | nil => rfl
  | cons platform rest ih => simp only [generatePlatforms, htarget, ih]

/-- Inputs that have been read do not matter any more. -/
theorem runRead_with_inputs (config : Config) (inputs : List Path) (settings : Settings)
    (platforms : List String) (s : Session) (loaded : Except Fault (List ModelElement)) :
    runRead { config with inputs := inputs } settings platforms s loaded =
      runRead config settings platforms s loaded := by
  cases loaded with
  | error fault => rfl
  | ok elements =>
      simp only [runRead, generatePlatforms_with_inputs]
      rfl

/-! ## The same inputs -/

/-- A session that has read files and logged nothing else. -/
def havingRead (reader : SourceReader) (s : Session) (files : List Path) : Session :=
  { s with events := [.loading files.length, .started "load declarations"] ++
      match elementsOf reader s.tree files with
      | .error fault => [.failed "load declarations" fault.message]
      | .ok elements => [.completed "load declarations", .loaded elements.length] }

/-- Of the inputs, reading depends on the files that they stand for; the skipped ones are logged before. -/
theorem load_with_inputs (reader : SourceReader) (config : Config) (s : Session) (inputs : List Path) :
    load reader { config with inputs := inputs } s =
      ((s.havingRead reader (Discovery.ofInputs s.tree inputs).files).preceded
          (s.events ++ (Discovery.ofInputs s.tree inputs).skipped.map LogEvent.skipping),
        elementsOf reader s.tree (Discovery.ofInputs s.tree inputs).files) := by
  rw [load_of_read rfl]
  unfold afterReading havingRead
  cases elementsOf reader s.tree (Discovery.ofInputs s.tree inputs).files with
  | error fault => simp [preceded, record]
  | ok elements => simp [preceded, record]

/-- Two outcomes are the same but for what has been logged first. -/
def AgreeAfter {α : Type} (before before' : List LogEvent) (x x' : Session × α) : Prop :=
  ∃ (rest : Session) (result : α), x = (rest.preceded before, result) ∧
    x' = (rest.preceded before', result)

/-- Runs with the same inputs, in any order and with any repetitions, find the same files, once each and
in path order, and read the same from them.  But for what has been logged before, among it the skipped
inputs, they are one run: they write the same, end alike and log the same.  This holds for every reader of
sources. -/
theorem run_inputs_as_set (reader : SourceReader) (config : Config) (settings : Settings)
    (platforms : List String) (s : Session) {inputs inputs' : List Path}
    (hsame : ∀ i, i ∈ inputs ↔ i ∈ inputs')
    (hinputs : ∀ i ∈ inputs, i.IsSound) (hplaces : ∀ e ∈ s.tree.entries, e.1.IsSound) :
    let found := Discovery.ofInputs s.tree inputs
    let found' := Discovery.ofInputs s.tree inputs'
    let before := s.events ++ found.skipped.map LogEvent.skipping
    let before' := s.events ++ found'.skipped.map LogEvent.skipping
    (found.files = found'.files ∧ found.files.Pairwise Discovery.Before ∧ found.files.Nodup ∧
      ∀ p, p ∈ found.files ↔ ∃ i ∈ inputs,
        (s.tree.isDirectory i = true ∧ p ∈ s.tree.sourceFilesBelow i) ∨
          (s.tree.isDirectory i = false ∧ i.isSourceFile = true ∧ p = i)) ∧
    (∀ i, i ∈ found.skipped ↔ i ∈ found'.skipped) ∧
    AgreeAfter before before' (load reader { config with inputs := inputs } s)
      (load reader { config with inputs := inputs' } s) ∧
    AgreeAfter before before' (run reader { config with inputs := inputs } settings platforms s)
      (run reader { config with inputs := inputs' } settings platforms s) := by
  intro found found' before before'
  have hfiles : found.files = found'.files :=
    Discovery.ofInputs_files_congr hinputs hplaces hsame
  have hmem : ∀ p, p ∈ found.files ↔ p ∈ Discovery.found s.tree inputs := fun p =>
    Discovery.mem_files_iff hinputs hplaces
  let rest := s.havingRead reader found.files
  let loaded := elementsOf reader s.tree found.files
  have hload : load reader { config with inputs := inputs } s = (rest.preceded before, loaded) :=
    load_with_inputs reader config s inputs
  have hload' : load reader { config with inputs := inputs' } s = (rest.preceded before', loaded) := by
    show _ = ((s.havingRead reader found.files).preceded before', elementsOf reader s.tree found.files)
    rw [hfiles]
    exact load_with_inputs reader config s inputs'
  have hrun : ∀ other events,
      load reader { config with inputs := other } s = (rest.preceded events, loaded) →
        run reader { config with inputs := other } settings platforms s =
          ((runRead config settings platforms rest loaded).1.preceded events,
            (runRead config settings platforms rest loaded).2) := by
    intro other events hother
    rw [run_eq_runRead, hother, runRead_with_inputs, runRead_preceded]
  refine ⟨⟨hfiles, Discovery.pairwise_files s.tree inputs, Discovery.nodup_files s.tree inputs, ?_⟩,
    Discovery.mem_skipped_congr hsame, ⟨rest, loaded, hload, hload'⟩,
    ⟨_, _, hrun inputs before hload, hrun inputs' before' hload'⟩⟩
  intro p
  rw [hmem, Discovery.mem_found_iff]

/-! A directory, one inside it and a text, one way round and the other. -/

private def folder : Path := ⟨0, ["m"]⟩

private def inner : Path := ⟨0, ["m", "a"]⟩

private def notes : Path := ⟨0, ["notes.txt"]⟩

private def mixedSession : Session where
  tree :=
    ⟨[], [(⟨1, ["m"]⟩, .directory), (⟨1, ["m", "a"]⟩, .directory), (⟨1, ["notes.txt"]⟩, .file []),
      (⟨1, ["m", "a-b.cs"]⟩, .file (Text.Utf8.encode (EmptyInterfaces.text ["IA"]).toList)),
      (⟨1, ["m", "a", "z.cs"]⟩, .file (Text.Utf8.encode (EmptyInterfaces.text ["IB"]).toList))]⟩

theorem run_nested_inputs_as_set :
    (Discovery.ofInputs mixedSession.tree [folder, inner, notes]).files =
        [⟨0, ["m", "a", "z.cs"]⟩, ⟨0, ["m", "a-b.cs"]⟩] ∧
      (Discovery.ofInputs mixedSession.tree [notes, inner, notes, folder]).skipped = [notes, notes] ∧
        AgreeAfter [.skipping notes] [.skipping notes, .skipping notes]
          (run .builtIn (EmptyInterfaces.config [folder, inner, notes]) .default [] mixedSession)
          (run .builtIn (EmptyInterfaces.config [notes, inner, notes, folder]) .default []
            mixedSession) := by
  have hsame : ∀ i, i ∈ [folder, inner, notes] ↔ i ∈ [notes, inner, notes, folder] := by
    intro i
    simp only [List.mem_cons, List.not_mem_nil, or_false]
    tauto
  have hinputs : ∀ i ∈ [folder, inner, notes], i.IsSound := by decide +kernel
  have hplaces : ∀ e ∈ mixedSession.tree.entries, e.1.IsSound := by decide +kernel
  have hskipped : (Discovery.ofInputs mixedSession.tree [folder, inner, notes]).skipped = [notes] := by
    decide +kernel
  have hskipped' : (Discovery.ofInputs mixedSession.tree [notes, inner, notes, folder]).skipped =
      [notes, notes] := by
    decide +kernel
  have hruns := (run_inputs_as_set .builtIn (EmptyInterfaces.config []) .default [] mixedSession hsame
    hinputs hplaces).2.2.2
  rw [hskipped, hskipped'] at hruns
  exact ⟨by decide +kernel, hskipped', hruns⟩

end Session

end PlatformClasses
