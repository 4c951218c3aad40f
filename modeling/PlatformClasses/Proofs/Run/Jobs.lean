import PlatformClasses.Proofs.Run.FailFast

/-!
# Runs as lists of jobs

What a run leaves in the tree, and how it ends, is that of its jobs done one after the other
(`run_inTree`): the files of each job are written before the next one is begun.  So a run succeeds if and
only if all of its jobs give files and all of these can be written, in order (`passes_perform_iff`).
Otherwise there is a first job that is not done (`inOrder_eq_error_iff`): it has a fault, or one of its
files is refused by the file system.
-/

namespace PlatformClasses

/-! ## Steps in order -/

section InOrder

variable {σ τ α β ε : Type}

/-- Steps over a list, one after the other up to the first that fails. -/
def inOrder (step : α → σ → σ × Except ε (List β)) : List α → σ → σ × Except ε (List β)
  | [], s => (s, .ok [])
  | a :: rest, s =>
    match step a s with
    | (s, .error e) => (s, .error e)
    | (s, .ok bs) => ((inOrder step rest s).1, (inOrder step rest s).2.map (bs ++ ·))

/-- All steps succeed. -/
def Passes (step : α → σ → σ × Except ε (List β)) (as : List α) (s s' : σ) : Prop :=
  ∃ bs, inOrder step as s = (s', .ok bs)

variable {step : α → σ → σ × Except ε (List β)}

theorem passes_nil_iff {s s' : σ} : Passes step [] s s' ↔ s = s' := by
  simp [Passes, inOrder]

theorem passes_cons_iff {a : α} {rest : List α} {s s' : σ} :
    Passes step (a :: rest) s s' ↔ ∃ s₁ bs, step a s = (s₁, .ok bs) ∧ Passes step rest s₁ s' := by
  unfold Passes
  simp only [inOrder]
  cases step a s with
  | mk s₁ result =>
      cases result with
      | error e => simp
      | ok bs =>
          simp only [Prod.mk.injEq, map_eq_ok, Except.ok.injEq]
          constructor
          · rintro ⟨_, hstate, more, hmore, -⟩
            exact ⟨s₁, bs, ⟨rfl, rfl⟩, more, Prod.ext hstate hmore⟩
          · rintro ⟨_, _, ⟨rfl, rfl⟩, more, hmore⟩
            exact ⟨bs ++ more, by rw [hmore], more, by rw [hmore], rfl⟩

/-- Steps over two lists pass if those over the first do and those over the second do after them. -/
theorem passes_append_iff {as as' : List α} {s s' : σ} :
    Passes step (as ++ as') s s' ↔ ∃ s₁, Passes step as s s₁ ∧ Passes step as' s₁ s' := by
  induction as generalizing s with
  | nil => simp [passes_nil_iff]
  | cons a rest ih =>
      simp only [List.cons_append, passes_cons_iff, ih]
      constructor
      · rintro ⟨s₁, bs, hstep, s₂, hrest, hlater⟩
        exact ⟨s₂, ⟨s₁, bs, hstep, hrest⟩, hlater⟩
      · rintro ⟨s₂, ⟨s₁, bs, hstep, hrest⟩, hlater⟩
        exact ⟨s₁, bs, hstep, s₂, hrest, hlater⟩

/-- A failure is that of the first step that does not succeed. -/
theorem inOrder_eq_error_iff {as : List α} {s : σ} {e : ε} :
    (inOrder step as s).2 = .error e ↔ ∃ before a after s₁, as = before ++ a :: after ∧
      Passes step before s s₁ ∧ (step a s₁).2 = .error e := by
  induction as generalizing s with
  | nil => simp [inOrder]
  | cons a rest ih =>
      have hcases : (inOrder step (a :: rest) s).2 = .error e ↔ (step a s).2 = .error e ∨
          ∃ s₁ bs, step a s = (s₁, .ok bs) ∧ (inOrder step rest s₁).2 = .error e := by
        simp only [inOrder]
        cases step a s with
        | mk s₁ result => cases result <;> simp [map_eq_error]
      rw [hcases]
      constructor
      · rintro (hfirst | ⟨s₁, bs, hstep, hrest⟩)
        · exact ⟨[], a, rest, s, rfl, passes_nil_iff.2 rfl, hfirst⟩
        · obtain ⟨before, b, after, s₂, rfl, hbefore, hb⟩ := ih.1 hrest
          exact ⟨a :: before, b, after, s₂, rfl, passes_cons_iff.2 ⟨s₁, bs, hstep, hbefore⟩, hb⟩
      · rintro ⟨before, b, after, s₂, hsplit, hbefore, hb⟩
        cases before with
        | nil =>
            obtain ⟨rfl, rfl⟩ := List.cons.inj hsplit
            obtain rfl := passes_nil_iff.1 hbefore
            exact .inl hb
        | cons first before =>
            obtain ⟨rfl, rfl⟩ := List.cons.inj hsplit
            obtain ⟨s₁, bs, hstep, hrest⟩ := passes_cons_iff.1 hbefore
            exact .inr ⟨s₁, bs, hstep, ih.2 ⟨before, b, after, s₂, rfl, hrest, hb⟩⟩

/-- Steps over two lists are those over the first and, unless one fails, those over the second. -/
theorem inOrder_append (as as' : List α) (s : σ) :
    inOrder step (as ++ as') s =
      match inOrder step as s with
      | (s, .error e) => (s, .error e)
      | (s, .ok bs) => ((inOrder step as' s).1, (inOrder step as' s).2.map (bs ++ ·)) := by
  induction as generalizing s with
  | nil =>
      cases hlater : inOrder step as' s with
      | mk s' result => cases result <;> simp [inOrder, hlater, Except.map]
  | cons a rest ih =>
      simp only [List.cons_append, inOrder, ih]
      cases step a s with
      | mk s₁ result =>
          cases result with
          | error e => rfl
          | ok bs =>
              simp only
              cases inOrder step rest s₁ with
              | mk s₂ result =>
                  cases result with
                  | error e => rfl
                  | ok more =>
                      simp only [Except.map]
                      cases (inOrder step as' s₂).2 <;> simp

end InOrder

/-! ## Writing and generating -/

/-- One file is written. -/
def GeneratedFile.storeIn (f : GeneratedFile) (tree : FileTree) :
    FileTree × Except FileError (List Path) :=
  ((tree.store f.path.parent f.path.name f.content).1,
    (tree.store f.path.parent f.path.name f.content).2.map ([·]))

/-- One job is done: its files are written, unless it has a fault. -/
def Job.perform (output : Job → Except Fault (List GeneratedFile)) (job : Job) (tree : FileTree) :
    FileTree × Except Failure (List Path) :=
  match output job with
  | .error fault => (tree, .error (.fault fault))
  | .ok files =>
    match inOrder GeneratedFile.storeIn files tree with
    | (tree, .ok paths) => (tree, .ok paths)
    | (tree, .error e) => (tree, .error (.file e))

namespace Session

/-- Files are written one after the other. -/
theorem writeFiles_eq_inOrder (tree : FileTree) (files : List GeneratedFile) :
    writeFiles tree files = inOrder GeneratedFile.storeIn files tree := by
  induction files generalizing tree with
  | nil => rfl
  | cons f rest ih =>
      simp only [writeFiles, inOrder, GeneratedFile.storeIn]
      cases tree.store f.path.parent f.path.name f.content with
      | mk tree₁ stored =>
          cases stored with
          | error e => rfl
          | ok path => simp [ih, Except.map]

/-- What a step on a session does to the tree, and what it gives. -/
def inTree (outcome : Session × Except Failure (List Path)) :
    FileTree × Except Failure (List Path) :=
  (outcome.1.tree, outcome.2)

/-- Generating an element does its job to the tree. -/
theorem generateElement_inTree {output : Job → Except Fault (List GeneratedFile)} {job : Job}
    {t : Target} {e : ModelElement} (houtput : output job = generate t e) (s : Session) :
    inTree (generateElement t e s) = job.perform output s.tree := by
  unfold inTree generateElement Job.perform generateFiles
  rw [houtput]
  cases generate t e with
  | error fault => rfl
  | ok files =>
      have htree : (s.step (Progress.enterDeclaration e.declaration.name)).tree = s.tree := rfl
      simp only [writeFiles_eq_inOrder, htree]
      cases inOrder GeneratedFile.storeIn files s.tree with
      | mk tree result => cases result <;> rfl

/-- Generating elements does their jobs in order. -/
theorem generateElements_inTree {output : Job → Except Fault (List GeneratedFile)} {t : Target}
    {job : ModelElement → Job} (houtput : ∀ e, output (job e) = generate t e)
    (elements : List ModelElement) (s : Session) :
    inTree (generateElements t elements s) =
      inOrder (Job.perform output) (elements.map job) s.tree := by
  induction elements generalizing s with
  | nil => rfl
  | cons e rest ih =>
      have hfirst := generateElement_inTree (houtput e) s
      simp only [List.map_cons, inOrder, generateElements, ← hfirst]
      cases generateElement t e s with
      | mk s₁ result =>
          cases result with
          | error failure => rfl
          | ok paths =>
              simp only [inTree, ← ih s₁]

/-- What a run does to the tree, and how it ends, is that of its jobs in order. -/
theorem generatePlatforms_inTree (config : Config) (settings : Settings)
    (elements : List ModelElement) (platforms : List String) (s : Session) :
    inTree (generatePlatforms config settings elements platforms s) =
      inOrder (Job.perform (Job.output config settings elements)) (Job.ofRun platforms elements)
        s.tree := by
  induction platforms generalizing s with
  | nil => rfl
  | cons platform rest ih =>
      have hjobs : Job.ofRun (platform :: rest) elements =
          .target platform :: (elements.map (.element platform) ++ Job.ofRun rest elements) := by
        simp [Job.ofRun]
      rw [hjobs]
      simp only [inOrder, generatePlatforms]
      cases htarget : config.target settings elements platform with
      | error fault =>
          simp [Job.perform, Job.output, htarget, Except.map, inTree]
      | ok t =>
          have hset : Job.perform (Job.output config settings elements) (.target platform) s.tree =
              (s.tree, .ok []) := by
            simp [Job.perform, Job.output, htarget, Except.map, inOrder]
          have houtput : ∀ e, Job.output config settings elements (.element platform e) =
              generate t e := fun e => by
            simp [Job.output, htarget, bind, Except.bind]
          have helements := generateElements_inTree houtput elements
            (s.record [.generating elements.length t.platform.name])
          have hrecord : (s.record [.generating elements.length t.platform.name]).tree = s.tree := rfl
          simp only [hset, inOrder_append]
          rw [← hrecord, ← helements]
          cases generateElements t elements
              (s.record [.generating elements.length t.platform.name]) with
          | mk s₁ result =>
              cases result with
              | error failure => rfl
              | ok paths =>
                  simp only [inTree, ← ih s₁]
                  cases (generatePlatforms config settings elements rest s₁).2 <;> rfl

/-- A run that can read its inputs does its jobs in order. -/
theorem run_inTree {reader : SourceReader} {config : Config} {s : Session}
    {elements : List ModelElement}
    (hread : elementsOf reader s.tree (Discovery.ofInputs s.tree config.inputs).files = .ok elements)
    (settings : Settings) (platforms : List String) :
    inTree (run reader config settings platforms s) =
      inOrder (Job.perform (Job.output config settings elements))
        (Job.ofRun (chosenPlatforms config platforms) elements) s.tree := by
  have hjobs := generatePlatforms_inTree config settings elements (chosenPlatforms config platforms)
    (afterReading config s (.ok elements))
  cases hgenerate : generatePlatforms config settings elements (chosenPlatforms config platforms)
      (afterReading config s (.ok elements)) with
  | mk s' result =>
      obtain ⟨events, hrun⟩ := run_of_read_ok hread hgenerate
      rw [hgenerate] at hjobs
      rw [hrun]
      exact hjobs

end Session

/-! ## How jobs end -/

namespace Job

variable {output : Job → Except Fault (List GeneratedFile)}

/-- A job is done if there are files and all of them are stored. -/
theorem perform_eq_ok_iff {job : Job} {tree tree' : FileTree} {paths : List Path} :
    job.perform output tree = (tree', .ok paths) ↔ ∃ files, output job = .ok files ∧
      inOrder GeneratedFile.storeIn files tree = (tree', .ok paths) := by
  unfold perform
  cases output job with
  | error fault => simp
  | ok files =>
      simp only [Except.ok.injEq, exists_eq_left']
      cases inOrder GeneratedFile.storeIn files tree with
      | mk tree₁ result => cases result <;> simp

/-- A job has a fault if its files cannot be had. -/
theorem perform_eq_fault_iff {job : Job} {tree : FileTree} {fault : Fault} :
    (job.perform output tree).2 = .error (.fault fault) ↔ output job = .error fault := by
  unfold perform
  cases output job with
  | error fault => simp
  | ok files =>
      simp only [reduceCtorEq, iff_false]
      cases inOrder GeneratedFile.storeIn files tree with
      | mk tree₁ result => cases result <;> simp

/-- A job is stopped by the file system if there are files and one of them cannot be stored. -/
theorem perform_eq_file_iff {job : Job} {tree : FileTree} {e : FileError} :
    (job.perform output tree).2 = .error (.file e) ↔ ∃ files, output job = .ok files ∧
      (inOrder GeneratedFile.storeIn files tree).2 = .error e := by
  unfold perform
  cases output job with
  | error fault => simp
  | ok files =>
      simp only [Except.ok.injEq, exists_eq_left']
      cases inOrder GeneratedFile.storeIn files tree with
      | mk tree₁ result => cases result <;> simp

/-- Jobs are all done if and only if they all give files, and all of these are written. -/
theorem passes_perform_iff {jobs : List Job} {tree tree' : FileTree} :
    Passes (perform output) jobs tree tree' ↔ ∃ outputs : List (List GeneratedFile),
      jobs.map output = outputs.map .ok ∧
        Passes GeneratedFile.storeIn outputs.flatten tree tree' := by
  induction jobs generalizing tree with
  | nil =>
      rw [passes_nil_iff]
      constructor
      · rintro rfl
        exact ⟨[], rfl, passes_nil_iff.2 rfl⟩
      · rintro ⟨outputs, houtputs, hstored⟩
        obtain rfl : outputs = [] := by simpa using houtputs.symm
        exact passes_nil_iff.1 hstored
  | cons job rest ih =>
      simp only [passes_cons_iff, perform_eq_ok_iff, ih]
      constructor
      · rintro ⟨tree₁, paths, ⟨files, hfiles, hstored⟩, outputs, houtputs, hlater⟩
        refine ⟨files :: outputs, by simp [hfiles, houtputs], ?_⟩
        exact passes_append_iff.2 ⟨tree₁, ⟨paths, hstored⟩, hlater⟩
      · rintro ⟨outputs, houtputs, hstored⟩
        cases outputs with
        | nil => simp at houtputs
        | cons files outputs =>
            obtain ⟨hfiles, hrest⟩ : output job = .ok files ∧ rest.map output = outputs.map .ok := by
              simpa using houtputs
            obtain ⟨tree₁, ⟨paths, hfirst⟩, hlater⟩ := passes_append_iff.1 hstored
            exact ⟨tree₁, paths, ⟨files, hfiles, hfirst⟩, outputs, hrest, hlater⟩

theorem endsInName_of_output {config : Config} {settings : Settings} {elements : List ModelElement}
    {job : Job} {files : List GeneratedFile} (h : Job.output config settings elements job = .ok files)
    {f : GeneratedFile} (hf : f ∈ files) : f.path.EndsInName := by
  cases job with
  | target platform =>
      obtain ⟨_, -, rfl⟩ := map_eq_ok.1 h
      simp at hf
  | element platform e =>
      obtain ⟨t, ht, hgenerate⟩ := bind_eq_ok.1 h
      exact ClassSet.endsInName_of_generate (Config.followsMarker_of_target ht) hgenerate hf

/-- The files of jobs that are all done hold what was written last at their places. -/
theorem overwritten_of_passes {config : Config} {settings : Settings} {elements : List ModelElement}
    {jobs : List Job} {outputs : List (List GeneratedFile)} {tree tree' : FileTree}
    (houtputs : jobs.map (Job.output config settings elements) = outputs.map .ok)
    (hstored : Passes GeneratedFile.storeIn outputs.flatten tree tree') :
    FileTree.Overwritten tree outputs.flatten tree' := by
  have hnames : ∀ f ∈ outputs.flatten, f.path.EndsInName := by
    intro f hf
    obtain ⟨files, hfiles, hmem⟩ := List.mem_flatten.1 hf
    have hfound : (Except.ok files : Except Fault (List GeneratedFile)) ∈
        jobs.map (Job.output config settings elements) := by
      rw [houtputs]
      exact List.mem_map_of_mem hfiles
    obtain ⟨job, -, hjob⟩ := List.mem_map.1 hfound
    exact endsInName_of_output hjob hmem
  obtain ⟨paths, hpaths⟩ := hstored
  rw [← Session.writeFiles_eq_inOrder] at hpaths
  exact (Session.writeFiles_eq_ok hnames hpaths).2.2

end Job

end PlatformClasses
