import PlatformClasses.Proofs.ClassFile.Destinations
import PlatformClasses.Proofs.Declaration.Faults
import PlatformClasses.Proofs.Declaration.Reading
import PlatformClasses.Proofs.FileTree.Overwriting
import PlatformClasses.Run

/-!
# Runs stop at the first fault

After it has read its inputs, a run is a list of jobs: for one platform after the other, to set up the
target and then to generate and write each element.  `CarriedOut` says what becomes of a list of jobs.
Either all of them are done, or one has a fault; then the session is as if the run had consisted of the
jobs before it, but for the count of declarations, which includes the one that has the fault.

`Session.run_stops_at_first_fault` is the result for whole runs.  It is assembled from one lemma for each
of the loops, and `CarriedOut.append` joins what two parts of a loop do.
-/

namespace PlatformClasses

/-- The result of a run to which the file system refuses nothing. -/
def WritesSucceed (result : Except Failure (List Path)) : Prop :=
  ∀ error, result ≠ .error (.file error)

theorem WritesSucceed.of_map {result : Except Failure (List Path)} {f : List Path → List Path}
    (h : WritesSucceed (result.map f)) : WritesSucceed result :=
  fun error hfile => h error (map_eq_error.2 hfile)

/-! ## Jobs -/

/-- One step of a run that has read its inputs. -/
inductive Job where
  /-- Sets up the target for a platform. -/
  | target (platform : String)
  /-- Generates and writes an element for a platform. -/
  | element (platform : String) (element : ModelElement)

namespace Job

/-- The jobs of a run, in order. -/
def ofRun (platforms : List String) (elements : List ModelElement) : List Job :=
  platforms.flatMap fun platform => .target platform :: elements.map (.element platform)

/-- The files that a job writes, unless it has a fault. -/
def output (config : Config) (settings : Settings) (elements : List ModelElement) :
    Job → Except Fault (List GeneratedFile)
  | .target platform => (config.target settings elements platform).map fun _ => []
  | .element platform e => do generate (← config.target settings elements platform) e

/-- Whether a job is for an element. -/
def isElement : Job → Bool
  | .target _ => false
  | .element _ _ => true

/-- The number of declarations that are begun in a list of jobs. -/
def begun (jobs : List Job) : Nat := jobs.countP isElement

end Job

/-! ## What jobs do to a session -/

/-- What files do to a session when they are written in order, while a number of declarations are
begun. -/
structure Written (s : Session) (files : List GeneratedFile) (begun : Nat) (s' : Session) :
    Prop where
  tree : s'.tree = s.tree.overwrite files
  places : FileTree.Overwritten s.tree files s'.tree
  holds : ∀ f ∈ files, ∃ last,
    FileTree.lastAt? s.tree.here files (FileTree.place s.tree.here f.path) = some last ∧
      s'.tree.read f.path = .ok last.bytes := fun _ hf => places.read_eq hf
  declarations : s'.progress.declarations = s.progress.declarations + begun
  files : s'.progress.files = s.progress.files + files.length
  operations : s'.progress.operations = s.progress.operations

/-- What becomes of jobs: the session they leave and their result. -/
inductive CarriedOut (output : Job → Except Fault (List GeneratedFile)) (s s' : Session) :
    List Job → Except Failure (List Path) → Prop where
  /-- All jobs are done. -/
  | completed {jobs : List Job} {outputs : List (List GeneratedFile)}
      (houtputs : jobs.map output = outputs.map .ok)
      (hwritten : Written s outputs.flatten (Job.begun jobs) s') :
      CarriedOut output s s' jobs (.ok (outputs.flatten.map (·.path)))
  /-- The jobs before one that has a fault are done, and of that one and those after it nothing. -/
  | stopped {before after : List Job} {job : Job} {outputs : List (List GeneratedFile)}
      {fault : Fault} (houtputs : before.map output = outputs.map .ok)
      (hfault : output job = .error fault)
      (hwritten : Written s outputs.flatten (Job.begun (before ++ [job])) s') :
      CarriedOut output s s' (before ++ job :: after) (.error (.fault fault))

namespace Written

theorem nil (s : Session) : Written s [] 0 s where
  tree := rfl
  places := FileTree.Overwritten.nil s.tree
  declarations := rfl
  files := rfl
  operations := rfl

theorem append {s s₁ s' : Session} {fs gs : List GeneratedFile} {m n : Nat}
    (h₁ : Written s fs m s₁) (h₂ : Written s₁ gs n s') : Written s (fs ++ gs) (m + n) s' where
  tree := by rw [h₂.tree, h₁.tree, FileTree.overwrite_append]
  places := h₁.places.append h₂.places
  declarations := by
    have hfirst := h₁.declarations
    have hsecond := h₂.declarations
    omega
  files := by
    have hfirst := h₁.files
    have hsecond := h₂.files
    rw [List.length_append]
    omega
  operations := h₂.operations.trans h₁.operations

end Written

namespace CarriedOut

variable {output : Job → Except Fault (List GeneratedFile)} {s s₁ s' : Session}

theorem nil (s : Session) : CarriedOut output s s [] (.ok []) := by
  have houtputs : ([] : List Job).map output = ([] : List (List GeneratedFile)).map .ok := rfl
  exact completed houtputs (Written.nil s)

/-- A fault of the first job. -/
theorem stopped_first {job : Job} {fault : Fault} (hfault : output job = .error fault)
    (hwritten : Written s [] (Job.begun [job]) s') (after : List Job) :
    CarriedOut output s s' (job :: after) (.error (.fault fault)) := by
  have houtputs : ([] : List Job).map output = ([] : List (List GeneratedFile)).map .ok := rfl
  exact stopped houtputs hfault hwritten

/-- Logging is no part of what jobs do. -/
theorem of_record {jobs : List Job} {result : Except Failure (List Path)} (events : List LogEvent)
    (h : CarriedOut output (s.record events) s' jobs result) :
    CarriedOut output s s' jobs result := by
  cases h with
  | completed houtputs hwritten => exact completed houtputs { hwritten with }
  | stopped houtputs hfault hwritten => exact stopped houtputs hfault { hwritten with }

theorem append {jobs more : List Job} {paths : List Path} {result : Except Failure (List Path)}
    (h₁ : CarriedOut output s s₁ jobs (.ok paths)) (h₂ : CarriedOut output s₁ s' more result) :
    CarriedOut output s s' (jobs ++ more) (result.map (paths ++ ·)) := by
  cases h₁ with
  | @completed _ done hdone hwritten₁ =>
      cases h₂ with
      | @completed _ outputs houtputs hwritten =>
          have hall : (jobs ++ more).map output = (done ++ outputs).map .ok := by
            rw [List.map_append, List.map_append, hdone, houtputs]
          have hboth := hwritten₁.append hwritten
          rw [← List.flatten_append, Job.begun, Job.begun, ← List.countP_append] at hboth
          have hresult := completed hall hboth
          rw [List.flatten_append, List.map_append] at hresult
          exact hresult
      | @stopped before after job outputs fault houtputs hfault hwritten =>
          have hbefore : (jobs ++ before).map output = (done ++ outputs).map .ok := by
            rw [List.map_append, List.map_append, hdone, houtputs]
          have hboth := hwritten₁.append hwritten
          rw [← List.flatten_append, Job.begun, Job.begun, ← List.countP_append,
            ← List.append_assoc] at hboth
          have hresult : CarriedOut output s s' (jobs ++ before ++ job :: after)
              (.error (.fault fault)) :=
            stopped hbefore hfault hboth
          rw [List.append_assoc] at hresult
          exact hresult

theorem record {jobs : List Job} {result : Except Failure (List Path)}
    (h : CarriedOut output s s' jobs result) (events : List LogEvent) :
    CarriedOut output s (s'.record events) jobs result := by
  cases h with
  | completed houtputs hwritten => exact completed houtputs { hwritten with }
  | stopped houtputs hfault hwritten => exact stopped houtputs hfault { hwritten with }

/-- Setting up a target does nothing to the session. -/
theorem cons_target {platform : String} {jobs : List Job} {result : Except Failure (List Path)}
    (htarget : output (.target platform) = .ok []) (h : CarriedOut output s s' jobs result) :
    CarriedOut output s s' (.target platform :: jobs) result := by
  have houtputs : [Job.target platform].map output = [[]].map .ok := by simp [htarget]
  have hset : CarriedOut output s s [.target platform] (.ok []) :=
    completed houtputs (Written.nil s)
  have hboth := hset.append h
  cases result with
  | error failure => exact hboth
  | ok paths => exact hboth

/-- Jobs after a fault do not matter. -/
theorem append_of_error {jobs : List Job} {failure : Failure}
    (h : CarriedOut output s s' jobs (.error failure)) (more : List Job) :
    CarriedOut output s s' (jobs ++ more) (.error failure) := by
  cases h with
  | stopped houtputs hfault hwritten =>
      rw [List.append_assoc, List.cons_append]
      exact stopped houtputs hfault hwritten

end CarriedOut

namespace Session

/-! ## One element -/

/-- If all files are written, the tree holds them. -/
theorem writeFiles_eq_ok {files : List GeneratedFile} (hnames : ∀ f ∈ files, f.path.EndsInName)
    {t t' : FileTree} {paths : List Path} (h : writeFiles t files = (t', .ok paths)) :
    paths = files.map (·.path) ∧ t' = t.overwrite files ∧ FileTree.Overwritten t files t' := by
  induction files generalizing t paths with
  | nil =>
      obtain ⟨rfl, rfl⟩ : t = t' ∧ [] = paths := by simpa [writeFiles] using h
      exact ⟨rfl, rfl, FileTree.Overwritten.nil t⟩
  | cons f rest ih =>
      unfold writeFiles at h
      cases hstore : t.store f.path.parent f.path.name f.content with
      | mk t₁ stored =>
          rw [hstore] at h
          cases stored with
          | error e => simp at h
          | ok path =>
              simp only [Prod.mk.injEq, map_eq_ok] at h
              obtain ⟨htree, more, hmore, rfl⟩ := h
              obtain ⟨rfl, hfirst⟩ := FileTree.overwritten_of_store (hnames f (by simp)) hstore
              have hrest : writeFiles t₁ rest = (t', .ok more) := Prod.ext htree hmore
              obtain ⟨rfl, rfl, hlater⟩ := ih (fun g hg => hnames g (by simp [hg])) hrest
              refine ⟨rfl, ?_, hfirst.append hlater⟩
              simp [FileTree.overwrite, hstore]

/-- An element that cannot be generated leaves the tree as it is and counts as begun. -/
theorem generateElement_of_error {t : Target} {e : ModelElement} {fault : Fault}
    (h : generate t e = .error fault) (s : Session) :
    Written s [] 1 (generateElement t e s).1 ∧
      (generateElement t e s).2 = .error (.fault fault) := by
  have hrun : generateElement t e s =
      ((s.step (Progress.enterDeclaration e.declaration.name)).step
        (Progress.leave (some fault.message)), .error (.fault fault)) := by
    simp [generateElement, generateFiles, h, Failure.message]
  rw [hrun]
  refine ⟨?_, rfl⟩
  exact
    { tree := rfl, places := FileTree.Overwritten.nil s.tree
      declarations := rfl, files := rfl, operations := rfl }

/-- An element whose files can be generated and written counts as begun, and its files as written. -/
theorem generateElement_of_ok {t : Target} (ht : Target.FollowsMarker t.known) {e : ModelElement}
    {files : List GeneratedFile} (h : generate t e = .ok files) (s : Session)
    (hwrites : WritesSucceed (generateElement t e s).2) :
    Written s files 1 (generateElement t e s).1 ∧
      (generateElement t e s).2 = .ok (files.map (·.path)) := by
  cases hwrite : writeFiles s.tree files with
  | mk tree written =>
      cases written with
      | error refusal =>
          have hfiles : generateFiles t e s.tree = (tree, .error (.file refusal)) := by
            simp [generateFiles, h, hwrite]
          refine absurd ?_ (hwrites refusal)
          simp [generateElement, Session.step, hfiles]
      | ok paths =>
          have hfiles : generateFiles t e s.tree = (tree, .ok paths) := by
            simp [generateFiles, h, hwrite]
          have hnames : ∀ f ∈ files, f.path.EndsInName :=
            fun f hf => ClassSet.endsInName_of_generate ht h hf
          obtain ⟨rfl, rfl, hplaces⟩ := writeFiles_eq_ok hnames hwrite
          have hrun : generateElement t e s =
              (((({ s with tree := s.tree.overwrite files } : Session).step
                (Progress.enterDeclaration e.declaration.name)).step (Progress.leave none)).step
                fun p => (p.countFiles files.length, []), .ok (files.map (·.path))) := by
            simp [generateElement, Session.step, hfiles, Progress.enterDeclaration, Progress.enter,
              Progress.leave]
          rw [hrun]
          refine ⟨?_, rfl⟩
          exact
            { tree := rfl, places := hplaces, declarations := rfl, files := rfl, operations := rfl }

/-- What generating an element does, by what generating its files gives. -/
theorem carriedOut_generateElement {t : Target} (ht : Target.FollowsMarker t.known)
    {output : Job → Except Fault (List GeneratedFile)} {job : Job} {e : ModelElement}
    (hjob : job.isElement = true) (houtput : output job = generate t e) (s : Session)
    (hwrites : WritesSucceed (generateElement t e s).2) :
    CarriedOut output s (generateElement t e s).1 [job] (generateElement t e s).2 := by
  have hbegun : Job.begun [job] = 1 := by simp [Job.begun, hjob]
  cases hgenerate : generate t e with
  | error fault =>
      obtain ⟨hwritten, hresult⟩ := generateElement_of_error hgenerate s
      rw [hresult]
      refine CarriedOut.stopped_first (houtput.trans hgenerate) ?_ []
      rw [hbegun]
      exact hwritten
  | ok files =>
      obtain ⟨hwritten, hresult⟩ := generateElement_of_ok ht hgenerate s hwrites
      have hone : [job].map output = [files].map .ok := by simp [houtput, hgenerate]
      rw [← hbegun, ← List.flatten_singleton (l := files)] at hwritten
      have hall := CarriedOut.completed hone hwritten
      rw [List.flatten_singleton] at hall
      rw [hresult]
      exact hall

/-! ## The loops -/

/-- Generating elements carries out their jobs up to the first fault. -/
theorem carriedOut_generateElements {t : Target} (ht : Target.FollowsMarker t.known)
    {output : Job → Except Fault (List GeneratedFile)} {job : ModelElement → Job}
    (hjob : ∀ e, (job e).isElement = true) (houtput : ∀ e, output (job e) = generate t e)
    (elements : List ModelElement) (s : Session)
    (hwrites : WritesSucceed (generateElements t elements s).2) :
    CarriedOut output s (generateElements t elements s).1 (elements.map job)
      (generateElements t elements s).2 := by
  induction elements generalizing s with
  | nil => exact CarriedOut.nil s
  | cons e rest ih =>
      have hstep := carriedOut_generateElement ht (hjob e) (houtput e) s
      cases hfirst : generateElement t e s with
      | mk s₁ result =>
          rw [hfirst] at hstep
          cases result with
          | error failure =>
              have hrun : generateElements t (e :: rest) s = (s₁, .error failure) := by
                simp [generateElements, hfirst]
              rw [hrun] at hwrites ⊢
              exact (hstep hwrites).append_of_error (rest.map job)
          | ok paths =>
              have hrun : generateElements t (e :: rest) s = ((generateElements t rest s₁).1,
                  (generateElements t rest s₁).2.map (paths ++ ·)) := by
                simp [generateElements, hfirst]
              rw [hrun] at hwrites ⊢
              exact (hstep (by simp [WritesSucceed])).append (ih s₁ hwrites.of_map)

/-- Generating for platforms carries out their jobs, platform by platform. -/
theorem carriedOut_generatePlatforms (config : Config) (settings : Settings)
    (elements : List ModelElement) (platforms : List String) (s : Session)
    (hwrites : WritesSucceed (generatePlatforms config settings elements platforms s).2) :
    CarriedOut (Job.output config settings elements) s
      (generatePlatforms config settings elements platforms s).1 (Job.ofRun platforms elements)
      (generatePlatforms config settings elements platforms s).2 := by
  induction platforms generalizing s with
  | nil => exact CarriedOut.nil s
  | cons platform rest ih =>
      have hjobs : Job.ofRun (platform :: rest) elements =
          .target platform :: (elements.map (.element platform) ++ Job.ofRun rest elements) := by
        simp [Job.ofRun]
      rw [hjobs]
      cases htarget : config.target settings elements platform with
      | error fault =>
          have hrun : generatePlatforms config settings elements (platform :: rest) s =
              (s, .error (.fault fault)) := by
            simp [generatePlatforms, htarget]
          rw [hrun]
          refine CarriedOut.stopped_first ?_ (Written.nil s) _
          simp [Job.output, htarget, Except.map]
      | ok t =>
          refine CarriedOut.cons_target (by simp [Job.output, htarget, Except.map]) ?_
          have hjob : ∀ e, (Job.element platform e).isElement = true := fun _ => rfl
          have houtput : ∀ e, Job.output config settings elements (.element platform e) =
              generate t e := fun e => by
            simp [Job.output, htarget, bind, Except.bind]
          have hgenerated := carriedOut_generateElements (Config.followsMarker_of_target htarget)
            hjob houtput elements (s.record [.generating elements.length t.platform.name])
          cases hfirst : generateElements t elements
              (s.record [.generating elements.length t.platform.name]) with
          | mk s₁ result =>
              rw [hfirst] at hgenerated
              cases result with
              | error failure =>
                  have hrun : generatePlatforms config settings elements (platform :: rest) s =
                      (s₁, .error failure) := by
                    simp [generatePlatforms, htarget, hfirst]
                  rw [hrun] at hwrites ⊢
                  have hall := (hgenerated hwrites).of_record
                  exact hall.append_of_error (Job.ofRun rest elements)
              | ok paths =>
                  have hrun : generatePlatforms config settings elements (platform :: rest) s =
                      ((generatePlatforms config settings elements rest s₁).1,
                        (generatePlatforms config settings elements rest s₁).2.map
                          (paths ++ ·)) := by
                    simp [generatePlatforms, htarget, hfirst]
                  rw [hrun] at hwrites ⊢
                  have hall := (hgenerated (by simp [WritesSucceed])).of_record
                  exact hall.append (ih s₁ hwrites.of_map)

/-! ## Reading the inputs -/

variable {reader : SourceReader}

/-- Reading succeeds where each of the files can be read. -/
theorem elementsOf_eq_ok_iff (reader : SourceReader) (tree : FileTree) (files : List Path)
    (elements : List ModelElement) :
    elementsOf reader tree files = .ok elements ↔
      ∃ parts : List (List ModelElement), files.map (SourceFile.elements reader tree) = parts.map .ok ∧
        elements = parts.flatten := by
  induction files generalizing elements with
  | nil => simp [elementsOf, eq_comm]
  | cons path rest ih =>
      unfold elementsOf
      cases hpath : SourceFile.elements reader tree path with
      | error fault =>
          simp only [reduceCtorEq, List.map_cons, hpath, false_iff, not_exists, not_and]
          intro parts hparts
          cases parts <;> simp at hparts
      | ok part =>
          simp only [map_eq_ok, ih, List.map_cons, hpath]
          constructor
          · rintro ⟨_, ⟨parts, hparts, rfl⟩, rfl⟩
            exact ⟨part :: parts, by simp [hparts], by simp⟩
          · rintro ⟨parts, hparts, rfl⟩
            cases parts with
            | nil => simp at hparts
            | cons first parts =>
                obtain ⟨hfirst, hmore⟩ : part = first ∧
                    rest.map (SourceFile.elements reader tree) = parts.map .ok := by simpa using hparts
                subst hfirst
                exact ⟨_, ⟨parts, hmore, rfl⟩, by simp⟩

/-- The elements of one file are those of the run. -/
theorem elementsOf_singleton {tree : FileTree} {path : Path} {elements : List ModelElement}
    (h : SourceFile.elements reader tree path = .ok elements) :
    elementsOf reader tree [path] = .ok elements := by
  rw [elementsOf_eq_ok_iff]
  exact ⟨[elements], by simp [h], by simp⟩

/-- Reading stops at the first file that has a fault. -/
theorem elementsOf_eq_error {tree : FileTree} {files : List Path} {fault : Fault}
    (h : elementsOf reader tree files = .error fault) :
    ∃ (before : List Path) (path : Path) (after : List Path) (parts : List (List ModelElement)),
      files = before ++ path :: after ∧
        before.map (SourceFile.elements reader tree) = parts.map .ok ∧
          SourceFile.elements reader tree path = .error fault := by
  induction files with
  | nil => simp [elementsOf] at h
  | cons first rest ih =>
      unfold elementsOf at h
      cases hfirst : SourceFile.elements reader tree first with
      | error e =>
          obtain rfl : e = fault := by simpa [hfirst] using h
          exact ⟨[], first, rest, [], rfl, rfl, hfirst⟩
      | ok part =>
          rw [hfirst] at h
          obtain ⟨before, path, after, parts, hfiles, hbefore, hfault⟩ := ih (map_eq_error.1 h)
          refine ⟨first :: before, path, after, part :: parts, ?_, ?_, hfault⟩
          · rw [hfiles, List.cons_append]
          · rw [List.map_cons, List.map_cons, hfirst, hbefore]

/-- The session after the inputs have been read: what is logged depends on what is found and on how the
reading ends. -/
def afterReading (config : Config) (s : Session) (result : Except Fault (List ModelElement)) :
    Session :=
  let found := Discovery.ofInputs s.tree config.inputs
  s.record (found.skipped.map LogEvent.skipping ++
    [.loading found.files.length, .started "load declarations"] ++
      match result with
      | .error fault => [.failed "load declarations" fault.message]
      | .ok elements => [.completed "load declarations", .loaded elements.length])

/-- Reading only logs, and ends the operation that it begins. -/
theorem load_of_read {config : Config} {s : Session} {result : Except Fault (List ModelElement)}
    (hread : elementsOf reader s.tree (Discovery.ofInputs s.tree config.inputs).files = result) :
    load reader config s = (afterReading config s result, result) := by
  cases result with
  | error fault =>
      simp [load, discover, record, step, Progress.enter, Progress.leave, afterReading, hread]
  | ok elements =>
      simp [load, discover, record, step, Progress.enter, Progress.leave, afterReading, hread]

/-! ## Whole runs -/

/-- The platforms of a run: the given ones, or the configured one if there are none. -/
def chosenPlatforms (config : Config) (platforms : List String) : List String :=
  if platforms.isEmpty then [config.platform] else platforms

/-- A run that cannot read its inputs does nothing but log. -/
theorem run_of_read_error {config : Config} {s : Session} {fault : Fault}
    (hread : elementsOf reader s.tree (Discovery.ofInputs s.tree config.inputs).files = .error fault)
    (settings : Settings) (platforms : List String) :
    run reader config settings platforms s =
      (afterReading config s (.error fault), .error (.fault fault)) := by
  simp [run, load_of_read hread]

/-- A run that can read its inputs generates for its platforms. -/
theorem run_of_read_ok {config : Config} {s s' : Session} {elements : List ModelElement}
    {settings : Settings} {platforms : List String} {result : Except Failure (List Path)}
    (hread : elementsOf reader s.tree (Discovery.ofInputs s.tree config.inputs).files = .ok elements)
    (hgenerate : generatePlatforms config settings elements (chosenPlatforms config platforms)
      (afterReading config s (.ok elements)) = (s', result)) :
    ∃ events, run reader config settings platforms s = (s'.record events, result) := by
  unfold chosenPlatforms at hgenerate
  cases result with
  | error failure =>
      refine ⟨[], ?_⟩
      simp only [run, load_of_read hread, hgenerate]
      simp [record]
  | ok paths =>
      refine ⟨[s'.progress.summary, .memory], ?_⟩
      simp only [run, load_of_read hread, hgenerate]

/-- Once the elements are read, the result of a run is that of generating for its platforms. -/
theorem result_of_read_ok {config : Config} {s : Session} {elements : List ModelElement}
    (hread : elementsOf reader s.tree (Discovery.ofInputs s.tree config.inputs).files = .ok elements)
    (settings : Settings) (platforms : List String) :
    (run reader config settings platforms s).2 =
      (generatePlatforms config settings elements (chosenPlatforms config platforms)
        (afterReading config s (.ok elements))).2 := by
  cases hgenerate : generatePlatforms config settings elements (chosenPlatforms config platforms)
      (afterReading config s (.ok elements)) with
  | mk s' result =>
      obtain ⟨events, hrun⟩ := run_of_read_ok hread hgenerate
      rw [hrun]

/-- A run that can read its inputs carries out its jobs. -/
theorem carriedOut_run {config : Config} {s : Session} {elements : List ModelElement}
    (hread : elementsOf reader s.tree (Discovery.ofInputs s.tree config.inputs).files = .ok elements)
    (settings : Settings) (platforms : List String)
    (hwrites : WritesSucceed (run reader config settings platforms s).2) :
    CarriedOut (Job.output config settings elements) s (run reader config settings platforms s).1
      (Job.ofRun (chosenPlatforms config platforms) elements)
      (run reader config settings platforms s).2 := by
  have hjobs := carriedOut_generatePlatforms config settings elements
    (chosenPlatforms config platforms) (afterReading config s (.ok elements))
  cases hgenerate : generatePlatforms config settings elements (chosenPlatforms config platforms)
      (afterReading config s (.ok elements)) with
  | mk s' result =>
      obtain ⟨events, hrun⟩ := run_of_read_ok hread hgenerate
      rw [hgenerate] at hjobs
      rw [hrun] at hwrites ⊢
      exact (hjobs hwrites).of_record.record events

/-- A run to which the file system refuses nothing either finds a file with a fault among its inputs, and
then does nothing but log, or carries out the jobs for all platforms and all elements, up to the first
that has a fault.  This holds for every reader of sources. -/
theorem run_stops_at_first_fault (reader : SourceReader) (config : Config) (settings : Settings)
    (platforms : List String) (s : Session)
    (hwrites : WritesSucceed (run reader config settings platforms s).2) :
    let files := (Discovery.ofInputs s.tree config.inputs).files
    let s' := (run reader config settings platforms s).1
    let result := (run reader config settings platforms s).2
    (∃ before path after fault, ∃ parts : List (List ModelElement),
      files = before ++ path :: after ∧ before.map (SourceFile.elements reader s.tree) = parts.map .ok ∧
        SourceFile.elements reader s.tree path = .error fault ∧ fault.category = .structural ∧
          result = .error (.fault fault) ∧ s'.tree = s.tree ∧ s'.progress = s.progress) ∨
    ∃ parts : List (List ModelElement), files.map (SourceFile.elements reader s.tree) = parts.map .ok ∧
      CarriedOut (Job.output config settings parts.flatten) s s'
        (Job.ofRun (chosenPlatforms config platforms) parts.flatten) result := by
  intro files s' result
  cases hread : elementsOf reader s.tree files with
  | error fault =>
      have hrun := run_of_read_error hread settings platforms
      obtain ⟨before, path, after, parts, hfiles, hbefore, hfault⟩ := elementsOf_eq_error hread
      have hstructural := onlyStructural_elements reader s.tree path fault hfault
      refine .inl ⟨before, path, after, fault, parts, hfiles, hbefore, hfault, hstructural, ?_⟩
      unfold s' result
      rw [hrun]
      exact ⟨rfl, rfl, rfl⟩
  | ok elements =>
      obtain ⟨parts, hparts, rfl⟩ := (elementsOf_eq_ok_iff reader s.tree files elements).1 hread
      exact .inr ⟨parts, hparts, carriedOut_run hread settings platforms hwrites⟩

/-! A run in which the second of two interfaces lacks the marker. -/

private def unmarkedNames : List String := ["IA", "W"]

private def unmarkedPath : Path := ⟨0, ["a.cs"]⟩

private def unmarkedSession : Session where
  tree := ⟨[], [(⟨1, ["a.cs"]⟩, .file (Text.Utf8.encode (EmptyInterfaces.text unmarkedNames).toList))]⟩

private def unmarkedConfig : Config := EmptyInterfaces.config [unmarkedPath]

private def unmarkedElements : List ModelElement :=
  unmarkedNames.map (EmptyInterfaces.element (some unmarkedPath))

private theorem elements_unmarked :
    SourceFile.elements .builtIn unmarkedSession.tree unmarkedPath = .ok unmarkedElements := by
  have htext : SourceFile.text unmarkedSession.tree unmarkedPath =
      .ok (EmptyInterfaces.text unmarkedNames).toList := by
    decide +kernel
  have htokens : Source.tokens? (EmptyInterfaces.text unmarkedNames).toList =
      some (EmptyInterfaces.tokens unmarkedNames) := by
    decide +kernel
  have horigin : unmarkedPath.toString = "a.cs" := by decide +kernel
  refine elements_of_tokens htext htokens horigin ?_
  decide +kernel

/-- The class of the first interface is written; the second interface is refused. -/
theorem run_stops_at_unmarked_name :
    WritesSucceed (run .builtIn unmarkedConfig .default [] unmarkedSession).2 ∧
      CarriedOut (Job.output unmarkedConfig .default unmarkedElements) unmarkedSession
        (run .builtIn unmarkedConfig .default [] unmarkedSession).1
        [.target "wpf", .element "wpf" (EmptyInterfaces.element (some unmarkedPath) "IA"),
          .element "wpf" (EmptyInterfaces.element (some unmarkedPath) "W")]
        (.error (.fault (.unmarkedName "W"))) := by
  have hfiles : (Discovery.ofInputs unmarkedSession.tree unmarkedConfig.inputs).files =
      [unmarkedPath] := by
    decide +kernel
  have hread : elementsOf .builtIn unmarkedSession.tree
      (Discovery.ofInputs unmarkedSession.tree unmarkedConfig.inputs).files =
        .ok unmarkedElements := by
    rw [hfiles]
    exact elementsOf_singleton elements_unmarked
  have hresult : (run .builtIn unmarkedConfig .default [] unmarkedSession).2 =
      .error (.fault (.unmarkedName "W")) := by
    have hgenerate : (generatePlatforms unmarkedConfig .default unmarkedElements
        (chosenPlatforms unmarkedConfig [])
        (afterReading unmarkedConfig unmarkedSession (.ok unmarkedElements))).2 =
          .error (.fault (.unmarkedName "W")) := by
      decide +kernel
    rw [result_of_read_ok hread]
    exact hgenerate
  have hwrites : WritesSucceed (run .builtIn unmarkedConfig .default [] unmarkedSession).2 := by
    rw [hresult]
    simp [WritesSucceed]
  refine ⟨hwrites, ?_⟩
  rcases run_stops_at_first_fault .builtIn unmarkedConfig .default [] unmarkedSession hwrites with h | h
  · obtain ⟨before, path, after, fault, parts, hsplit, -, hfault, -⟩ := h
    have hpath : path ∈ [unmarkedPath] := by
      rw [← hfiles, show (Discovery.ofInputs unmarkedSession.tree _).files = _ from hsplit]
      simp
    rw [List.mem_singleton.1 hpath] at hfault
    exact absurd (elements_unmarked.symm.trans hfault) (by simp)
  · obtain ⟨parts, hparts, hjobs⟩ := h
    have hflat : parts.flatten = unmarkedElements := by
      have hok := (elementsOf_eq_ok_iff _ _ _ parts.flatten).2 ⟨parts, hparts, rfl⟩
      exact Except.ok.inj (hok.symm.trans hread)
    rw [hflat, hresult] at hjobs
    exact hjobs

end Session

end PlatformClasses
