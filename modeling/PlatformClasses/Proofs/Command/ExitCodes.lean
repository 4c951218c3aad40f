import PlatformClasses.Proofs.Command.Configuration
import PlatformClasses.Proofs.Run.Jobs

/-!
# Exit codes

A command line that can be read ends in one of three ways.  It is done with exit code zero if its
configuration can be carried out and every element is generated and written for every platform (`Done`).
It fails with exit code one and a message if the configuration cannot be carried out, or something in the
model has a fault (`Fails`).  And it breaks off without an exit code of its own if the file system refuses
the log file, the output directory or a generated file (`Refuses`); nothing handles that.

So the law that a command either succeeds with zero or fails with one and a message holds exactly where
the file system refuses nothing (`run_follows_exit_law_iff`).
-/

namespace PlatformClasses

/-! ## What the journal leaves alone -/

namespace Journal

theorem here_appendTo (path : Path) (text : String) (tree : FileTree) :
    (appendTo path text tree).here = tree.here := by
  unfold appendTo
  split
  · rfl
  · split <;> rfl

theorem entryAt?_appendTo {path q : Path} {tree : FileTree} (h : FileTree.place tree.here path ≠ q)
    (text : String) : (appendTo path text tree).entryAt? q = tree.entryAt? q := by
  unfold appendTo
  split
  · rfl
  · next place hplace =>
    obtain ⟨-, rfl⟩ := (FileTree.placeOf_eq_ok_iff tree path place).1 hplace
    split
    · exact FileTree.entryAt?_put_of_ne tree h.symm _
    · rfl
    · exact FileTree.entryAt?_put_of_ne tree h.symm _

variable {j : Journal} {q : Path} {tree : FileTree}

/-- A record changes nothing but the log file. -/
theorem entryAt?_log (now : LogMoment) (r : LogRecord)
    (h : ∀ path, LogSink.file path ∈ j.sinks → FileTree.place tree.here path ≠ q) :
    (j.log now r tree).2.here = tree.here ∧
      (j.log now r tree).2.entryAt? q = tree.entryAt? q := by
  unfold log
  refine List.foldlRecOn j.sinks _ (motive := fun state : List String × FileTree =>
    state.2.here = tree.here ∧ state.2.entryAt? q = tree.entryAt? q) ⟨rfl, rfl⟩ ?_
  rintro ⟨lines, reached⟩ ⟨hhere, hreached⟩ sink hsink
  simp only
  split
  · cases sink with
    | console least => exact ⟨hhere, hreached⟩
    | file path =>
        have hplace : FileTree.place reached.here path ≠ q := by
          rw [hhere]
          exact h path hsink
        exact ⟨(here_appendTo path _ reached).trans hhere,
          (entryAt?_appendTo hplace _).trans hreached⟩
  · exact ⟨hhere, hreached⟩

/-- Recording changes nothing but the log file. -/
theorem entryAt?_logAll (now : LogMoment)
    (h : ∀ path, LogSink.file path ∈ j.sinks → FileTree.place tree.here path ≠ q)
    (records : List LogRecord) : (j.logAll now tree records).2.entryAt? q = tree.entryAt? q := by
  induction records generalizing tree with
  | nil => rfl
  | cons r rest ih =>
      obtain ⟨hhere, hentry⟩ := entryAt?_log now r h
      show (j.logAll now (j.log now r tree).2 rest).2.entryAt? q = _
      rw [ih (by rw [hhere]; exact h), hentry]

end Journal

namespace Command

variable (readers : Readers) (now : LogMoment) (args : Arguments) (env : Environment)
  (tree : FileTree)

/-! ## What a command line asks for, and what becomes of it -/

/-- A command line asks for a configuration that can be carried out, with some settings. -/
structure Asks (config : Config) (settings : Settings) : Prop where
  planned : ∃ env', plan readers.envFiles args env tree = .ok (config, env') ∧
    Settings.ofEnvironment env' = settings
  valid : config.IsValid tree

/-- The journal of a command as it is opened. -/
def opening (config : Config) : Journal.Reply :=
  Journal.closed.openIn now config.logDirectory config.verbose tree

/-- The run of a configuration begins on a tree: the journal is open and there is the output directory. -/
structure Begins (config : Config) (begun : FileTree) : Prop where
  journal : (opening now tree config).failure = none
  outputRoot : (opening now tree config).tree.makeDirectories config.outputRoot = (begun, .ok ())

/-- A run has read the elements of its inputs. -/
def Reads (config : Config) (begun : FileTree) (elements : List ModelElement) : Prop :=
  Session.elementsOf readers.sources begun (Discovery.ofInputs begun config.inputs).files = .ok elements

/-- All jobs of a run have files, and all of these are written.  What the command leaves is what writing
them leaves, but for the log file. -/
def Done (left : FileTree) : Prop :=
  ∃ config settings begun elements, ∃ outputs : List (List GeneratedFile), ∃ written,
    Asks readers args env tree config settings ∧ Begins now tree config begun ∧
      Reads readers config begun elements ∧
        (Job.ofRun (platformsOf args config) elements).map (Job.output config settings elements) =
            outputs.map .ok ∧
          Passes GeneratedFile.storeIn outputs.flatten begun written ∧
            FileTree.Overwritten begun outputs.flatten written ∧
              ∀ q, (∀ path, LogSink.file path ∈ (opening now tree config).journal.sinks →
                FileTree.place written.here path ≠ q) → left.entryAt? q = written.entryAt? q

/-- A run comes to a job, and those before it are done. -/
structure ComesTo (config : Config) (settings : Settings) (elements : List ModelElement) (job : Job)
    (reached : FileTree) : Prop where
  begins : ∃ begun before after, Begins now tree config begun ∧ Reads readers config begun elements ∧
    Job.ofRun (platformsOf args config) elements = before ++ job :: after ∧
      Passes (Job.perform (Job.output config settings elements)) before begun reached
  asks : Asks readers args env tree config settings

/-- Something is wrong with the configuration or the model, and a text says what. -/
inductive Fails : String → Prop where
  /-- The configuration cannot be carried out. -/
  | configuration {e : ConfigError} (h : Misconfigured readers.envFiles args env tree e) :
      Fails s!"Configuration error: {e.message}\n"
  /-- A source file has a fault. -/
  | reading {config : Config} {settings : Settings} {begun : FileTree} {fault : Fault}
      (hasks : Asks readers args env tree config settings) (hbegins : Begins now tree config begun)
      (h : Session.elementsOf readers.sources begun (Discovery.ofInputs begun config.inputs).files =
        .error fault) :
      Fails (fault.message ++ "\n")
  /-- A platform is unknown, or an element has a fault on it. -/
  | generating {config : Config} {settings : Settings} {elements : List ModelElement} {job : Job}
      {reached : FileTree} {fault : Fault}
      (hcomes : ComesTo readers now args env tree config settings elements job reached)
      (h : Job.output config settings elements job = .error fault) :
      Fails (fault.message ++ "\n")

/-- The file system refuses something that a command needs. -/
inductive Refuses : FileError → Prop where
  /-- The log file, or the directory that it should be in. -/
  | journal {config : Config} {settings : Settings} {e : FileError}
      (hasks : Asks readers args env tree config settings)
      (h : (opening now tree config).failure = some e) : Refuses e
  /-- The output directory. -/
  | outputRoot {config : Config} {settings : Settings} {e : FileError}
      (hasks : Asks readers args env tree config settings)
      (hjournal : (opening now tree config).failure = none)
      (h : ((opening now tree config).tree.makeDirectories config.outputRoot).2 = .error e) :
      Refuses e
  /-- A generated file, or the directory that it should be in. -/
  | file {config : Config} {settings : Settings} {elements : List ModelElement} {job : Job}
      {reached stopped : FileTree} {stored rest : List GeneratedFile} {f : GeneratedFile} {e : FileError}
      (hcomes : ComesTo readers now args env tree config settings elements job reached)
      (hfiles : Job.output config settings elements job = .ok (stored ++ f :: rest))
      (hstored : Passes GeneratedFile.storeIn stored reached stopped)
      (h : (stopped.store f.path.parent f.path.name f.content).2 = .error e) : Refuses e

/-- A command ends with zero if everything that it asks for is done, and otherwise with one and a text
that says what is wrong. -/
structure FollowsExitLaw (outcome : Outcome) : Prop where
  zero : Done readers now args env tree outcome.tree → outcome.ending = .exit 0 ""
  one : ¬Done readers now args env tree outcome.tree →
    ∃ text, Fails readers now args env tree text ∧ outcome.ending = .exit 1 text

variable {readers now args env tree} in
/-- By the law, no command breaks off. -/
theorem FollowsExitLaw.ending_ne_broken {outcome : Outcome}
    (h : FollowsExitLaw readers now args env tree outcome) (e : FileError) :
    outcome.ending ≠ .broken e := by
  intro hbroken
  by_cases hdone : Done readers now args env tree outcome.tree
  · rw [h.zero hdone] at hbroken
    simp at hbroken
  · obtain ⟨text, -, hone⟩ := h.one hdone
    rw [hone] at hbroken
    simp at hbroken

/-! ## The stages of a command -/

variable {readers now args env tree}
variable {config : Config} {settings : Settings}

/-- What a command line asks for is its configuration. -/
theorem configure_of_asks (h : Asks readers args env tree config settings) :
    ∃ env', configure readers.envFiles args env tree = .ok (config, env') ∧
      Settings.ofEnvironment env' = settings := by
  obtain ⟨env', hplan, hsettings⟩ := h.planned
  have hvalid := Config.validate_eq_ok_iff.2 h.valid
  refine ⟨env', ?_, hsettings⟩
  unfold configure
  rw [hplan]
  show (config.validate tree >>= fun _ => .ok (config, env')) = .ok (config, env')
  rw [hvalid]
  rfl

/-- The configuration of a command line is what it asks for. -/
theorem asks_of_configure {env' : Environment}
    (h : configure readers.envFiles args env tree = .ok (config, env')) :
    Asks readers args env tree config (Settings.ofEnvironment env') := by
  obtain ⟨⟨config₁, env₁⟩, hplan, hvalidated⟩ := bind_eq_ok.1 h
  obtain ⟨_, hvalid, hpair⟩ := bind_eq_ok.1 hvalidated
  obtain ⟨rfl, rfl⟩ := Prod.mk.inj (pure_eq_ok.1 hpair)
  exact ⟨⟨_, hplan, rfl⟩, Config.validate_eq_ok_iff.1 hvalid⟩

/-- With its journal and its output directory there, a command is its run and what is logged of it. -/
theorem perform_of_begins (figures : Figures) {env' : Environment} {begun : FileTree}
    (h : Begins now tree config begun) :
    let ran := Session.run readers.sources config (Settings.ofEnvironment env') (platformsOf args config)
      { tree := begun }
    (perform readers.sources now figures args config env' tree).ending = (endOf config ran.2).2 ∧
      ∃ records, (perform readers.sources now figures args config env' tree).tree =
        ((opening now tree config).journal.logAll now ran.1.tree records).2 := by
  have hjournal := h.journal
  have hroot := h.outputRoot
  unfold opening at hjournal hroot ⊢
  simp only [perform, hjournal, hroot, true_and]
  exact ⟨_, rfl⟩

theorem chosenPlatforms_platformsOf (args : Arguments) (config : Config) :
    Session.chosenPlatforms config (platformsOf args config) = platformsOf args config := by
  unfold Session.chosenPlatforms platformsOf
  split <;> rfl

/-- A run that has begun and read its elements does its jobs. -/
theorem inTree_of_reads (args : Arguments) {begun : FileTree} {elements : List ModelElement}
    (hread : Reads readers config begun elements) (settings : Settings) :
    Session.inTree
        (Session.run readers.sources config settings (platformsOf args config) { tree := begun }) =
      inOrder (Job.perform (Job.output config settings elements))
        (Job.ofRun (platformsOf args config) elements) begun := by
  have hrun := Session.run_inTree (s := { tree := begun }) hread settings (platformsOf args config)
  rw [chosenPlatforms_platformsOf] at hrun
  exact hrun

/-! ## The three endings -/

/-- What the command leaves that some arguments ask for. -/
def outcomeOf (readers : Readers) (now : LogMoment) (figures : Figures) (args : Arguments)
    (env : Environment) (tree : FileTree) : Outcome :=
  match configure readers.envFiles args env tree with
  | .error e => ⟨.exit 1 s!"Configuration error: {e.message}\n", [], tree⟩
  | .ok (config, env) => perform readers.sources now figures args config env tree

/-- A command line that can be read is carried out. -/
theorem run_of_parse (readers : Readers) (now : LogMoment) (figures : Figures) {argv : List String}
    {args : Arguments} (hargs : CommandLine.parse argv = .ok args) (env : Environment) (tree : FileTree) :
    run readers now figures argv env tree = .ok (outcomeOf readers now figures args env tree) := by
  unfold run outcomeOf
  rw [hargs]
  rfl

theorem exists_outcomeOf_of_asks (now : LogMoment) (figures : Figures)
    (h : Asks readers args env tree config settings) :
    ∃ env', Settings.ofEnvironment env' = settings ∧
      outcomeOf readers now figures args env tree =
        perform readers.sources now figures args config env' tree := by
  obtain ⟨env', hconfigure, hsettings⟩ := configure_of_asks h
  exact ⟨env', hsettings, by simp only [outcomeOf, hconfigure]⟩

/-- What a command leaves whose run has begun. -/
theorem outcomeOf_of_begins (figures : Figures) {begun : FileTree}
    (hasks : Asks readers args env tree config settings) (hbegins : Begins now tree config begun) :
    let ran := Session.run readers.sources config settings (platformsOf args config) { tree := begun }
    (outcomeOf readers now figures args env tree).ending = (endOf config ran.2).2 ∧
      ∃ records, (outcomeOf readers now figures args env tree).tree =
        ((opening now tree config).journal.logAll now ran.1.tree records).2 := by
  obtain ⟨env', rfl, houtcome⟩ := exists_outcomeOf_of_asks now figures hasks
  rw [houtcome]
  exact perform_of_begins figures hbegins

/-- A job that is not done decides how the command ends. -/
theorem ending_of_comesTo (figures : Figures) {elements : List ModelElement} {job : Job}
    {reached : FileTree} {failure : Failure}
    (hcomes : ComesTo readers now args env tree config settings elements job reached)
    (h : (job.perform (Job.output config settings elements) reached).2 = .error failure) :
    (outcomeOf readers now figures args env tree).ending = (endOf config (.error failure)).2 := by
  obtain ⟨begun, before, after, hbegins, hread, hjobs, hbefore⟩ := hcomes.begins
  have hresult := inOrder_eq_error_iff.2 ⟨before, job, after, reached, hjobs, hbefore, h⟩
  have hran := congrArg Prod.snd (inTree_of_reads args hread settings)
  rw [hresult] at hran
  rw [(outcomeOf_of_begins figures hcomes.asks hbegins).1, show (Session.run ..).2 = _ from hran]

/-- What is done ends with zero. -/
theorem ending_of_done (figures : Figures) {left : FileTree} (h : Done readers now args env tree left) :
    (outcomeOf readers now figures args env tree).ending = .exit 0 "" := by
  obtain ⟨config, settings, begun, elements, outputs, written, hasks, hbegins, hread, houtputs,
    hstored, -, -⟩ := h
  obtain ⟨paths, hpaths⟩ := Job.passes_perform_iff.2 ⟨outputs, houtputs, hstored⟩
  have hran := congrArg Prod.snd (inTree_of_reads args hread settings)
  rw [hpaths] at hran
  rw [(outcomeOf_of_begins figures hasks hbegins).1, show (Session.run ..).2 = _ from hran]
  rfl

/-- What fails ends with one and the text. -/
theorem ending_of_fails (figures : Figures) {text : String} (h : Fails readers now args env tree text) :
    (outcomeOf readers now figures args env tree).ending = .exit 1 text := by
  cases h with
  | configuration h => simp only [outcomeOf, configure_eq_error_iff.2 h]
  | reading hasks hbegins h =>
      rw [(outcomeOf_of_begins figures hasks hbegins).1, Session.run_of_read_error h]
      rfl
  | generating hcomes h =>
      rw [ending_of_comesTo figures hcomes (Job.perform_eq_fault_iff.2 h)]
      rfl

/-- What is refused breaks the command off. -/
theorem ending_of_refuses (figures : Figures) {e : FileError} (h : Refuses readers now args env tree e) :
    (outcomeOf readers now figures args env tree).ending = .broken e := by
  cases h with
  | journal hasks h =>
      obtain ⟨env', -, houtcome⟩ := exists_outcomeOf_of_asks now figures hasks
      unfold opening at h
      rw [houtcome]
      simp only [perform, h]
  | @outputRoot config _ _ hasks hjournal h =>
      obtain ⟨env', -, houtcome⟩ := exists_outcomeOf_of_asks now figures hasks
      unfold opening at hjournal h
      rw [houtcome]
      simp only [perform, hjournal]
      cases hmade : (Journal.closed.openIn now config.logDirectory config.verbose
          tree).tree.makeDirectories config.outputRoot with
      | mk made result =>
          rw [hmade] at h
          simp only at h
          simp only [h]
  | @file _ _ _ _ _ stopped stored rest f _ hcomes hfiles hstored h =>
      have hrefused : (f.storeIn stopped).2 = .error e := map_eq_error.2 h
      have hwrite := inOrder_eq_error_iff.2 ⟨stored, f, rest, stopped, rfl, hstored, hrefused⟩
      rw [ending_of_comesTo figures hcomes (Job.perform_eq_file_iff.2 ⟨_, hfiles, hwrite⟩)]
      rfl

/-- A run that has read its elements does all of its jobs, or comes to one that is not done. -/
theorem done_or_fails_or_refuses_of_reads (figures : Figures) {begun : FileTree}
    {elements : List ModelElement} (hasks : Asks readers args env tree config settings)
    (hbegins : Begins now tree config begun) (hread : Reads readers config begun elements) :
    Done readers now args env tree (outcomeOf readers now figures args env tree).tree ∨
      (∃ text, Fails readers now args env tree text) ∨ ∃ e, Refuses readers now args env tree e := by
  have hran := inTree_of_reads args hread settings
  cases hresult : inOrder (Job.perform (Job.output config settings elements))
      (Job.ofRun (platformsOf args config) elements) begun with
  | mk written result =>
      rw [hresult] at hran
      cases result with
      | ok paths =>
          obtain ⟨outputs, houtputs, hstored⟩ := Job.passes_perform_iff.1 ⟨paths, hresult⟩
          obtain ⟨records, hleft⟩ := (outcomeOf_of_begins figures hasks hbegins).2
          rw [show (Session.run ..).1.tree = _ from congrArg Prod.fst hran] at hleft
          refine .inl ⟨config, settings, begun, elements, outputs, written, hasks, hbegins, hread,
            houtputs, hstored, Job.overwritten_of_passes houtputs hstored, ?_⟩
          intro q hq
          rw [hleft]
          exact Journal.entryAt?_logAll now hq records
      | error failure =>
          obtain ⟨before, job, after, reached, hjobs, hbefore, hjob⟩ :=
            inOrder_eq_error_iff.1 (congrArg Prod.snd hresult)
          have hcomes : ComesTo readers now args env tree config settings elements job reached :=
            ⟨⟨begun, before, after, hbegins, hread, hjobs, hbefore⟩, hasks⟩
          cases failure with
          | fault fault =>
              exact .inr (.inl ⟨_, .generating hcomes (Job.perform_eq_fault_iff.1 hjob)⟩)
          | file e =>
              obtain ⟨files, hfiles, hwrite⟩ := Job.perform_eq_file_iff.1 hjob
              obtain ⟨stored, f, rest, stopped, rfl, hstored, hrefused⟩ :=
                inOrder_eq_error_iff.1 hwrite
              exact .inr (.inr ⟨e, .file hcomes hfiles hstored (map_eq_error.1 hrefused)⟩)

/-- There are no other endings. -/
theorem done_or_fails_or_refuses (readers : Readers) (now : LogMoment) (figures : Figures)
    (args : Arguments) (env : Environment) (tree : FileTree) :
    Done readers now args env tree (outcomeOf readers now figures args env tree).tree ∨
      (∃ text, Fails readers now args env tree text) ∨ ∃ e, Refuses readers now args env tree e := by
  cases hconfigure : configure readers.envFiles args env tree with
  | error e => exact .inr (.inl ⟨_, .configuration (configure_eq_error_iff.1 hconfigure)⟩)
  | ok configured =>
      obtain ⟨config, env'⟩ := configured
      have hasks := asks_of_configure hconfigure
      cases hjournal : (opening now tree config).failure with
      | some e => exact .inr (.inr ⟨e, .journal hasks hjournal⟩)
      | none =>
          cases hmade : (opening now tree config).tree.makeDirectories config.outputRoot with
          | mk begun made =>
              cases made with
              | error e => exact .inr (.inr ⟨e, .outputRoot hasks hjournal (by rw [hmade])⟩)
              | ok _ =>
                  have hbegins : Begins now tree config begun := ⟨hjournal, hmade⟩
                  cases hread : Session.elementsOf readers.sources begun
                      (Discovery.ofInputs begun config.inputs).files with
                  | error fault => exact .inr (.inl ⟨_, .reading hasks hbegins hread⟩)
                  | ok elements =>
                      exact done_or_fails_or_refuses_of_reads figures hasks hbegins hread

/-- A command line that can be read is carried out.  It ends with zero where everything that it asks for is
done, and otherwise with one and a message, if and only if the file system refuses nothing that it needs;
where something is refused, that breaks the command off. -/
theorem run_follows_exit_law_iff (readers : Readers) (now : LogMoment) (figures : Figures)
    {argv : List String} {args : Arguments} (hargs : CommandLine.parse argv = .ok args) (env : Environment)
    (tree : FileTree) :
    ∃ outcome, run readers now figures argv env tree = .ok outcome ∧
      (FollowsExitLaw readers now args env tree outcome ↔ ∀ e, ¬Refuses readers now args env tree e) ∧
        ∀ e, outcome.ending = .broken e ↔ Refuses readers now args env tree e := by
  refine ⟨_, run_of_parse readers now figures hargs env tree, ?_, ?_⟩
  · constructor
    · intro hlaw e hrefuses
      exact hlaw.ending_ne_broken e (ending_of_refuses figures hrefuses)
    · intro hnone
      refine ⟨ending_of_done figures, ?_⟩
      intro hnot
      rcases done_or_fails_or_refuses readers now figures args env tree with
        hdone | ⟨text, hfails⟩ | ⟨e, hrefuses⟩
      · exact absurd hdone hnot
      · exact ⟨text, hfails, ending_of_fails figures hfails⟩
      · exact absurd hrefuses (hnone e)
  · intro e
    refine ⟨?_, ending_of_refuses figures⟩
    intro hbroken
    rcases done_or_fails_or_refuses readers now figures args env tree with
      hdone | ⟨text, hfails⟩ | ⟨e', hrefuses⟩
    · rw [ending_of_done figures hdone] at hbroken
      simp at hbroken
    · rw [ending_of_fails figures hfails] at hbroken
      simp at hbroken
    · rw [ending_of_refuses figures hrefuses] at hbroken
      rw [← Ending.broken.inj hbroken]
      exact hrefuses

/-! A directory without source files, and a file where the output directory should be. -/

private def someMoment : LogMoment := ⟨"20240101_000000", "2024-01-01 00:00:00"⟩

private def someFigures : Figures := ⟨0, 0⟩

private def unlogged : Environment := Registry.ofList [("CODEGEN_ENABLE_FILE_LOG", "false")]

private def emptyFolder : FileTree := ⟨[], [(⟨1, ["m"]⟩, .directory)]⟩

theorem run_follows_exit_law_empty_folder :
    CommandLine.parse ["m", "--all-platforms"] =
        .ok { inputs := [⟨0, ["m"]⟩], allPlatforms := true } ∧
      ∃ outcome, run .builtIn someMoment someFigures ["m", "--all-platforms"] unlogged emptyFolder =
          .ok outcome ∧ outcome.ending = .exit 0 "" ∧
        FollowsExitLaw .builtIn someMoment { inputs := [⟨0, ["m"]⟩], allPlatforms := true } unlogged
          emptyFolder outcome := by
  have hargs : CommandLine.parse ["m", "--all-platforms"] =
      .ok { inputs := [⟨0, ["m"]⟩], allPlatforms := true } := by
    decide +kernel
  have hending : (run .builtIn someMoment someFigures ["m", "--all-platforms"] unlogged emptyFolder).map
      (·.ending) = .ok (.exit 0 "") := by
    decide +kernel
  obtain ⟨outcome, hrun, hlaw, hbroken⟩ :=
    run_follows_exit_law_iff .builtIn someMoment someFigures hargs unlogged emptyFolder
  obtain ⟨_, hsame, hzero⟩ := map_eq_ok.1 hending
  obtain rfl := Except.ok.inj (hrun.symm.trans hsame)
  refine ⟨hargs, outcome, hrun, hzero, hlaw.2 ?_⟩
  intro e hrefuses
  rw [(hbroken e).2 hrefuses] at hzero
  simp at hzero

private def blockedOutput : FileTree :=
  ⟨[], [(⟨1, ["m.cs"]⟩, .file (Text.Utf8.encode
      "namespace Microsoft.StandardUI\x7binterface IA\x7b\x7d\x7d".toList)),
    (⟨1, ["src"]⟩, .file (Text.Utf8.encode ['x']))]⟩

theorem run_breaks_off_at_blocked_output :
    CommandLine.parse ["m.cs"] = .ok { inputs := [⟨0, ["m.cs"]⟩] } ∧
      ∃ outcome, run .builtIn someMoment someFigures ["m.cs"] unlogged blockedOutput = .ok outcome ∧
        outcome.ending = .broken (.alreadyExists ⟨0, ["src"]⟩) ∧
          ¬FollowsExitLaw .builtIn someMoment { inputs := [⟨0, ["m.cs"]⟩] } unlogged blockedOutput
            outcome := by
  have hending : (run .builtIn someMoment someFigures ["m.cs"] unlogged blockedOutput).map (·.ending) =
      .ok (.broken (.alreadyExists ⟨0, ["src"]⟩)) := by
    decide +kernel
  obtain ⟨outcome, hrun, hbroken⟩ := map_eq_ok.1 hending
  exact ⟨by decide +kernel, outcome, hrun, hbroken, fun hlaw => hlaw.ending_ne_broken _ hbroken⟩

end Command

end PlatformClasses
