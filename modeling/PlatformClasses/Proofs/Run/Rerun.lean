import PlatformClasses.Proofs.Run.Discovery
import PlatformClasses.Proofs.Run.Outputs

/-!
# Running again

What a run has written stands where the run wrote it, so that the next run can write it there again and
nothing changes: a tree that `Holds` some files takes them again.
-/

namespace PlatformClasses

namespace FileTree

/-- A file stands wherever one of the given files goes. -/
structure Holds (t : FileTree) (files : List GeneratedFile) : Prop where
  reached : ∀ f ∈ files, t.Reaches f.path
  standing : ∀ f ∈ files, ∃ bytes, t.entryAt? (place t.here f.path) = some (.file bytes)
  free : ∀ f ∈ files, f.path.hasNull = false
  named : ∀ f ∈ files, f.path.EndsInName

/-- What was stored stands where it was stored. -/
theorem Overwritten.holds {t t' : FileTree} {files : List GeneratedFile}
    (h : Overwritten t files t') (hnamed : ∀ f ∈ files, f.path.EndsInName) : t'.Holds files where
  reached := h.reached
  standing f hf := by
    obtain ⟨g, hg⟩ : ∃ g, lastAt? t.here files (place t.here f.path) = some g :=
      exists_lastAt?_of_mem hf
    rw [h.here]
    exact ⟨g.bytes, h.written _ g hg⟩
  free := h.free
  named := hnamed

theorem Holds.sublist {t : FileTree} {files more : List GeneratedFile} (h : t.Holds more)
    (hsub : ∀ f ∈ files, f ∈ more) : t.Holds files where
  reached f hf := h.reached f (hsub f hf)
  standing f hf := h.standing f (hsub f hf)
  free f hf := h.free f (hsub f hf)
  named f hf := h.named f (hsub f hf)

/-- Replacing a file leaves directories and files what they are. -/
theorem Holds.put {t : FileTree} {files : List GeneratedFile} (h : t.Holds files) {q : Path}
    {old : List UInt8} (hq : t.entryAt? q = some (.file old)) (new : List UInt8) :
    (t.put q (.file new)).Holds files where
  reached f hf := by
    refine (h.reached f hf).mono (here_put t q _) ?_
    intro r hr
    have hne : r ≠ q := by
      rintro rfl
      rw [hq] at hr
      simp at hr
    rw [entryAt?_put_of_ne t hne]
    exact hr
  standing f hf := by
    rw [here_put]
    by_cases hplace : place t.here f.path = q
    · have hinside : isOnWayHere t.here q = false := by
        apply isOnWayHere_eq_false_of_entryAt?
        rw [hq]
        simp
      rw [hplace]
      exact ⟨new, entryAt?_put_self t hinside _⟩
    · rw [entryAt?_put_of_ne t hplace]
      exact h.standing f hf
  free := h.free
  named := h.named

/-! ## Storing a file that stands there -/

/-- Making a directory that is there changes nothing. -/
theorem makeDirectories_of_isDirectory {t : FileTree} {p : Path} (hnull : p.hasNull = false)
    (h : t.isDirectory p = true) : t.makeDirectories p = (t, .ok ()) := by
  obtain ⟨a, cs⟩ := p
  obtain ⟨hreach, hentry⟩ := isDirectory_iff.1 h
  have hplace : t.placeOf ⟨a, cs⟩ = .ok (place t.here ⟨a, cs⟩) :=
    (placeOf_eq_ok_iff t _ _).2 ⟨hreach, rfl⟩
  have hmake : t.makeDirectory ⟨a, cs⟩ = .error (.alreadyExists ⟨a, cs⟩) := by
    simp [makeDirectory, hplace, hentry, bind, Except.bind]
  rw [makeDirectories, hnull]
  show makeDirectoriesFrom a cs.reverse t = (t, .ok ())
  cases hcs : cs.reverse with
  | nil => rfl
  | cons last above =>
      have hback : (last :: above).reverse = cs := by rw [← hcs, List.reverse_reverse]
      simp only [makeDirectoriesFrom, hback, hmake, ensureDirectory, h, if_true]

/-- A file that can be reached lies in a directory. -/
theorem isDirectory_parent {t : FileTree} {p : Path} (hreach : t.Reaches p) {bytes : List UInt8}
    (hentry : t.entryAt? (place t.here p) = some (.file bytes)) : t.isDirectory p.parent = true := by
  obtain ⟨a, cs⟩ := p
  induction cs using List.reverseRecOn with
  | nil =>
      have horigin : t.entryAt? (place t.here ⟨a, []⟩) = some .directory := entryAt?_origin t a
      rw [horigin] at hentry
      simp at hentry
  | append_singleton cs c _ =>
      have hparent : Path.parent ⟨a, cs ++ [c]⟩ = ⟨a, cs⟩ := by simp [Path.parent]
      obtain ⟨hinit, hlast, -⟩ := (leads_append t cs [c] (origin t.here a)).1 hreach
      rw [hparent]
      exact isDirectory_iff.2 ⟨hinit, hlast⟩

/-- A file that stands where another goes is replaced by it, and nothing else happens. -/
theorem store_of_file {t : FileTree} {f : GeneratedFile} (hreach : t.Reaches f.path)
    {bytes : List UInt8} (hentry : t.entryAt? (place t.here f.path) = some (.file bytes))
    (hnull : f.path.hasNull = false) (hnamed : f.path.EndsInName) :
    t.store f.path.parent f.path.name f.content =
      (t.put (place t.here f.path) (.file f.bytes), .ok f.path) := by
  have hplace : t.placeOf f.path = .ok (place t.here f.path) := (placeOf_eq_ok_iff t _ _).2 ⟨hreach, rfl⟩
  have hwrite : t.write f.path f.content = .ok (t.put (place t.here f.path) (.file f.bytes)) := by
    rw [write, hnull]
    simp only [hplace, hentry, bind, Except.bind]
    rfl
  have hpath : f.path.parent.join f.path.name = f.path := hnamed
  have hmade := makeDirectories_of_isDirectory (Path.hasNull_parent hnull)
    (isDirectory_parent hreach hentry)
  simp only [store, hmade, hpath, hwrite]

/-- Storing the same files once more changes nothing. -/
theorem Overwritten.again {t t' t'' : FileTree} {files : List GeneratedFile}
    (h : Overwritten t files t') (h' : Overwritten t' files t'') (q : Path) :
    t''.entryAt? q = t'.entryAt? q := by
  have hwritten := h'.written q
  have hkept := h'.kept q
  have habsent := h'.absent q
  rw [h.here] at hwritten hkept habsent
  cases hlast : lastAt? t.here files q with
  | some f => rw [h.written q f hlast, hwritten f hlast]
  | none =>
      cases hentry : t'.entryAt? q with
      | some entry => exact hkept entry hlast hentry
      | none =>
          -- the directories on the way to the files have been made already
          refine habsent hlast hentry fun hway => ?_
          cases hold : t.entryAt? q with
          | some entry =>
              rw [h.kept q entry hlast hold] at hentry
              simp at hentry
          | none =>
              rw [h.made q hlast hold hway] at hentry
              simp at hentry

end FileTree

namespace Session

/-! ## Writing files that stand already -/

/-- Files that stand where they go are written again, and everything else stays. -/
theorem writeFiles_of_holds {tree : FileTree} {files : List GeneratedFile} (h : tree.Holds files) :
    (writeFiles tree files).2 = .ok (files.map (·.path)) ∧
      ∀ more, tree.Holds more → (writeFiles tree files).1.Holds more := by
  induction files generalizing tree with
  | nil => exact ⟨rfl, fun more hmore => hmore⟩
  | cons f rest ih =>
      obtain ⟨bytes, hentry⟩ := h.standing f List.mem_cons_self
      have hstore := FileTree.store_of_file (h.reached f List.mem_cons_self) hentry
        (h.free f List.mem_cons_self) (h.named f List.mem_cons_self)
      have hrest : tree.Holds rest := h.sublist fun g hg => List.mem_cons_of_mem f hg
      obtain ⟨hpaths, hkept⟩ := ih (hrest.put hentry f.bytes)
      unfold writeFiles
      rw [hstore]
      refine ⟨?_, fun more hmore => hkept more (hmore.put hentry f.bytes)⟩
      simp only [hpaths]
      rfl

theorem generateFiles_of_holds {t : Target} {e : ModelElement} {tree : FileTree}
    {files : List GeneratedFile} (hfiles : generate t e = .ok files) (h : tree.Holds files) :
    (generateFiles t e tree).2 = .ok (files.map (·.path)) ∧
      ∀ more, tree.Holds more → (generateFiles t e tree).1.Holds more := by
  obtain ⟨hpaths, hkept⟩ := writeFiles_of_holds h
  unfold generateFiles
  rw [hfiles]
  refine ⟨?_, hkept⟩
  simp only [hpaths]

theorem generateElement_of_holds {t : Target} {e : ModelElement} {s : Session}
    {files : List GeneratedFile} (hfiles : generate t e = .ok files) (h : s.tree.Holds files) :
    (generateElement t e s).2 = .ok (files.map (·.path)) ∧
      ∀ more, s.tree.Holds more → (generateElement t e s).1.tree.Holds more := by
  obtain ⟨hpaths, hkept⟩ := generateFiles_of_holds hfiles h
  have htree : (s.step (Progress.enterDeclaration e.declaration.name)).tree = s.tree := rfl
  unfold generateElement
  simp only [htree]
  cases hresult : generateFiles t e s.tree with
  | mk tree result =>
      rw [hresult] at hpaths hkept
      obtain rfl : result = .ok (files.map (·.path)) := hpaths
      exact ⟨rfl, hkept⟩

/-- Elements whose files stand where they go are generated again, and everything else stays. -/
theorem generateElements_of_holds {t : Target} {elements : List ModelElement} {s : Session}
    (hfiles : ∀ e ∈ elements, ∃ files, generate t e = .ok files)
    (h : s.tree.Holds (elements.flatMap (filesOf t))) :
    (generateElements t elements s).2 = .ok ((elements.flatMap (filesOf t)).map (·.path)) ∧
      ∀ more, s.tree.Holds more → (generateElements t elements s).1.tree.Holds more := by
  induction elements generalizing s with
  | nil => exact ⟨rfl, fun more hmore => hmore⟩
  | cons e rest ih =>
      obtain ⟨files, he⟩ := hfiles e List.mem_cons_self
      have hof : filesOf t e = files := filesOf_of_ok he
      rw [List.flatMap_cons, hof] at h
      obtain ⟨hpaths, hkept⟩ :=
        generateElement_of_holds he (h.sublist fun f hf => List.mem_append_left _ hf)
      have hrest := hkept _ (h.sublist fun f hf => List.mem_append_right files hf)
      unfold generateElements
      rw [List.flatMap_cons, hof, List.map_append]
      cases hfirst : generateElement t e s with
      | mk s₁ result =>
          rw [hfirst] at hpaths hkept hrest
          obtain rfl : result = .ok (files.map (·.path)) := hpaths
          obtain ⟨hpaths', hkept'⟩ := ih (fun e' he' => hfiles e' (List.mem_cons_of_mem e he')) hrest
          simp only [hpaths']
          exact ⟨rfl, fun more hmore => hkept' more (hkept more hmore)⟩

/-- A run for platforms succeeds if its files stand already. -/
theorem generatePlatforms_of_holds {config : Config} {settings : Settings}
    {elements : List ModelElement} {platforms : List String} {s : Session}
    (hgenerates : ∀ platform ∈ platforms, Generates config settings elements platform)
    (h : s.tree.Holds (runFiles config settings elements platforms)) :
    (generatePlatforms config settings elements platforms s).2 =
      .ok ((runFiles config settings elements platforms).map (·.path)) := by
  induction platforms generalizing s with
  | nil => rfl
  | cons platform rest ih =>
      obtain ⟨t, ht, hfiles⟩ := hgenerates platform List.mem_cons_self
      have hof := platformFiles_of_target ht
      rw [runFiles, List.flatMap_cons, hof] at h
      obtain ⟨hpaths, hkept⟩ :=
        generateElements_of_holds (s := s.record [.generating elements.length t.platform.name]) hfiles
          (h.sublist fun f hf => List.mem_append_left _ hf)
      have hrest := hkept _ (h.sublist fun f hf => List.mem_append_right (elements.flatMap _) hf)
      unfold generatePlatforms
      rw [runFiles, List.flatMap_cons, hof, List.map_append]
      simp only [ht]
      cases hfirst : generateElements t elements
          (s.record [.generating elements.length t.platform.name]) with
      | mk s₁ result =>
          rw [hfirst] at hpaths hrest
          obtain rfl : result = .ok ((elements.flatMap (filesOf t)).map (·.path)) := hpaths
          have hpaths' := ih (fun p hp => hgenerates p (List.mem_cons_of_mem platform hp)) hrest
          simp only [hpaths']
          rfl

end Session

/-! ## The paths of a run -/

theorem Target.isSound_pathOf {t : Target} (ht : t.outputRoot.IsSound) {nameSpace className : String}
    {p : Path} (h : t.pathOf nameSpace className = .ok p) : p.IsSound := by
  have hin : ∀ project rest, (t.directoryIn project rest).IsSound := by
    intro project rest
    unfold directoryIn
    generalize (Text.pieces '.' rest).filter (· != "") = steps
    have hstart : ((t.outputRoot.join project).join t.generatedDirectory).IsSound :=
      (ht.join project).join t.generatedDirectory
    generalize (t.outputRoot.join project).join t.generatedDirectory = start at hstart
    induction steps generalizing start with
    | nil => exact hstart
    | cons step rest ih => exact ih _ (hstart.join step)
  obtain ⟨directory, hdirectory, rfl⟩ := map_eq_ok.1 h
  refine Path.IsSound.join ?_ _
  unfold directoryOf at hdirectory
  split at hdirectory
  · rw [← Except.ok.inj hdirectory]
    exact hin _ _
  · split at hdirectory
    · rw [← Except.ok.inj hdirectory]
      exact hin _ _
    · simp at hdirectory

/-- A file of a run belongs to one of its elements and one of its platforms. -/
theorem exists_of_mem_runFiles {config : Config} {settings : Settings}
    {elements : List ModelElement} {platforms : List String} {f : GeneratedFile}
    (hf : f ∈ runFiles config settings elements platforms) :
    ∃ platform ∈ platforms, ∃ t, config.target settings elements platform = .ok t ∧
      ∃ e ∈ elements, ∃ files, generate t e = .ok files ∧ f ∈ files := by
  obtain ⟨platform, hplatform, hf⟩ := List.mem_flatMap.1 hf
  unfold platformFiles at hf
  split at hf
  · next t ht =>
    obtain ⟨e, he, hf⟩ := List.mem_flatMap.1 hf
    cases hfiles : generate t e with
    | error fault =>
        have hnone : filesOf t e = [] := by rw [filesOf, hfiles]; rfl
        rw [hnone] at hf
        simp at hf
    | ok files =>
        rw [filesOf_of_ok hfiles] at hf
        exact ⟨platform, hplatform, t, ht, e, he, files, hfiles, hf⟩
  · simp at hf

/-- The files of a run have sound paths. -/
theorem isSound_of_mem_runFiles {config : Config} (hconfig : config.outputRoot.IsSound)
    {settings : Settings} {elements : List ModelElement} {platforms : List String}
    {f : GeneratedFile} (hf : f ∈ runFiles config settings elements platforms) :
    f.path.IsSound := by
  obtain ⟨platform, -, t, ht, e, -, files, hfiles, hmem⟩ := exists_of_mem_runFiles hf
  rw [Config.target_eq_map] at ht
  obtain ⟨p, -, rfl⟩ := map_eq_ok.1 ht
  obtain ⟨names, -, hpaths⟩ := ClassSet.generate_paths hfiles
  obtain ⟨d, -, hpath⟩ := (ClassSet.mem_paths_iff hpaths f.path).1 (List.mem_map_of_mem hmem)
  exact Target.isSound_pathOf hconfig hpath

theorem endsInName_of_mem_runFiles {config : Config} {settings : Settings}
    {elements : List ModelElement} {platforms : List String} {f : GeneratedFile}
    (hf : f ∈ runFiles config settings elements platforms) : f.path.EndsInName := by
  obtain ⟨platform, -, t, ht, e, -, files, hfiles, hmem⟩ := exists_of_mem_runFiles hf
  exact ClassSet.endsInName_of_generate (Config.followsMarker_of_target ht) hfiles hmem

/-! ## The second run -/

/-- A file that declares no interfaces, wherever it is read from. -/
def GeneratedFile.IsSilent (reader : SourceReader) (f : GeneratedFile) : Prop :=
  ∀ (tree : FileTree) (path : Path), tree.read path = .ok f.bytes →
    SourceFile.elements reader tree path = .ok []

namespace Session

/-- A run repeats itself on the tree it leaves if what it has written is silent where the inputs find it,
and has not replaced a file that declares something. -/
theorem run_again_of_silent {reader : SourceReader} {config : Config} {settings : Settings}
    {platforms : List String} {s again : Session} {elements : List ModelElement} {paths : List Path}
    (htree : s.tree.IsProper) (hroot : config.outputRoot.IsSound)
    (hinputs : Discovery.AreSettled s.tree config.inputs)
    (hread : elementsOf reader s.tree (Discovery.ofInputs s.tree config.inputs).files = .ok elements)
    (h : (run reader config settings platforms s).2 = .ok paths)
    (hagain : again.tree = (run reader config settings platforms s).1.tree)
    (hsilent : ∀ p ∈ (Discovery.ofInputs again.tree config.inputs).files, ∀ f,
      FileTree.lastAt? s.tree.here (runFiles config settings elements (chosenPlatforms config platforms))
        (FileTree.place s.tree.here p) = some f → f.IsSilent reader)
    (hreplaced : ∀ p ∈ (Discovery.ofInputs s.tree config.inputs).files, ∀ f,
      FileTree.lastAt? s.tree.here (runFiles config settings elements (chosenPlatforms config platforms))
        (FileTree.place s.tree.here p) = some f → SourceFile.elements reader s.tree p = .ok []) :
    (run reader config settings platforms again).2 = .ok paths ∧
      ∀ p, (run reader config settings platforms again).1.tree.lookup? p = again.tree.lookup? p := by
  have hwrites := writes_of_run hread h
  have hplaces := hwrites.places
  have hsound : ∀ f ∈ runFiles config settings elements (chosenPlatforms config platforms),
      f.path.IsSound := fun f hf => isSound_of_mem_runFiles hroot hf
  have hproper := htree.overwrite hsound
  rw [← hwrites.tree, ← hagain] at hproper
  rw [← hagain] at hplaces
  have hread' : elementsOf reader again.tree (Discovery.ofInputs again.tree config.inputs).files =
      .ok elements :=
    elementsOf_overwritten hplaces htree hproper hinputs hread
      (fun p hp f hlast hbytes => hsilent p hp f hlast again.tree p hbytes) hreplaced
  have hholds := hplaces.holds fun f hf => endsInName_of_mem_runFiles hf
  have hresult : (run reader config settings platforms again).2 = .ok paths := by
    rw [result_of_read_ok hread', hwrites.paths]
    exact generatePlatforms_of_holds hwrites.generates hholds
  have hwrites' := writes_of_run hread' hresult
  exact ⟨hresult, FileTree.lookup?_congr hwrites'.places.here (hplaces.again hwrites'.places)⟩

end Session

end PlatformClasses
