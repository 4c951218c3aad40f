import Mathlib.Data.List.Induction
import Mathlib.Data.List.Sort
import PlatformClasses.Proofs.FileTree.Listing
import PlatformClasses.Proofs.Run.FailFast

/-!
# Discovering files again

The files of a discovery stand in path order, each once.  So which files there are already says in which
order they are read, and files that declare no interfaces may come or go without a change to what is read
(`elementsOf_ordered`).

Files that are stored can be found among the inputs afterwards.  All that was found before is found again,
and whatever is new has been stored (`mem_found_cases`).
-/

namespace PlatformClasses

namespace Discovery

/-- Order of paths by their keys. -/
def Before (p q : Path) : Prop := p.key < q.key

instance : Std.Irrefl Before := ⟨fun p => lt_irrefl p.key⟩

instance : Std.Antisymm Before := ⟨fun _ _ h h' => absurd h' (lt_asymm h)⟩

theorem mem_of_mem_insertPath {p q : Path} {paths : List Path} (h : q ∈ insertPath p paths) :
    q = p ∨ q ∈ paths := by
  induction paths with
  | nil => exact .inl (by simpa [insertPath] using h)
  | cons r rest ih =>
      unfold insertPath at h
      split at h
      · simpa using h
      · exact .inr h
      · rcases List.mem_cons.1 h with rfl | h
        · exact .inr List.mem_cons_self
        · exact (ih h).imp_right (List.mem_cons_of_mem r)

theorem mem_insertPath_of_mem {p q : Path} {paths : List Path} (h : q ∈ paths) :
    q ∈ insertPath p paths := by
  induction paths with
  | nil => simp at h
  | cons r rest ih =>
      unfold insertPath
      split
      · exact List.mem_cons_of_mem p h
      · exact h
      · rcases List.mem_cons.1 h with rfl | h
        · exact List.mem_cons_self
        · exact List.mem_cons_of_mem r (ih h)

/-- A path that is inserted is there. -/
theorem mem_insertPath_self {p : Path} {paths : List Path} (hp : p.IsSound)
    (hpaths : ∀ q ∈ paths, q.IsSound) : p ∈ insertPath p paths := by
  induction paths with
  | nil => simp [insertPath]
  | cons r rest ih =>
      unfold insertPath
      split
      · exact List.mem_cons_self
      · next h =>
        have hkey : p.key = r.key := (Path.compare_compares p r).eq_eq.1 h
        rw [Path.eq_of_key_eq hp (hpaths r List.mem_cons_self) hkey]
        exact List.mem_cons_self
      · exact List.mem_cons_of_mem r (ih fun q hq => hpaths q (List.mem_cons_of_mem r hq))

/-- Inserting keeps the strict order. -/
theorem pairwise_insertPath (p : Path) {paths : List Path} (h : paths.Pairwise Before) :
    (insertPath p paths).Pairwise Before := by
  induction paths with
  | nil => exact List.pairwise_singleton _ _
  | cons r rest ih =>
      obtain ⟨hr, hrest⟩ := List.pairwise_cons.1 h
      unfold insertPath
      split
      · next hlt =>
        have hfirst : Before p r := (Path.compare_compares p r).eq_lt.1 hlt
        refine List.pairwise_cons.2 ⟨?_, h⟩
        intro q hq
        rcases List.mem_cons.1 hq with rfl | hq
        · exact hfirst
        · exact lt_trans hfirst (hr q hq)
      · exact h
      · next hgt =>
        have hfirst : Before r p := (Path.compare_compares p r).eq_gt.1 hgt
        refine List.pairwise_cons.2 ⟨?_, ih hrest⟩
        intro q hq
        rcases mem_of_mem_insertPath hq with rfl | hq
        · exact hfirst
        · exact hr q hq

theorem ordered_append_singleton (paths : List Path) (p : Path) :
    ordered (paths ++ [p]) = insertPath p (ordered paths) := by
  simp [ordered, List.foldl_append]

/-- The ordered paths are in order. -/
theorem pairwise_ordered (paths : List Path) : (ordered paths).Pairwise Before := by
  induction paths using List.reverseRecOn with
  | nil => exact List.Pairwise.nil
  | append_singleton paths p ih =>
      rw [ordered_append_singleton]
      exact pairwise_insertPath p ih

theorem mem_of_mem_ordered {paths : List Path} {q : Path} (h : q ∈ ordered paths) : q ∈ paths := by
  induction paths using List.reverseRecOn with
  | nil => simp [ordered] at h
  | append_singleton paths p ih =>
      rw [ordered_append_singleton] at h
      rcases mem_of_mem_insertPath h with rfl | h
      · simp
      · exact List.mem_append_left _ (ih h)

/-- The ordered paths are those that were given. -/
theorem mem_ordered_iff {paths : List Path} (h : ∀ p ∈ paths, p.IsSound) {q : Path} :
    q ∈ ordered paths ↔ q ∈ paths := by
  refine ⟨mem_of_mem_ordered, ?_⟩
  induction paths using List.reverseRecOn with
  | nil => simp
  | append_singleton paths p ih =>
      have hpaths : ∀ q ∈ paths, q.IsSound := fun q hq => h q (List.mem_append_left _ hq)
      have hsound : ∀ q ∈ ordered paths, q.IsSound := fun q hq => hpaths q (mem_of_mem_ordered hq)
      intro hq
      rw [ordered_append_singleton]
      rcases List.mem_append.1 hq with hq | hq
      · exact mem_insertPath_of_mem (ih hpaths hq)
      · rw [List.mem_singleton.1 hq]
        exact mem_insertPath_self (h p (by simp)) hsound

end Discovery

namespace Session

variable {reader : SourceReader}

/-- Reading goes through the files one after the other. -/
theorem elementsOf_eq_ok_iff_flatMap {tree : FileTree} {files : List Path}
    {elements : List ModelElement} :
    elementsOf reader tree files = .ok elements ↔
      (∀ p ∈ files, ∃ part, SourceFile.elements reader tree p = .ok part) ∧
        elements = files.flatMap fun p => (SourceFile.elements reader tree p).toOption.getD [] := by
  induction files generalizing elements with
  | nil => simp [elementsOf, eq_comm]
  | cons p rest ih =>
      unfold elementsOf
      cases hp : SourceFile.elements reader tree p with
      | error fault => simp [hp]
      | ok part =>
          have hpart : (Except.ok part : Except Fault (List ModelElement)).toOption.getD [] = part :=
            rfl
          simp only [map_eq_ok, ih, List.forall_mem_cons, hp, Except.ok.injEq, exists_eq', true_and,
            List.flatMap_cons, hpart]
          constructor
          · rintro ⟨more, ⟨hrest, rfl⟩, rfl⟩
            exact ⟨hrest, rfl⟩
          · rintro ⟨hrest, rfl⟩
            exact ⟨_, ⟨hrest, rfl⟩, rfl⟩

/-- What gives nothing may be left out. -/
theorem flatMap_filter_of_nil {α β : Type} {keeps : α → Bool} {f : α → List β} {l : List α}
    (h : ∀ a ∈ l, keeps a = false → f a = []) : (l.filter keeps).flatMap f = l.flatMap f := by
  induction l with
  | nil => rfl
  | cons a rest ih =>
      have hrest := ih fun b hb => h b (List.mem_cons_of_mem a hb)
      cases ha : keeps a with
      | true => rw [List.filter_cons_of_pos ha, List.flatMap_cons, List.flatMap_cons, hrest]
      | false =>
          rw [List.filter_cons_of_neg (by simp [ha]), List.flatMap_cons, hrest,
            h a List.mem_cons_self ha, List.nil_append]

/-- Files that declare nothing do not change what is read, wherever they stand among the others. -/
theorem elementsOf_ordered {tree tree' : FileTree} {paths paths' : List Path}
    {elements : List ModelElement} (hpaths : ∀ p ∈ paths', p.IsSound) (hsub : ∀ p ∈ paths, p ∈ paths')
    (hread : elementsOf reader tree (Discovery.ordered paths) = .ok elements)
    (hsame : ∀ p ∈ paths, SourceFile.elements reader tree' p = SourceFile.elements reader tree p)
    (hnew : ∀ p ∈ paths', p ∉ paths → SourceFile.elements reader tree' p = .ok []) :
    elementsOf reader tree' (Discovery.ordered paths') = .ok elements := by
  have hmem : ∀ p, p ∈ Discovery.ordered paths ↔ p ∈ paths := fun p =>
    Discovery.mem_ordered_iff fun q hq => hpaths q (hsub q hq)
  have hmem' : ∀ p, p ∈ Discovery.ordered paths' ↔ p ∈ paths' := fun p =>
    Discovery.mem_ordered_iff hpaths
  obtain ⟨hok, rfl⟩ := elementsOf_eq_ok_iff_flatMap.1 hread
  refine elementsOf_eq_ok_iff_flatMap.2 ⟨?_, ?_⟩
  · intro p hp
    by_cases hold : p ∈ paths
    · rw [hsame p hold]
      exact hok p ((hmem p).2 hold)
    · exact ⟨[], hnew p ((hmem' p).1 hp) hold⟩
  · -- both lists are in order, so the old files are the new ones without those that have come
    have hfilter : Discovery.ordered paths = (Discovery.ordered paths').filter (· ∈ paths) := by
      refine (Discovery.pairwise_ordered paths).eq_of_mem_iff
        ((Discovery.pairwise_ordered paths').filter _) fun p => ?_
      rw [List.mem_filter, hmem, hmem', decide_eq_true_eq]
      exact ⟨fun hp => ⟨hsub p hp, hp⟩, fun hp => hp.2⟩
    have hold : ((Discovery.ordered paths').filter (· ∈ paths)).flatMap
          (fun p => (SourceFile.elements reader tree p).toOption.getD []) =
        ((Discovery.ordered paths').filter (· ∈ paths)).flatMap
          (fun p => (SourceFile.elements reader tree' p).toOption.getD []) := by
      refine List.flatMap_congr fun p hp => ?_
      rw [hsame p (by simpa using (List.mem_filter.1 hp).2)]
    rw [hfilter, hold]
    refine flatMap_filter_of_nil fun p hp hgone => ?_
    rw [hnew p ((hmem' p).1 hp) (by simpa using hgone)]
    rfl

end Session

/-! ## Reading after files have been stored -/

namespace FileTree

/-- What is read stands at a place that can be reached. -/
theorem read_eq_ok_iff {t : FileTree} {p : Path} {bytes : List UInt8} :
    t.read p = .ok bytes ↔ t.Reaches p ∧ t.entryAt? (place t.here p) = some (.file bytes) := by
  refine ⟨fun h => ?_, fun h => read_eq_ok h.1 h.2⟩
  obtain ⟨top, htop, h⟩ := bind_eq_ok.1 h
  obtain ⟨hreach, rfl⟩ := (placeOf_eq_ok_iff t p top).1 htop
  split at h
  · next bytes' hentry =>
    obtain rfl := Except.ok.inj h
    exact ⟨hreach, hentry⟩
  · simp at h
  · simp at h

/-- A directory stands at a place that can be reached. -/
theorem isDirectory_iff {t : FileTree} {p : Path} :
    t.isDirectory p = true ↔ t.Reaches p ∧ t.entryAt? (place t.here p) = some .directory := by
  refine ⟨isDirectory_eq_true, fun h => ?_⟩
  have hplace : t.placeOf p = .ok (place t.here p) := (placeOf_eq_ok_iff t p _).2 ⟨h.1, rfl⟩
  simp [isDirectory, lookup?, hplace, h.2]

theorem contains_iff {t : FileTree} {p : Path} :
    t.contains p = true ↔ t.Reaches p ∧ ∃ entry, t.entryAt? (place t.here p) = some entry := by
  unfold contains lookup?
  cases hplace : t.placeOf p with
  | error e =>
      have hreach : ¬t.Reaches p := by
        intro h
        rw [(placeOf_eq_ok_iff t p _).2 ⟨h, rfl⟩] at hplace
        simp at hplace
      simp [hreach]
  | ok top =>
      obtain ⟨hreach, rfl⟩ := (placeOf_eq_ok_iff t p _).1 hplace
      simp [hreach, Option.isSome_iff_exists]

namespace Overwritten

variable {t t' : FileTree} {files : List GeneratedFile}

/-- A file afterwards was there before, or is the last one that was stored at its place. -/
theorem file_cases (h : Overwritten t files t') {q : Path} {bytes : List UInt8}
    (hq : t'.entryAt? q = some (.file bytes)) :
    (lastAt? t.here files q = none ∧ t.entryAt? q = some (.file bytes)) ∨
      ∃ f, lastAt? t.here files q = some f ∧ bytes = f.bytes := by
  cases hlast : lastAt? t.here files q with
  | some f =>
      have hstored := h.written q f hlast
      rw [hq] at hstored
      exact .inr ⟨f, rfl, by simpa using hstored⟩
  | none =>
      refine .inl ⟨rfl, ?_⟩
      cases hold : t.entryAt? q with
      | some entry =>
          have hkept := h.kept q entry hlast hold
          rw [hq] at hkept
          exact hkept.symm
      | none =>
          exfalso
          by_cases hway : ∃ f ∈ files, OnWay t.here f.path.parent q
          · have hmade := h.made q hlast hold hway
            rw [hq] at hmade
            simp at hmade
          · have habsent := h.absent q hlast hold hway
            rw [hq] at habsent
            simp at habsent

/-- Storing files removes none. -/
theorem exists_file (h : Overwritten t files t') {q : Path} {bytes : List UInt8}
    (hq : t.entryAt? q = some (.file bytes)) : ∃ bytes', t'.entryAt? q = some (.file bytes') := by
  cases hlast : lastAt? t.here files q with
  | some f => exact ⟨f.bytes, h.written q f hlast⟩
  | none => exact ⟨bytes, h.kept q _ hlast hq⟩

/-- Storing files removes no directory. -/
theorem isDirectory (h : Overwritten t files t') {p : Path} (hp : t.isDirectory p = true) :
    t'.isDirectory p = true := by
  obtain ⟨hreach, hentry⟩ := isDirectory_iff.1 hp
  exact isDirectory_iff.2 ⟨hreach.mono h.here h.directories, by rw [h.here]; exact h.directories _ hentry⟩

/-- A file that could be read still can, and holds what it held unless a file was stored there. -/
theorem read_cases (h : Overwritten t files t') {p : Path} {bytes : List UInt8}
    (hp : t.read p = .ok bytes) :
    (lastAt? t.here files (place t.here p) = none ∧ t'.read p = .ok bytes) ∨
      ∃ f, lastAt? t.here files (place t.here p) = some f ∧ t'.read p = .ok f.bytes := by
  obtain ⟨hreach, hentry⟩ := read_eq_ok_iff.1 hp
  have hreach' : t'.Reaches p := hreach.mono h.here h.directories
  cases hlast : lastAt? t.here files (place t.here p) with
  | none => exact .inl ⟨rfl, h.read_of_entryAt? hreach' (h.kept _ _ hlast hentry)⟩
  | some f => exact .inr ⟨f, rfl, h.read_of_entryAt? hreach' (h.written _ f hlast)⟩

end Overwritten

end FileTree

namespace Discovery

/-- The source files that inputs stand for, as they are found. -/
def found (tree : FileTree) (inputs : List Path) : List Path :=
  inputs.flatMap fun p => (expand? tree p).getD []

/-- What is found are the source files below directories, and inputs that are source files. -/
theorem mem_found_iff {tree : FileTree} {inputs : List Path} {p : Path} :
    p ∈ found tree inputs ↔ ∃ i ∈ inputs,
      (tree.isDirectory i = true ∧ p ∈ tree.sourceFilesBelow i) ∨
        (tree.isDirectory i = false ∧ i.isSourceFile = true ∧ p = i) := by
  unfold found
  rw [List.mem_flatMap]
  refine exists_congr fun i => and_congr_right fun _ => ?_
  unfold expand?
  cases hdirectory : tree.isDirectory i with
  | true => simp
  | false => cases hsource : i.isSourceFile <;> simp

/-- The inputs can be relied on to mean the same after files have been stored: each of them leads
somewhere already, or at least does not lead up. -/
structure AreSettled (tree : FileTree) (inputs : List Path) : Prop where
  sound : ∀ i ∈ inputs, i.IsSound
  leads : ∀ i ∈ inputs, tree.contains i = true ∨ ".." ∉ i.components

theorem isSound_of_mem_found {tree : FileTree} (hplaces : ∀ e ∈ tree.entries, e.1.IsSound)
    {inputs : List Path} (hinputs : ∀ i ∈ inputs, i.IsSound) {p : Path} (hp : p ∈ found tree inputs) :
    p.IsSound := by
  obtain ⟨i, hi, ⟨-, hbelow⟩ | ⟨-, -, rfl⟩⟩ := mem_found_iff.1 hp
  · exact FileTree.isSound_of_mem_sourceFilesBelow hplaces (hinputs i hi) hbelow
  · exact hinputs p hi

section

variable {t t' : FileTree} {files : List GeneratedFile} {inputs : List Path}

/-- What was found before is found again. -/
theorem mem_found_mono (h : FileTree.Overwritten t files t') (ht : t.IsProper) (ht' : t'.IsProper)
    {p : Path} (hp : p ∈ found t inputs) (hread : ∃ bytes, t.read p = .ok bytes) :
    p ∈ found t' inputs := by
  obtain ⟨i, hi, ⟨hdirectory, hbelow⟩ | ⟨-, hsource, rfl⟩⟩ := mem_found_iff.1 hp
  · obtain ⟨hreach, steps, bytes, hne, hentry, hname, rfl⟩ :=
      (FileTree.mem_sourceFilesBelow_iff ht).1 hbelow
    obtain ⟨bytes', hentry'⟩ := h.exists_file hentry
    have hdirectory' := h.isDirectory hdirectory
    have hreach' := (FileTree.isDirectory_iff.1 hdirectory').1
    rw [← h.here] at hentry' hname
    have hbelow' := (FileTree.mem_sourceFilesBelow_iff ht').2
      ⟨hreach', steps, bytes', hne, hentry', hname, rfl⟩
    exact mem_found_iff.2 ⟨i, hi, .inl ⟨hdirectory', hbelow'⟩⟩
  · obtain ⟨bytes, hbytes⟩ := hread
    obtain ⟨-, hentry⟩ := FileTree.read_eq_ok_iff.1 hbytes
    obtain ⟨bytes', hentry'⟩ := h.exists_file hentry
    have hfile : t'.isDirectory p = false := by
      rw [← Bool.not_eq_true, FileTree.isDirectory_iff, h.here, hentry']
      simp
    exact mem_found_iff.2 ⟨p, hi, .inr ⟨hfile, hsource, rfl⟩⟩

/-- An input that something stood below was a directory already. -/
theorem isDirectory_of_entryAt? (ht : t.IsProper) {i : Path}
    (hi : t.contains i = true ∨ ".." ∉ i.components) {steps : List String} (hne : steps ≠ [])
    {entry : FileEntry} (h : t.entryAt? ((FileTree.place t.here i).extend steps) = some entry) :
    t.isDirectory i = true := by
  have hdirectory : t.entryAt? (FileTree.place t.here i) = some .directory :=
    ht.entryAt?_of_prefix steps h hne
  refine FileTree.isDirectory_iff.2 ⟨?_, hdirectory⟩
  rcases hi with hcontains | hdown
  · exact (FileTree.contains_iff.1 hcontains).1
  · have hplace : FileTree.place t.here i =
        (FileTree.origin t.here i.anchor).extend i.components :=
      FileTree.descend_eq_extend _ hdown
    rw [hplace] at hdirectory
    exact ht.leads_extend hdown hdirectory

/-- What is found afterwards was found before, or was stored. -/
theorem mem_found_cases (h : FileTree.Overwritten t files t') (ht : t.IsProper) (ht' : t'.IsProper)
    (hinputs : AreSettled t inputs) {p : Path} (hp : p ∈ found t' inputs) :
    p ∈ found t inputs ∨
      ∃ f, FileTree.lastAt? t.here files (FileTree.place t.here p) = some f ∧ t'.read p = .ok f.bytes := by
  obtain ⟨i, hi, ⟨-, hbelow⟩ | ⟨hfile, hsource, rfl⟩⟩ := mem_found_iff.1 hp
  · obtain ⟨hreach', steps, bytes, hne, hentry', hname, rfl⟩ :=
      (FileTree.mem_sourceFilesBelow_iff ht').1 hbelow
    rw [h.here] at hname
    rcases h.file_cases hentry' with ⟨-, hentry⟩ | ⟨f, hlast, rfl⟩
    · rw [h.here] at hentry
      have hdirectory := isDirectory_of_entryAt? ht (hinputs.leads i hi) hne hentry
      have hreach := (FileTree.isDirectory_iff.1 hdirectory).1
      have hbefore := (FileTree.mem_sourceFilesBelow_iff ht).2
        ⟨hreach, steps, bytes, hne, hentry, hname, rfl⟩
      exact .inl (mem_found_iff.2 ⟨i, hi, .inl ⟨hdirectory, hbefore⟩⟩)
    · obtain ⟨hreach, hplace⟩ := ht'.reaches_extend hreach' hentry'
      rw [← hplace] at hlast hentry'
      rw [h.here] at hlast
      exact .inr ⟨f, hlast, FileTree.read_eq_ok hreach hentry'⟩
  · have hbefore : t.isDirectory p = false := by
      cases hdirectory : t.isDirectory p with
      | false => rfl
      | true =>
          rw [h.isDirectory hdirectory] at hfile
          exact absurd hfile (by simp)
    exact .inl (mem_found_iff.2 ⟨p, hi, .inr ⟨hbefore, hsource, rfl⟩⟩)

end

end Discovery

/-- The elements of a file depend on its bytes only. -/
theorem SourceFile.elements_congr {tree tree' : FileTree} {path : Path}
    (h : tree.read path = tree'.read path) :
    SourceFile.elements reader tree path = SourceFile.elements reader tree' path := by
  simp only [SourceFile.elements, SourceFile.text, h]

theorem SourceFile.read_of_elements {tree : FileTree} {path : Path} {elements : List ModelElement}
    (h : SourceFile.elements reader tree path = .ok elements) : ∃ bytes, tree.read path = .ok bytes := by
  obtain ⟨text, htext, -⟩ := bind_eq_ok.1 h
  unfold SourceFile.text at htext
  split at htext
  · simp at htext
  · next bytes hbytes => exact ⟨bytes, hbytes⟩

/-- Storing files does not change what a run reads, if those that it finds among its inputs declare no
interfaces and have not replaced a file that does. -/
theorem Session.elementsOf_overwritten {t t' : FileTree} {files : List GeneratedFile}
    {inputs : List Path} {elements : List ModelElement} (h : FileTree.Overwritten t files t')
    (ht : t.IsProper) (ht' : t'.IsProper) (hinputs : Discovery.AreSettled t inputs)
    (hread : elementsOf reader t (Discovery.ofInputs t inputs).files = .ok elements)
    (hstored : ∀ p ∈ (Discovery.ofInputs t' inputs).files, ∀ f,
      FileTree.lastAt? t.here files (FileTree.place t.here p) = some f →
        t'.read p = .ok f.bytes → SourceFile.elements reader t' p = .ok [])
    (hreplaced : ∀ p ∈ (Discovery.ofInputs t inputs).files, ∀ f,
      FileTree.lastAt? t.here files (FileTree.place t.here p) = some f →
        SourceFile.elements reader t p = .ok []) :
    elementsOf reader t' (Discovery.ofInputs t' inputs).files = .ok elements := by
  have hsound : ∀ p ∈ Discovery.found t inputs, p.IsSound := fun p hp =>
    Discovery.isSound_of_mem_found ht.sound hinputs.sound hp
  have hsound' : ∀ p ∈ Discovery.found t' inputs, p.IsSound := fun p hp =>
    Discovery.isSound_of_mem_found ht'.sound hinputs.sound hp
  have hfiles : ∀ p ∈ Discovery.found t inputs, p ∈ (Discovery.ofInputs t inputs).files :=
    fun p hp => (Discovery.mem_ordered_iff hsound).2 hp
  have hfiles' : ∀ p ∈ Discovery.found t' inputs, p ∈ (Discovery.ofInputs t' inputs).files :=
    fun p hp => (Discovery.mem_ordered_iff hsound').2 hp
  have hbytes : ∀ p ∈ Discovery.found t inputs, ∃ bytes, t.read p = .ok bytes := by
    intro p hp
    obtain ⟨part, hpart⟩ := (elementsOf_eq_ok_iff_flatMap.1 hread).1 p (hfiles p hp)
    exact SourceFile.read_of_elements hpart
  have hstays : ∀ p ∈ Discovery.found t inputs, p ∈ Discovery.found t' inputs := fun p hp =>
    Discovery.mem_found_mono h ht ht' hp (hbytes p hp)
  refine elementsOf_ordered hsound' hstays hread ?_ ?_
  · intro p hp
    obtain ⟨bytes, hp_bytes⟩ := hbytes p hp
    rcases h.read_cases hp_bytes with ⟨-, hsame⟩ | ⟨f, hlast, hnew⟩
    · exact SourceFile.elements_congr (hsame.trans hp_bytes.symm)
    · rw [hreplaced p (hfiles p hp) f hlast, hstored p (hfiles' p (hstays p hp)) f hlast hnew]
  · intro p hp hgone
    rcases Discovery.mem_found_cases h ht ht' hinputs hp with hold | ⟨f, hlast, hnew⟩
    · exact absurd hold hgone
    · exact hstored p (hfiles' p hp) f hlast hnew

end PlatformClasses
