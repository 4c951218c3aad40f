import PlatformClasses.ClassFile.Generation
import PlatformClasses.Proofs.FileTree.Places

/-!
# Overwriting a tree with files

Generated files are stored one after the other.  `overwrite` is the tree they leave, and `Overwritten`
says what stands at each of its places: the last of the files that lead there, else what stood there
before, else a directory if a file is stored below it, else nothing.

`Overwritten.append` is the only induction principle: a run stores one file, or the files of one part of
the run, after the other.
-/

namespace PlatformClasses

namespace GeneratedFile

/-- The content of the file as it is stored. -/
def bytes (f : GeneratedFile) : List UInt8 := Text.Utf8.encode f.content.toList

end GeneratedFile

namespace FileTree

/-- The last of the files whose paths lead to a place. -/
def lastAt? (here : List String) (files : List GeneratedFile) (q : Path) : Option GeneratedFile :=
  files.reverse.find? fun f => place here f.path = q

/-- The tree after files have been stored in order. -/
def overwrite (t : FileTree) (files : List GeneratedFile) : FileTree :=
  files.foldl (fun t f => (t.store f.path.parent f.path.name f.content).1) t

/-- What stands where in a tree `t'` that files have been stored in, if it was `t` before. -/
structure Overwritten (t : FileTree) (files : List GeneratedFile) (t' : FileTree) : Prop where
  here : t'.here = t.here
  written : ∀ q f, lastAt? t.here files q = some f → t'.entryAt? q = some (.file f.bytes)
  kept : ∀ q entry, lastAt? t.here files q = none → t.entryAt? q = some entry →
    t'.entryAt? q = some entry
  made : ∀ q, lastAt? t.here files q = none → t.entryAt? q = none →
    (∃ f ∈ files, OnWay t.here f.path.parent q) → t'.entryAt? q = some .directory
  absent : ∀ q, lastAt? t.here files q = none → t.entryAt? q = none →
    (¬ ∃ f ∈ files, OnWay t.here f.path.parent q) → t'.entryAt? q = none
  directories : ∀ q, t.entryAt? q = some .directory → t'.entryAt? q = some .directory
  reached : ∀ f ∈ files, t'.Reaches f.path
  free : ∀ f ∈ files, f.path.hasNull = false

/-! ## The last file at a place -/

section

variable {here : List String}

/-- The later files count before the earlier ones. -/
theorem lastAt?_append (fs gs : List GeneratedFile) (q : Path) :
    lastAt? here (fs ++ gs) q = (lastAt? here gs q).or (lastAt? here fs q) := by
  simp [lastAt?, List.find?_append]

theorem lastAt?_append_eq_none_iff (fs gs : List GeneratedFile) (q : Path) :
    lastAt? here (fs ++ gs) q = none ↔ lastAt? here fs q = none ∧ lastAt? here gs q = none := by
  rw [lastAt?_append, Option.or_eq_none_iff, and_comm]

/-- The last file at a place is one of the files, and goes there. -/
theorem mem_of_lastAt? {files : List GeneratedFile} {q : Path} {f : GeneratedFile}
    (h : lastAt? here files q = some f) : f ∈ files ∧ place here f.path = q := by
  refine ⟨List.mem_reverse.1 (List.mem_of_find?_eq_some h), ?_⟩
  simpa using List.find?_some h

/-- Where a file goes there is a last one. -/
theorem exists_lastAt?_of_mem {files : List GeneratedFile} {f : GeneratedFile} (hf : f ∈ files) :
    ∃ g, lastAt? here files (place here f.path) = some g := by
  cases h : lastAt? here files (place here f.path) with
  | some g => exact ⟨g, rfl⟩
  | none =>
      have hne := List.find?_eq_none.1 h f (List.mem_reverse.2 hf)
      simp at hne

theorem lastAt?_singleton_eq_some_iff (f g : GeneratedFile) (q : Path) :
    lastAt? here [f] q = some g ↔ place here f.path = q ∧ f = g := by
  by_cases h : place here f.path = q <;> simp [lastAt?, h]

/-- The file that comes last is the last one at its place. -/
theorem lastAt?_concat {files : List GeneratedFile} {f : GeneratedFile} {q : Path}
    (h : place here f.path = q) : lastAt? here (files ++ [f]) q = some f := by
  rw [lastAt?_append, (lastAt?_singleton_eq_some_iff f f q).2 ⟨h, rfl⟩]
  rfl

theorem lastAt?_singleton_eq_none_iff (f : GeneratedFile) (q : Path) :
    lastAt? here [f] q = none ↔ q ≠ place here f.path := by
  by_cases h : place here f.path = q
  · simp [lastAt?, h]
  · simp [lastAt?, h, Ne.symm h]

/-! ## Several writers -/

/-- The last file of several writers is the last one of some of them. -/
theorem lastAt?_flatMap_eq_some {α : Type} {writers : List α} {output : α → List GeneratedFile}
    {q : Path} {f : GeneratedFile} (h : lastAt? here (writers.flatMap output) q = some f) :
    ∃ w ∈ writers, lastAt? here (output w) q = some f := by
  induction writers with
  | nil => simp [lastAt?] at h
  | cons w rest ih =>
      rw [List.flatMap_cons, lastAt?_append] at h
      cases hrest : lastAt? here (rest.flatMap output) q with
      | none =>
          rw [hrest, Option.none_or] at h
          exact ⟨w, List.mem_cons_self, h⟩
      | some g =>
          obtain rfl : g = f := by simpa [hrest] using h
          obtain ⟨w', hw', hlast⟩ := ih hrest
          exact ⟨w', List.mem_cons_of_mem w hw', hlast⟩

theorem lastAt?_flatMap_congr_left {α : Type} {writers : List α} {f g : α → List GeneratedFile}
    {q : Path} (h : ∀ w ∈ writers, lastAt? here (f w) q = lastAt? here (g w) q) :
    lastAt? here (writers.flatMap f) q = lastAt? here (writers.flatMap g) q := by
  induction writers with
  | nil => rfl
  | cons w rest ih =>
      rw [List.flatMap_cons, List.flatMap_cons, lastAt?_append, lastAt?_append,
        h w List.mem_cons_self, ih fun w hw => h w (List.mem_cons_of_mem _ hw)]

/-- The order of writers, and how often each of them writes, does not matter if they leave the same file
wherever two of them write. -/
theorem lastAt?_flatMap_congr {α : Type} {writers writers' : List α}
    {output : α → List GeneratedFile} (hsame : ∀ w, w ∈ writers ↔ w ∈ writers') {q : Path}
    (hagree : ∀ w ∈ writers, ∀ w' ∈ writers, ∀ f g, lastAt? here (output w) q = some f →
      lastAt? here (output w') q = some g → f = g) :
    lastAt? here (writers.flatMap output) q = lastAt? here (writers'.flatMap output) q := by
  have hwritten : ∀ (ws : List α), ∀ w ∈ ws, ∀ f, lastAt? here (output w) q = some f →
      ∃ g, lastAt? here (ws.flatMap output) q = some g := by
    intro ws w hw f hf
    obtain ⟨hmem, rfl⟩ := mem_of_lastAt? hf
    exact exists_lastAt?_of_mem (List.mem_flatMap.2 ⟨w, hw, hmem⟩)
  cases h : lastAt? here (writers.flatMap output) q with
  | some f =>
      obtain ⟨w, hw, hf⟩ := lastAt?_flatMap_eq_some h
      obtain ⟨g, hg⟩ := hwritten writers' w ((hsame w).1 hw) f hf
      obtain ⟨w', hw', hg'⟩ := lastAt?_flatMap_eq_some hg
      rw [hg, hagree w hw w' ((hsame w').2 hw') f g hf hg']
  | none =>
      cases h' : lastAt? here (writers'.flatMap output) q with
      | none => rfl
      | some g =>
          obtain ⟨w, hw, hg⟩ := lastAt?_flatMap_eq_some h'
          obtain ⟨f, hf⟩ := hwritten writers w ((hsame w).2 hw) g hg
          rw [h] at hf
          simp at hf

end

/-! ## Storing files -/

/-- What is written puts a file at its place, which can be reached and is no directory. -/
theorem write_eq_ok {t t' : FileTree} {p : Path} {text : String} (h : t.write p text = .ok t') :
    p.hasNull = false ∧ t.Reaches p ∧ t.entryAt? (place t.here p) ≠ some .directory ∧
      t' = t.put (place t.here p) (.file (Text.Utf8.encode text.toList)) := by
  unfold write at h
  cases hnull : p.hasNull with
  | true => simp [hnull] at h
  | false =>
      refine ⟨rfl, ?_⟩
      cases hplace : t.placeOf p with
      | error e => simp [hnull, hplace, bind, Except.bind] at h
      | ok top =>
          obtain ⟨hreach, rfl⟩ := (placeOf_eq_ok_iff t p _).1 hplace
          simp only [hnull, hplace, bind, Except.bind, Bool.false_eq_true, if_false] at h
          split at h
          · simp at h
          · next hentry =>
            have hput : t.put (place t.here p) (.file (Text.Utf8.encode text.toList)) = t' := by
              simpa using h
            exact ⟨hreach, hentry, hput.symm⟩

/-- A file that is stored is written into a directory that was made for it. -/
theorem store_eq_ok {t t' : FileTree} {directory p : Path} {name text : String}
    (h : t.store directory name text = (t', .ok p)) :
    p = directory.join name ∧
      ∃ t₁, MadeDirectories t directory t₁ ∧ t₁.write p text = .ok t' := by
  unfold store at h
  cases hmake : t.makeDirectories directory with
  | mk t₁ result =>
      rw [hmake] at h
      cases result with
      | error e => simp at h
      | ok _ =>
          simp only at h
          cases hwrite : t₁.write (directory.join name) text with
          | error e => simp [hwrite] at h
          | ok t₂ =>
              simp only [hwrite, Prod.mk.injEq, Except.ok.injEq] at h
              obtain ⟨rfl, rfl⟩ := h
              exact ⟨rfl, t₁, madeDirectories hmake, hwrite⟩

/-- A file that is stored stands at its place, and only directories on the way are new. -/
theorem overwritten_of_store {t t' : FileTree} {f : GeneratedFile} {p : Path}
    (hname : f.path.EndsInName)
    (h : t.store f.path.parent f.path.name f.content = (t', .ok p)) :
    p = f.path ∧ Overwritten t [f] t' := by
  obtain ⟨hp, t₁, hmade, hwrite⟩ := store_eq_ok h
  rw [hname] at hp
  subst hp
  obtain ⟨hnull, hreach, hentry, hput⟩ := write_eq_ok hwrite
  rw [hmade.here] at hentry hput
  subst hput
  have hother : ∀ q, q ≠ place t.here f.path →
      (t₁.put (place t.here f.path) (.file f.bytes)).entryAt? q = t₁.entryAt? q := fun q hq =>
    entryAt?_put_of_ne t₁ hq _
  have hstay : ∀ q, t₁.entryAt? q = some .directory →
      (t₁.put (place t.here f.path) (.file f.bytes)).entryAt? q = some .directory := by
    intro q hq
    rw [hother q (by rintro rfl; exact hentry hq)]
    exact hq
  refine ⟨rfl, ?_⟩
  constructor
  case here => exact hmade.here
  case written =>
    intro q g hg
    obtain ⟨rfl, rfl⟩ := (lastAt?_singleton_eq_some_iff f g q).1 hg
    exact entryAt?_put_self t₁ (isOnWayHere_eq_false_of_entryAt? hentry) _
  case kept =>
    intro q entry hq hold
    exact (hother q ((lastAt?_singleton_eq_none_iff f q).1 hq)).trans (hmade.kept q entry hold)
  case made =>
    rintro q - - ⟨g, hg, hway⟩
    obtain rfl := List.mem_singleton.1 hg
    exact hstay q (hmade.made q hway)
  case absent =>
    intro q hq hold hway
    refine (hother q ((lastAt?_singleton_eq_none_iff f q).1 hq)).trans (hmade.absent q hold ?_)
    exact fun hf => hway ⟨f, List.mem_singleton_self f, hf⟩
  case directories =>
    intro q hq
    exact hstay q (hmade.kept q _ hq)
  case reached =>
    intro g hg
    obtain rfl := List.mem_singleton.1 hg
    exact Reaches.mono (here_put t₁ _ _) hstay hreach
  case free =>
    intro g hg
    obtain rfl := List.mem_singleton.1 hg
    exact hnull

namespace Overwritten

theorem nil (t : FileTree) : Overwritten t [] t where
  here := rfl
  written _ _ h := by simp [lastAt?] at h
  kept _ _ _ h := h
  made _ _ _ h := by simp at h
  absent _ _ h _ := h
  directories _ h := h
  reached _ h := by simp at h
  free _ h := by simp at h

/-- Storing files and then more of them is storing all of them. -/
theorem append {t t₁ t' : FileTree} {fs gs : List GeneratedFile} (h₁ : Overwritten t fs t₁)
    (h₂ : Overwritten t₁ gs t') : Overwritten t (fs ++ gs) t' := by
  obtain ⟨here₂, written₂, kept₂, made₂, absent₂, directories₂, reached₂, free₂⟩ := h₂
  -- the second part of the files goes to places from the same working directory
  simp only [h₁.here] at written₂ kept₂ made₂ absent₂
  constructor
  case here => exact here₂.trans h₁.here
  case written =>
    intro q f hf
    rw [lastAt?_append] at hf
    cases hgs : lastAt? t.here gs q with
    | some g =>
        obtain rfl : g = f := by simpa [hgs] using hf
        exact written₂ q g hgs
    | none => exact kept₂ q _ hgs (h₁.written q f (by simpa [hgs] using hf))
  case kept =>
    intro q entry hq hold
    obtain ⟨hfs, hgs⟩ := (lastAt?_append_eq_none_iff fs gs q).1 hq
    exact kept₂ q entry hgs (h₁.kept q entry hfs hold)
  case made =>
    rintro q hq hold ⟨f, hf, hway⟩
    obtain ⟨hfs, hgs⟩ := (lastAt?_append_eq_none_iff fs gs q).1 hq
    by_cases hearly : ∃ f ∈ fs, OnWay t.here f.path.parent q
    · exact directories₂ q (h₁.made q hfs hold hearly)
    · rcases List.mem_append.1 hf with hf | hf
      · exact absurd ⟨f, hf, hway⟩ hearly
      · exact made₂ q hgs (h₁.absent q hfs hold hearly) ⟨f, hf, hway⟩
  case absent =>
    intro q hq hold hway
    obtain ⟨hfs, hgs⟩ := (lastAt?_append_eq_none_iff fs gs q).1 hq
    have hnone := h₁.absent q hfs hold fun ⟨f, hf, h⟩ => hway ⟨f, List.mem_append_left gs hf, h⟩
    exact absent₂ q hgs hnone fun ⟨f, hf, h⟩ => hway ⟨f, List.mem_append_right fs hf, h⟩
  case directories =>
    intro q hq
    exact directories₂ q (h₁.directories q hq)
  case reached =>
    intro f hf
    rcases List.mem_append.1 hf with hf | hf
    · exact Reaches.mono here₂ directories₂ (h₁.reached f hf)
    · exact reached₂ f hf
  case free =>
    intro f hf
    rcases List.mem_append.1 hf with hf | hf
    · exact h₁.free f hf
    · exact free₂ f hf

/-- What stands in the tree afterwards is determined by the last file at each place and the files
altogether. -/
theorem entryAt?_eq {t t₁ t₂ : FileTree} {fs gs : List GeneratedFile} (h₁ : Overwritten t fs t₁)
    (h₂ : Overwritten t gs t₂) (hlast : ∀ q, lastAt? t.here fs q = lastAt? t.here gs q)
    (hfiles : ∀ f, f ∈ fs ↔ f ∈ gs) (q : Path) : t₁.entryAt? q = t₂.entryAt? q := by
  cases hfs : lastAt? t.here fs q with
  | some f => rw [h₁.written q f hfs, h₂.written q f ((hlast q).symm.trans hfs)]
  | none =>
      have hgs : lastAt? t.here gs q = none := (hlast q).symm.trans hfs
      cases hold : t.entryAt? q with
      | some entry => rw [h₁.kept q entry hfs hold, h₂.kept q entry hgs hold]
      | none =>
          by_cases hway : ∃ f ∈ fs, OnWay t.here f.path.parent q
          · have hway' : ∃ f ∈ gs, OnWay t.here f.path.parent q := by
              obtain ⟨f, hf, hon⟩ := hway
              exact ⟨f, (hfiles f).1 hf, hon⟩
            rw [h₁.made q hfs hold hway, h₂.made q hgs hold hway']
          · have hway' : ¬∃ f ∈ gs, OnWay t.here f.path.parent q := by
              rintro ⟨f, hf, hon⟩
              exact hway ⟨f, (hfiles f).2 hf, hon⟩
            rw [h₁.absent q hfs hold hway, h₂.absent q hgs hold hway']

/-- Reading afterwards is a matter of places from the working directory before. -/
theorem read_of_entryAt? {t t' : FileTree} {files : List GeneratedFile} (h : Overwritten t files t')
    {p : Path} (hreach : t'.Reaches p) {bytes : List UInt8}
    (hentry : t'.entryAt? (place t.here p) = some (.file bytes)) : t'.read p = .ok bytes := by
  rw [← h.here] at hentry
  exact read_eq_ok hreach hentry

/-- Each path holds the content of the last file that was stored there. -/
theorem read_eq {t t' : FileTree} {files : List GeneratedFile} (h : Overwritten t files t')
    {f : GeneratedFile} (hf : f ∈ files) :
    ∃ g, lastAt? t.here files (place t.here f.path) = some g ∧ t'.read f.path = .ok g.bytes := by
  obtain ⟨g, hg⟩ := exists_lastAt?_of_mem hf
  exact ⟨g, hg, h.read_of_entryAt? (h.reached f hf) (h.written _ g hg)⟩

end Overwritten

theorem overwrite_append (t : FileTree) (fs gs : List GeneratedFile) :
    t.overwrite (fs ++ gs) = (t.overwrite fs).overwrite gs := by
  simp [overwrite, List.foldl_append]

end FileTree

end PlatformClasses
