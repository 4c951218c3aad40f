import Mathlib.Data.List.Induction
import PlatformClasses.Proofs.FileTree.Overwriting
import PlatformClasses.Proofs.Path.Order

/-!
# Listing a tree

A tree is proper if it could be that of a file system: each place has at most one entry, places are
absolute and without `..`, and an entry stands in a directory.  Whatever is made or written leaves a proper tree
proper (`IsProper.overwrite`).  In such a tree the entries and what stands at each place say the same, so a
listing of a directory is described by what stands below it (`mem_sourceFilesBelow_iff`).
-/

namespace PlatformClasses.FileTree

/-! ## Canonical places -/

/-- A place that paths can lead to: it is absolute, and nothing in it leads up. -/
structure IsCanonical (q : Path) : Prop where
  absolute : q.anchor = 1
  down : ".." ∉ q.components

instance (q : Path) : Decidable (IsCanonical q) :=
  decidable_of_iff (q.anchor = 1 ∧ ".." ∉ q.components)
    ⟨fun h => ⟨h.1, h.2⟩, fun h => ⟨h.absolute, h.down⟩⟩

theorem place_concat (here : List String) (a : Nat) (cs : List String) (c : String) :
    place here ⟨a, cs ++ [c]⟩ = stepFrom (place here ⟨a, cs⟩) c := by
  simp [place, descend]

theorem IsCanonical.parent {q : Path} (h : IsCanonical q) : IsCanonical q.parent where
  absolute := h.absolute
  down := fun hmem => h.down (List.dropLast_subset _ hmem)

/-- A step from a canonical place leads to one. -/
theorem IsCanonical.stepFrom {q : Path} (h : IsCanonical q) (c : String) :
    IsCanonical (stepFrom q c) := by
  unfold FileTree.stepFrom
  split
  · exact h.parent
  · next hdown =>
    refine ⟨h.absolute, fun hmem => ?_⟩
    rcases List.mem_append.1 hmem with hmem | hmem
    · exact h.down hmem
    · exact hdown (by simp [List.mem_singleton.1 hmem])

/-- Every path leads to a canonical place. -/
theorem isCanonical_place {here : List String} (hhere : ".." ∉ here) (p : Path) :
    IsCanonical (place here p) := by
  obtain ⟨a, cs⟩ := p
  induction cs using List.reverseRecOn with
  | nil =>
      refine ⟨rfl, ?_⟩
      show ".." ∉ if a = 0 then here else []
      split
      · exact hhere
      · exact List.not_mem_nil
  | append_singleton cs c ih =>
      rw [place_concat]
      exact ih.stepFrom c

/-! ## Entries and what stands at a place -/

theorem mem_of_findEntry {q : Path} {entry : FileEntry} {l : List (Path × FileEntry)}
    (h : findEntry q l = some entry) : (q, entry) ∈ l := by
  induction l with
  | nil => simp [findEntry] at h
  | cons e rest ih =>
      unfold findEntry at h
      split at h
      · next hq =>
        obtain rfl : e.2 = entry := Option.some.inj h
        rw [← hq]
        exact List.mem_cons_self
      · exact List.mem_cons_of_mem e (ih h)

/-- An entry is found if no two have the same place. -/
theorem findEntry_of_mem {q : Path} {entry : FileEntry} {l : List (Path × FileEntry)}
    (hl : (l.map (·.1)).Nodup) (h : (q, entry) ∈ l) : findEntry q l = some entry := by
  induction l with
  | nil => simp at h
  | cons e rest ih =>
      obtain ⟨hnew, hrest⟩ := List.nodup_cons.1 hl
      unfold findEntry
      rcases List.mem_cons.1 h with rfl | h
      · rw [if_pos rfl]
      · have hmem : q ∈ rest.map (·.1) := List.mem_map_of_mem h
        have hne : e.1 ≠ q := by
          rintro rfl
          exact hnew hmem
        rw [if_neg hne]
        exact ih hrest h

/-- Putting an entry adds no other one. -/
theorem mem_of_mem_putEntry {q : Path} {entry : FileEntry} {l : List (Path × FileEntry)}
    {e : Path × FileEntry} (h : e ∈ putEntry q entry l) : e = (q, entry) ∨ e ∈ l := by
  induction l with
  | nil => exact .inl (by simpa [putEntry] using h)
  | cons e' rest ih =>
      unfold putEntry at h
      split at h
      · exact (List.mem_cons.1 h).imp_right (List.mem_cons_of_mem e')
      · rcases List.mem_cons.1 h with rfl | h
        · exact .inr List.mem_cons_self
        · exact (ih h).imp_right (List.mem_cons_of_mem e')

/-- Putting an entry keeps the places different. -/
theorem nodup_putEntry (q : Path) (entry : FileEntry) {l : List (Path × FileEntry)}
    (h : (l.map (·.1)).Nodup) : ((putEntry q entry l).map (·.1)).Nodup := by
  induction l with
  | nil => simp [putEntry]
  | cons e rest ih =>
      obtain ⟨hnew, hrest⟩ := List.nodup_cons.1 h
      unfold putEntry
      split
      · next hq =>
        subst hq
        exact h
      · next hq =>
        refine List.nodup_cons.2 ⟨?_, ih hrest⟩
        intro hmem
        obtain ⟨e', he', heq⟩ := List.mem_map.1 hmem
        rcases mem_of_mem_putEntry he' with rfl | he'
        · exact hq heq.symm
        · exact hnew (heq ▸ List.mem_map_of_mem he')

/-- A tree that could be that of a file system. -/
structure IsProper (t : FileTree) : Prop where
  here : ∀ c ∈ t.here, c ≠ ".." ∧ '/' ∉ c.toList
  nodup : (t.entries.map (·.1)).Nodup
  inside : ∀ e ∈ t.entries, isOnWayHere t.here e.1 = false
  canonical : ∀ e ∈ t.entries, IsCanonical e.1
  sound : ∀ e ∈ t.entries, e.1.IsSound
  parents : ∀ e ∈ t.entries, t.entryAt? e.1.parent = some .directory

theorem isOnWayHere_parent {here : List String} {q : Path} (h : isOnWayHere here q = true) :
    isOnWayHere here q.parent = true :=
  List.isPrefixOf_iff_prefix.2 ((List.dropLast_prefix _).trans (List.isPrefixOf_iff_prefix.1 h))

/-- The working directory is there, and all that it lies in. -/
theorem entryAt?_of_isOnWayHere (t : FileTree) {q : Path} (h : isOnWayHere t.here q = true) :
    t.entryAt? q = some .directory := by
  simp [entryAt?, h]

namespace IsProper

variable {t : FileTree}

/-- In a proper tree every entry is found at its place. -/
theorem entryAt?_of_mem (ht : t.IsProper) {q : Path} {entry : FileEntry}
    (h : (q, entry) ∈ t.entries) : t.entryAt? q = some entry := by
  rw [entryAt?, ht.inside _ h]
  exact findEntry_of_mem ht.nodup h

/-- What is found is an entry or lies on the way to the working directory. -/
theorem mem_or_isOnWayHere {q : Path} {entry : FileEntry} (h : t.entryAt? q = some entry) :
    isOnWayHere t.here q = true ∨ (q, entry) ∈ t.entries := by
  unfold entryAt? at h
  split at h
  · next hway => exact .inl hway
  · exact .inr (mem_of_findEntry h)

/-- Whatever stands somewhere stands in a directory. -/
theorem entryAt?_parent (ht : t.IsProper) {q : Path} {entry : FileEntry}
    (h : t.entryAt? q = some entry) : t.entryAt? q.parent = some .directory := by
  rcases mem_or_isOnWayHere h with hway | hmem
  · exact entryAt?_of_isOnWayHere t (isOnWayHere_parent hway)
  · exact ht.parents _ hmem

/-- What stands on the way to something is a directory. -/
theorem entryAt?_of_prefix (ht : t.IsProper) {a : Nat} {cs : List String} (rest : List String)
    {entry : FileEntry} (h : t.entryAt? ⟨a, cs ++ rest⟩ = some entry) (hne : rest ≠ []) :
    t.entryAt? ⟨a, cs⟩ = some .directory := by
  induction rest using List.reverseRecOn generalizing entry with
  | nil => exact absurd rfl hne
  | append_singleton rest c ih =>
      have hparent := ht.entryAt?_parent h
      have heq : Path.parent ⟨a, cs ++ (rest ++ [c])⟩ = ⟨a, cs ++ rest⟩ := by
        rw [Path.parent, ← List.append_assoc, List.dropLast_concat]
      rw [heq] at hparent
      cases rest with
      | nil => simpa using hparent
      | cons d rest => exact ih hparent (by simp)

/-- A path that can be followed leads into a directory. -/
theorem entryAt?_parent_place (ht : t.IsProper) {p : Path} (h : t.Reaches p) :
    t.entryAt? (place t.here p).parent = some .directory := by
  obtain ⟨a, cs⟩ := p
  induction cs using List.reverseRecOn with
  | nil => exact ht.entryAt?_parent (entryAt?_origin t a)
  | append_singleton cs c _ =>
      obtain ⟨-, hlast, -⟩ := (leads_append t cs [c] (origin t.here a)).1 h
      have hlast : t.entryAt? (place t.here ⟨a, cs⟩) = some .directory := hlast
      rw [place_concat]
      generalize place t.here ⟨a, cs⟩ = top at hlast
      unfold stepFrom
      split
      · exact ht.entryAt?_parent (ht.entryAt?_parent hlast)
      · have heq : Path.parent ⟨top.anchor, top.components ++ [c]⟩ = top := by
          rw [Path.parent, List.dropLast_concat]
        rw [heq]
        exact hlast

/-- Putting something into a directory, which may replace a file but no directory by a file. -/
theorem put (ht : t.IsProper) {q : Path} {entry : FileEntry}
    (hinside : isOnWayHere t.here q = false)
    (hcanonical : IsCanonical q) (hsound : q.IsSound)
    (hparent : t.entryAt? q.parent = some .directory)
    (hstay : t.entryAt? q = some .directory → entry = .directory) : (t.put q entry).IsProper := by
  have hdirectory : ∀ r, t.entryAt? r = some .directory →
      (t.put q entry).entryAt? r = some .directory := by
    intro r hr
    by_cases hrq : r = q
    · subst hrq
      rw [entryAt?_put_self t hinside, hstay hr]
    · rw [entryAt?_put_of_ne t hrq]
      exact hr
  constructor
  case here => exact ht.here
  case nodup => exact nodup_putEntry q entry ht.nodup
  case inside =>
    intro e he
    rcases mem_of_mem_putEntry he with rfl | he
    · exact hinside
    · exact ht.inside e he
  case canonical =>
    intro e he
    rcases mem_of_mem_putEntry he with rfl | he
    · exact hcanonical
    · exact ht.canonical e he
  case sound =>
    intro e he
    rcases mem_of_mem_putEntry he with rfl | he
    · exact hsound
    · exact ht.sound e he
  case parents =>
    intro e he
    rcases mem_of_mem_putEntry he with rfl | he
    · exact hdirectory _ hparent
    · exact hdirectory _ (ht.parents e he)

end IsProper

/-! ## Making and writing -/

theorem isSound_stepFrom {q : Path} (hq : q.IsSound) {c : String} (hc : '/' ∉ c.toList) :
    (stepFrom q c).IsSound := by
  unfold stepFrom
  split
  · exact fun d hd => hq d (List.dropLast_subset _ hd)
  · intro d hd
    rcases List.mem_append.1 hd with hd | hd
    · exact hq d hd
    · rw [List.mem_singleton.1 hd]
      exact hc

/-- The place of a sound path is sound. -/
theorem isSound_place {here : List String} (hhere : ∀ c ∈ here, '/' ∉ c.toList) {p : Path}
    (hp : p.IsSound) : (place here p).IsSound := by
  obtain ⟨a, cs⟩ := p
  induction cs using List.reverseRecOn with
  | nil =>
      intro c hc
      have hc : c ∈ if a = 0 then here else [] := hc
      split at hc
      · exact hhere c hc
      · simp at hc
  | append_singleton cs c ih =>
      rw [place_concat]
      exact isSound_stepFrom (ih fun d hd => hp d (List.mem_append_left _ hd)) (hp c (by simp))

namespace IsProper

variable {t : FileTree}

/-- Where a path leads, something can be put. -/
theorem put_place (ht : t.IsProper) {p : Path} (hp : p.IsSound) (hreach : t.Reaches p)
    {entry : FileEntry} (hfree : t.entryAt? (place t.here p) ≠ some .directory) :
    (t.put (place t.here p) entry).IsProper :=
  ht.put (isOnWayHere_eq_false_of_entryAt? hfree)
    (isCanonical_place (fun hmem => (ht.here _ hmem).1 rfl) p)
    (isSound_place (fun c hc => (ht.here c hc).2) hp) (ht.entryAt?_parent_place hreach)
    fun hdirectory => absurd hdirectory hfree

/-- A tree stays proper when a directory is made. -/
theorem makeDirectory (ht : t.IsProper) {p : Path} (hp : p.IsSound) {made : FileTree}
    (h : t.makeDirectory p = .ok made) : made.IsProper := by
  obtain ⟨hreach, hentry, rfl⟩ := makeDirectory_eq_ok h
  exact ht.put_place hp hreach (by simp [hentry])

theorem ensureDirectory (ht : t.IsProper) {p : Path} (hp : p.IsSound) :
    (t.ensureDirectory p).1.IsProper := by
  unfold FileTree.ensureDirectory
  split
  · next made hmade => exact ht.makeDirectory hp hmade
  · exact ht

/-- The induction is on the components from the last one up, as directories are made. -/
theorem makeDirectoriesFrom (ht : t.IsProper) (anchor : Nat) (reversed : List String)
    (hsound : ∀ c ∈ reversed, '/' ∉ c.toList) :
    (makeDirectoriesFrom anchor reversed t).1.IsProper := by
  induction reversed generalizing t with
  | nil => exact ht
  | cons last above ih =>
      have hp : Path.IsSound ⟨anchor, (last :: above).reverse⟩ :=
        fun c hc => hsound c (List.mem_reverse.1 hc)
      have habove := ih ht fun c hc => hsound c (List.mem_cons_of_mem last hc)
      unfold FileTree.makeDirectoriesFrom
      simp only
      split
      · split
        · next t₁ e hmade =>
          rw [hmade] at habove
          exact habove
        · next t₁ hmade =>
          rw [hmade] at habove
          exact habove.ensureDirectory hp
      · exact ht.ensureDirectory hp

/-- A tree stays proper when directories are made, whether all of them can be or not. -/
theorem makeDirectories (ht : t.IsProper) {p : Path} (hp : p.IsSound) :
    (t.makeDirectories p).1.IsProper := by
  unfold FileTree.makeDirectories
  split
  · exact ht
  · exact ht.makeDirectoriesFrom p.anchor p.components.reverse fun c hc => hp c (List.mem_reverse.1 hc)

/-- A tree stays proper when a file is written. -/
theorem write (ht : t.IsProper) {p : Path} (hp : p.IsSound) {text : String} {t' : FileTree}
    (h : t.write p text = .ok t') : t'.IsProper := by
  obtain ⟨-, hreach, hentry, rfl⟩ := write_eq_ok h
  exact ht.put_place hp hreach hentry

/-- A tree stays proper when a file is stored, whether it can be or not. -/
theorem store (ht : t.IsProper) {directory : Path} (hd : directory.IsSound) (name text : String) :
    (t.store directory name text).1.IsProper := by
  have hmade := ht.makeDirectories hd
  unfold FileTree.store
  split
  · next t₁ e h =>
    rw [h] at hmade
    exact hmade
  · next t₁ h =>
    rw [h] at hmade
    simp only
    split
    · exact hmade
    · next t₂ hwrite => exact hmade.write (hd.join name) hwrite

/-- A tree stays proper when files are stored one after the other. -/
theorem overwrite (ht : t.IsProper) {files : List GeneratedFile}
    (h : ∀ f ∈ files, f.path.IsSound) : (t.overwrite files).IsProper := by
  induction files generalizing t with
  | nil => exact ht
  | cons f rest ih =>
      have hparent : f.path.parent.IsSound := fun c hc =>
        h f List.mem_cons_self c (List.dropLast_subset _ hc)
      exact ih (ht.store hparent f.path.name f.content) fun g hg => h g (List.mem_cons_of_mem f hg)

end IsProper

/-! ## What stands below a directory -/

namespace IsProper

variable {t : FileTree}

theorem mem_of_file {q : Path} {bytes : List UInt8} (h : t.entryAt? q = some (.file bytes)) :
    (q, .file bytes) ∈ t.entries := by
  rcases mem_or_isOnWayHere h with hway | hmem
  · rw [entryAt?_of_isOnWayHere t hway] at h
    simp at h
  · exact hmem

/-- The way down to a place can be followed if something stands there. -/
theorem leads_extend (ht : t.IsProper) {top : Path} {steps : List String} (hdown : ".." ∉ steps)
    {entry : FileEntry} (h : t.entryAt? (top.extend steps) = some entry) : t.Leads top steps := by
  induction steps generalizing top with
  | nil => trivial
  | cons c rest ih =>
      rw [List.mem_cons, not_or] at hdown
      have hstep : stepFrom top c = top.extend [c] := by
        simp [stepFrom, Ne.symm hdown.1, Path.extend]
      have hrest : (top.extend [c]).extend rest = top.extend (c :: rest) := by simp
      refine ⟨ht.entryAt?_of_prefix (c :: rest) h (by simp), ?_⟩
      rw [hstep]
      exact ih hdown.2 (by rw [hrest]; exact h)

/-- A file below a place is led to by the path to that place and the steps from there. -/
theorem reaches_extend (ht : t.IsProper) {p : Path} (hp : t.Reaches p) {steps : List String}
    {bytes : List UInt8} (h : t.entryAt? ((place t.here p).extend steps) = some (.file bytes)) :
    t.Reaches (p.extend steps) ∧
      place t.here (p.extend steps) = (place t.here p).extend steps := by
  have hcanonical := ht.canonical _ (mem_of_file h)
  have hdown : ".." ∉ steps := fun hmem => hcanonical.down (List.mem_append_right _ hmem)
  constructor
  · exact (leads_append t p.components steps (origin t.here p.anchor)).2
      ⟨hp, ht.leads_extend hdown h⟩
  · exact place_extend t.here p hdown

end IsProper

/-- What lies below a place are the places that steps lead to from there. -/
theorem below?_eq_some_iff {top q : Path} {steps : List String} :
    below? top q = some steps ↔ q = top.extend steps := by
  obtain ⟨a, cs⟩ := top
  obtain ⟨b, ds⟩ := q
  unfold below? Path.extend
  constructor
  · intro h
    split at h
    · next ha =>
      split at h
      · next hprefix =>
        obtain ⟨rest, rfl⟩ := List.isPrefixOf_iff_prefix.1 hprefix
        have hrest : rest = steps := by simpa using h
        simp only at ha
        rw [← hrest, ha]
      · simp at h
    · simp at h
  · intro h
    obtain ⟨rfl, rfl⟩ := Path.mk.inj h
    simp

/-- What is listed goes on from the directory's path by names of places. -/
theorem isSound_of_mem_sourceFilesBelow {t : FileTree} (ht : ∀ e ∈ t.entries, e.1.IsSound)
    {p found : Path} (hp : p.IsSound) (h : found ∈ t.sourceFilesBelow p) : found.IsSound := by
  unfold sourceFilesBelow at h
  split at h
  · simp at h
  · next top _ =>
    obtain ⟨⟨q, entry⟩, hmem, hfound⟩ := List.mem_filterMap.1 h
    simp only at hfound
    split at hfound
    · next bytes step steps hbelow =>
      obtain rfl := below?_eq_some_iff.1 hbelow
      split at hfound
      · have hplace : Path.IsSound (top.extend (step :: steps)) := ht _ hmem
        have hsteps : Path.IsSound ⟨0, step :: steps⟩ := fun c hc =>
          hplace c (List.mem_append_right _ hc)
        rw [← Option.some.inj hfound]
        exact hp.append hsteps
      · simp at hfound
    · simp at hfound

/-- What is listed below a directory: the files there whose names end in `.cs`. -/
theorem mem_sourceFilesBelow_iff {t : FileTree} (ht : t.IsProper) {p found : Path} :
    found ∈ t.sourceFilesBelow p ↔ t.Reaches p ∧ ∃ steps bytes, steps ≠ [] ∧
      t.entryAt? ((place t.here p).extend steps) = some (.file bytes) ∧
        Text.hasTrail ".cs" ((place t.here p).extend steps).name = true ∧
          found = p.extend steps := by
  unfold sourceFilesBelow
  cases hplace : t.placeOf p with
  | error e =>
      have hreach : ¬t.Reaches p := by
        intro h
        rw [(placeOf_eq_ok_iff t p _).2 ⟨h, rfl⟩] at hplace
        simp at hplace
      simp [hreach]
  | ok top =>
      obtain ⟨hreach, rfl⟩ := (placeOf_eq_ok_iff t p _).1 hplace
      simp only [List.mem_filterMap, hreach, true_and]
      constructor
      · rintro ⟨⟨q, entry⟩, hmem, hfound⟩
        simp only at hfound
        split at hfound
        · next bytes step steps hbelow =>
          obtain rfl := below?_eq_some_iff.1 hbelow
          split at hfound
          · next hname =>
            refine ⟨step :: steps, bytes, by simp, ht.entryAt?_of_mem hmem, hname, ?_⟩
            exact (Option.some.inj hfound).symm
          · simp at hfound
        · simp at hfound
      · rintro ⟨steps, bytes, hne, hentry, hname, rfl⟩
        refine ⟨_, IsProper.mem_of_file hentry, ?_⟩
        obtain ⟨step, rest, rfl⟩ := List.exists_cons_of_ne_nil hne
        simp only [below?_eq_some_iff.2 rfl, hname, if_true]
        rfl

end PlatformClasses.FileTree
