import PlatformClasses.Proofs.Run.InputOrder

/-!
# Names of source files

A file can be given as an input itself, or it can be found below a directory that is given.  In the first
case its name must have the extension `.cs` in any case, and a dot at the front starts no extension
(`isSourceFile_iff`); in the second case the name must end in `.cs` as it is written.  The two agree on a
file unless it is named `.cs`, which only the search finds, or its extension has a capital letter, and then
only the file itself is accepted (`found_iff_given`).

That the extension has only four spellings rests on the table of lower-case letters: no character beyond
ASCII has `c`, `s` or a dot as its lower case (`lowerFrom_eq_cons_iff`).
-/

namespace PlatformClasses

namespace Text

/-- A text has a trail if it ends in it. -/
theorem hasTrail_eq_true_iff {trail s : String} : hasTrail trail s = true ↔ ∃ stem, s = stem ++ trail := by
  simp only [← beforeTrail?_eq_some_iff, beforeTrail?, hasTrail]
  split <;> simp [*]

/-! ## Lower-casing to ASCII -/

/-- The images of the runs are characters, and only that of the kelvin sign is in ASCII. -/
theorem lowercaseRuns_images : ∀ r ∈ lowercaseRuns,
    (r.2.2.2 = 'k'.toNat ∧ r.1 = r.2.1 ∨ 128 ≤ r.2.2.2) ∧
      (r.2.2.2 + (r.2.1 - r.1) < 0xd800 ∨
        0xdfff < r.2.2.2 ∧ r.2.2.2 + (r.2.1 - r.1) < 0x110000) := by
  decide +kernel

/-- Beyond ASCII, only the Kelvin sign is lowered into it. -/
theorem lowerChar_of_ge {c : Char} (h : 128 ≤ c.toNat) :
    lowerChar c = 'k' ∨ 128 ≤ (lowerChar c).toNat := by
  unfold lowerChar
  rw [if_neg (by omega)]
  split
  · next first last step image hfind =>
    obtain ⟨himage, hvalid⟩ := lowercaseRuns_images _ (List.mem_of_find?_eq_some hfind)
    have hrun := List.find?_some hfind
    simp only [inRun, Bool.and_eq_true, decide_eq_true_eq] at hrun himage hvalid
    rcases himage with ⟨rfl, hsingle⟩ | himage
    · left
      have hzero : c.toNat - first = 0 := by omega
      rw [hzero]
      rfl
    · right
      have hchar : (image + (c.toNat - first)).isValidChar := by
        unfold Nat.isValidChar
        omega
      rw [Char.ofNat, dif_pos hchar]
      show 128 ≤ image + (c.toNat - first)
      omega
  · exact .inr h

theorem lowerBetween_of_lt {c : Char} (h : c.toNat < 128) (before after : List Char) :
    lowerBetween before c after = [lowerChar c] := by
  have hdotted : c ≠ 'İ' := by
    rintro rfl
    exact absurd h (by decide)
  have hsigma : c ≠ 'Σ' := by
    rintro rfl
    exact absurd h (by decide)
  simp [lowerBetween, hdotted, hsigma]

/-- Beyond ASCII, only two characters are lowered to ones that begin with a letter of it. -/
theorem lowerBetween_of_ge {c : Char} (h : 128 ≤ c.toNat) (before after : List Char) :
    ∃ d ds, lowerBetween before c after = d :: ds ∧ (d = 'i' ∨ d = 'k' ∨ 128 ≤ d.toNat) := by
  unfold lowerBetween
  split
  · exact ⟨_, _, rfl, .inl rfl⟩
  · split
    · split
      · exact ⟨_, _, rfl, .inr (.inr (by decide))⟩
      · exact ⟨_, _, rfl, .inr (.inr (by decide))⟩
    · exact ⟨_, _, rfl, .inr (lowerChar_of_ge h)⟩

/-- What has its lower case in ASCII is in ASCII itself, except for `İ` and the kelvin sign. -/
theorem lowerFrom_eq_cons_iff {before cs ds : List Char} {d : Char} (hd : d.toNat < 128)
    (hi : d ≠ 'i') (hk : d ≠ 'k') : lowerFrom before cs = d :: ds ↔
      ∃ c rest, cs = c :: rest ∧ c.toNat < 128 ∧ lowerChar c = d ∧
        lowerFrom (c :: before) rest = ds := by
  cases cs with
  | nil => simp [lowerFrom]
  | cons c rest =>
      rw [lowerFrom]
      by_cases hc : c.toNat < 128
      · rw [lowerBetween_of_lt hc, List.singleton_append, List.cons.injEq]
        simp [hc]
      · obtain ⟨x, xs, hx, hbeyond⟩ := lowerBetween_of_ge (Nat.le_of_not_lt hc) before rest
        have hne : x ≠ d := by
          rintro rfl
          rcases hbeyond with rfl | rfl | hbeyond
          · exact hi rfl
          · exact hk rfl
          · omega
        rw [hx, List.cons_append, List.cons.injEq]
        simp [hne, hc]

theorem lowerFrom_eq_nil_iff {before cs : List Char} : lowerFrom before cs = [] ↔ cs = [] := by
  cases cs with
  | nil => simp [lowerFrom]
  | cons c rest =>
      rw [lowerFrom, List.append_eq_nil_iff]
      by_cases hc : c.toNat < 128
      · simp [lowerBetween_of_lt hc]
      · obtain ⟨x, xs, hx, -⟩ := lowerBetween_of_ge (Nat.le_of_not_lt hc) before rest
        simp [hx]

theorem lowerChar_cases {c : Char} (h : c.toNat < 128) :
    (lowerChar c = '.' → c = '.') ∧ (lowerChar c = 'c' → c = 'c' ∨ c = 'C') ∧
      (lowerChar c = 's' → c = 's' ∨ c = 'S') := by
  have hall : ∀ n < 128, (lowerChar (Char.ofNat n) = '.' → Char.ofNat n = '.') ∧
      (lowerChar (Char.ofNat n) = 'c' → Char.ofNat n = 'c' ∨ Char.ofNat n = 'C') ∧
        (lowerChar (Char.ofNat n) = 's' → Char.ofNat n = 's' ∨ Char.ofNat n = 'S') := by
    decide
  have hc := hall c.toNat h
  rwa [Char.ofNat_toNat] at hc

end Text

namespace Path

/-! ## Extensions -/

/-- A name is cut at its last dot, which is the first one from behind. -/
theorem extensionOfName_of_reverse {name : String} {taken stem : List Char}
    (hname : name.toList.reverse = taken ++ '.' :: stem) (htaken : '.' ∉ taken) :
    extensionOfName name =
      if taken = [] ∨ stem = [] then "" else String.ofList ('.' :: taken.reverse) := by
  have hstays : ∀ c ∈ taken, (c != '.') = true := by
    intro c hc
    rw [bne_iff_ne]
    rintro rfl
    exact htaken hc
  have htake : (taken ++ '.' :: stem).takeWhile (· != '.') = taken := by
    rw [List.takeWhile_append_of_pos hstays, List.takeWhile_cons_of_neg (by simp), List.append_nil]
  have hdrop : (taken ++ '.' :: stem).dropWhile (· != '.') = '.' :: stem := by
    rw [List.dropWhile_append_of_pos hstays, List.dropWhile_cons_of_neg (by simp)]
  simp only [extensionOfName, hname, htake, hdrop, List.drop_succ_cons, List.drop_zero,
    Bool.or_eq_true, List.isEmpty_iff]

/-- A name without dots has no extension. -/
theorem extensionOfName_of_not_mem {name : String} (h : '.' ∉ name.toList) :
    extensionOfName name = "" := by
  have hall : ∀ c ∈ name.toList.reverse, (c != '.') = true := by
    intro c hc
    rw [bne_iff_ne]
    rintro rfl
    exact h (List.mem_reverse.1 hc)
  have hdrop : (name.toList.reverse ++ []).dropWhile (· != '.') = [] :=
    List.dropWhile_append_of_pos hall
  rw [List.append_nil] at hdrop
  simp [extensionOfName, hdrop]

/-- The dot of an extension is not the first character of the name. -/
theorem extensionOfName_eq_iff {name : String} {tail : List Char} (hne : tail ≠ [])
    (hdot : '.' ∉ tail) : extensionOfName name = String.ofList ('.' :: tail) ↔
      ∃ stem, stem ≠ "" ∧ name = stem ++ String.ofList ('.' :: tail) := by
  constructor
  · intro h
    have hsome : extensionOfName name ≠ "" := by
      rw [h]
      simp [← String.toList_inj]
    by_cases hmem : '.' ∈ name.toList
    · obtain ⟨taken, stem, hname, htaken⟩ :=
        List.eq_append_cons_of_mem (List.mem_reverse.2 hmem)
      rw [extensionOfName_of_reverse hname htaken] at h hsome
      have hparts : ¬(taken = [] ∨ stem = []) := fun hparts => hsome (if_pos hparts)
      have htail : taken.reverse = tail := by
        rw [if_neg hparts] at h
        simpa [← String.toList_inj] using h
      refine ⟨String.ofList stem.reverse, ?_, ?_⟩
      · intro hstem
        exact hparts (.inr (by simpa [← String.toList_inj] using hstem))
      · rw [← String.toList_inj, ← List.reverse_inj, hname, ← htail]
        simp
    · exact absurd (extensionOfName_of_not_mem hmem) hsome
  · rintro ⟨stem, hstem, rfl⟩
    have hreverse : (stem ++ String.ofList ('.' :: tail)).toList.reverse =
        tail.reverse ++ '.' :: stem.toList.reverse := by simp
    have hparts : ¬(tail.reverse = [] ∨ stem.toList.reverse = []) := by
      simpa [hne] using hstem
    rw [extensionOfName_of_reverse hreverse (by simpa using hdot), if_neg hparts,
      List.reverse_reverse]

/-- The spellings of the extension of source files that have a capital letter. -/
def capitalExtensions : List String := [".CS", ".Cs", ".cS"]

/-- Four extensions are lowered to the one of source files. -/
theorem lower_eq_cs_iff {s : String} :
    Text.lower s = ".cs" ↔ s = ".cs" ∨ s ∈ capitalExtensions := by
  constructor
  · intro h
    have hchars : Text.lowerFrom [] s.toList = ['.', 'c', 's'] := by
      simpa [Text.lower] using congrArg String.toList h
    obtain ⟨dot, rest, hs, hdot, hdotLower, hrest⟩ :=
      (Text.lowerFrom_eq_cons_iff (by decide) (by decide) (by decide)).1 hchars
    obtain ⟨c, rest', rfl, hc, hcLower, hrest'⟩ :=
      (Text.lowerFrom_eq_cons_iff (by decide) (by decide) (by decide)).1 hrest
    obtain ⟨s', rest'', rfl, hs', hsLower, hrest''⟩ :=
      (Text.lowerFrom_eq_cons_iff (by decide) (by decide) (by decide)).1 hrest'
    obtain rfl := Text.lowerFrom_eq_nil_iff.1 hrest''
    obtain rfl := (Text.lowerChar_cases hdot).1 hdotLower
    have hsame : s = String.ofList ['.', c, s'] := by
      rw [← String.toList_inj, hs, String.toList_ofList]
    rw [hsame]
    rcases (Text.lowerChar_cases hc).2.1 hcLower with rfl | rfl
    · rcases (Text.lowerChar_cases hs').2.2 hsLower with rfl | rfl <;> decide
    · rcases (Text.lowerChar_cases hs').2.2 hsLower with rfl | rfl <;> decide
  · rintro (rfl | h)
    · decide
    · revert s
      decide

/-- A source file by its name: there is something before an extension that may be spelled in four ways. -/
theorem isSourceFile_iff {p : Path} : p.isSourceFile = true ↔
    ∃ stem ending, stem ≠ "" ∧ (ending = ".cs" ∨ ending ∈ capitalExtensions) ∧
      p.name = stem ++ ending := by
  have hletters : ∀ ending ∈ ".cs" :: capitalExtensions, ∃ tail : List Char, tail ≠ [] ∧ '.' ∉ tail ∧
      ending = String.ofList ('.' :: tail) := by
    intro ending h
    refine ⟨ending.toList.tail, ?_⟩
    revert ending
    decide
  rw [isSourceFile, beq_iff_eq, lower_eq_cs_iff, extension]
  constructor
  · intro h
    obtain ⟨tail, hne, hdot, htail⟩ := hletters _ (List.mem_cons.2 h)
    obtain ⟨stem, hstem, hname⟩ := (extensionOfName_eq_iff hne hdot).1 htail
    rw [← htail] at hname
    exact ⟨stem, _, hstem, h, hname⟩
  · rintro ⟨stem, ending, hstem, h, hname⟩
    obtain ⟨tail, hne, hdot, rfl⟩ := hletters _ (List.mem_cons.2 h)
    rwa [(extensionOfName_eq_iff hne hdot).2 ⟨stem, hstem, hname⟩]

/-! ## Where the two tests differ -/

/-- The names on which the two tests differ. -/
def IsToldApart (name : String) : Prop :=
  name = ".cs" ∨ ∃ stem ending, stem ≠ "" ∧ ending ∈ capitalExtensions ∧ name = stem ++ ending

/-- The extensions are equally long, so a name cannot have two of them. -/
theorem append_extension_inj {stem stem' ending ending' : String}
    (h : ending ∈ ".cs" :: capitalExtensions) (h' : ending' ∈ ".cs" :: capitalExtensions)
    (heq : stem ++ ending = stem' ++ ending') : stem = stem' ∧ ending = ending' := by
  have hlength : ∀ e ∈ ".cs" :: capitalExtensions, e.toList.length = 3 := by decide
  have hchars := congrArg String.toList heq
  rw [String.toList_append, String.toList_append] at hchars
  have hsplit := List.append_inj' hchars ((hlength ending h).trans (hlength ending' h').symm)
  rwa [String.toList_inj, String.toList_inj] at hsplit

/-- The two tests agree on a name unless it is told apart. -/
theorem hasTrail_iff_isSourceFile {p : Path} :
    (Text.hasTrail ".cs" p.name = true ↔ p.isSourceFile = true) ↔ ¬IsToldApart p.name := by
  rw [Text.hasTrail_eq_true_iff, isSourceFile_iff]
  constructor
  · rintro hsame (hdotted | ⟨stem, ending, hstem, hending, hname⟩)
    · obtain ⟨stem, ending, hstem, hending, hname⟩ := hsame.1 ⟨"", hdotted⟩
      have hsplit : "" ++ ".cs" = stem ++ ending := hdotted.symm.trans hname
      have hempty := append_extension_inj List.mem_cons_self (List.mem_cons.2 hending) hsplit
      exact hstem hempty.1.symm
    · obtain ⟨stem', hname'⟩ := hsame.2 ⟨stem, ending, hstem, .inr hending, hname⟩
      have hsplit := append_extension_inj List.mem_cons_self (List.mem_cons_of_mem _ hending)
        (hname'.symm.trans hname)
      rw [← hsplit.2] at hending
      exact absurd hending (by decide)
  · intro hplain
    constructor
    · rintro ⟨stem, hname⟩
      refine ⟨stem, ".cs", ?_, .inl rfl, hname⟩
      rintro rfl
      exact hplain (.inl hname)
    · rintro ⟨stem, ending, hstem, rfl | hending, hname⟩
      · exact ⟨stem, hname⟩
      · exact absurd (.inr ⟨stem, ending, hstem, hending, hname⟩) hplain

theorem name_extend (p : Path) {steps : List String} (h : steps ≠ []) :
    (p.extend steps).name = steps.getLast h := by
  rw [name, extend, List.getLastD_eq_getLast?, List.getLast?_append_of_ne_nil _ h,
    List.getLast?_eq_some_getLast h, Option.getD_some]

end Path

namespace Discovery

open FileTree

variable {t : FileTree}

/-- The search below a directory finds a file if its name ends in `.cs`. -/
theorem mem_files_directory_iff (ht : t.IsProper) {d : Path} (hd : d.IsSound)
    (hdirectory : t.isDirectory d = true) {steps : List String} (hne : steps ≠ [])
    {bytes : List UInt8} (hfile : t.entryAt? ((place t.here d).extend steps) = some (.file bytes)) :
    d.extend steps ∈ (ofInputs t [d]).files ↔
      Text.hasTrail ".cs" (d.extend steps).name = true := by
  have hinputs : ∀ i ∈ [d], i.IsSound := by simpa using hd
  have hnames : ((place t.here d).extend steps).name = (d.extend steps).name := by
    rw [Path.name_extend _ hne, Path.name_extend _ hne]
  rw [mem_files_iff hinputs ht.sound, mem_found_iff]
  simp only [List.mem_singleton, exists_eq_left, hdirectory, true_and, Bool.true_eq_false, false_and,
    or_false]
  rw [mem_sourceFilesBelow_iff ht, ← hnames]
  constructor
  · rintro ⟨-, steps', bytes', -, -, hname, heq⟩
    rwa [(d.extend_inj).1 heq]
  · intro hname
    exact ⟨(isDirectory_iff.1 hdirectory).1, steps, bytes, hne, hfile, hname, rfl⟩

/-- A file that is given is accepted if it is a source file by its name. -/
theorem mem_files_file_iff (ht : t.IsProper) {f : Path} (hf : f.IsSound)
    (hfile : t.isDirectory f = false) :
    f ∈ (ofInputs t [f]).files ↔ f.isSourceFile = true := by
  have hinputs : ∀ i ∈ [f], i.IsSound := by simpa using hf
  rw [mem_files_iff hinputs ht.sound, mem_found_iff]
  simp [hfile]

/-- A file below a directory is found by the search below it if and only if it is accepted when it is
given itself, unless its name is told apart. -/
theorem found_iff_given (ht : t.IsProper) {d : Path} (hd : d.IsSound)
    (hdirectory : t.isDirectory d = true) {steps : List String} (hne : steps ≠ [])
    {bytes : List UInt8} (hfile : t.entryAt? ((place t.here d).extend steps) = some (.file bytes)) :
    (d.extend steps ∈ (ofInputs t [d.extend steps]).files ↔ (d.extend steps).isSourceFile = true) ∧
      ((d.extend steps ∈ (ofInputs t [d]).files ↔
        d.extend steps ∈ (ofInputs t [d.extend steps]).files) ↔
          ¬Path.IsToldApart (d.extend steps).name) := by
  have hreach := (isDirectory_iff.1 hdirectory).1
  obtain ⟨hreaches, hplace⟩ := ht.reaches_extend hreach hfile
  have hnot : t.isDirectory (d.extend steps) = false := by
    rw [← Bool.not_eq_true, isDirectory_iff, hplace, hfile]
    simp
  have hsound : (d.extend steps).IsSound := by
    have hstored : ((place t.here d).extend steps).IsSound := ht.sound _ (IsProper.mem_of_file hfile)
    intro c hc
    rcases List.mem_append.1 hc with hc | hc
    · exact hd c hc
    · exact hstored c (List.mem_append_right _ hc)
  have hgiven := mem_files_file_iff ht hsound hnot
  refine ⟨hgiven, ?_⟩
  rw [hgiven, mem_files_directory_iff ht hd hdirectory hne hfile]
  exact Path.hasTrail_iff_isSourceFile

/-! A file with two dots in a directory of its own, and files of the two kinds that are told apart. -/

private def sources : Path := ⟨0, ["m"]⟩

private def dottedTree : FileTree :=
  ⟨[], [(⟨1, ["m"]⟩, .directory), (⟨1, ["m", "a"]⟩, .directory), (⟨1, ["m", "a", "I.Z.cs"]⟩, .file [])]⟩

private def oddTree : FileTree :=
  ⟨[], [(⟨1, ["m"]⟩, .directory), (⟨1, ["m", "A.CS"]⟩, .file []), (⟨1, ["m", ".cs"]⟩, .file [])]⟩

private theorem isProper_dottedTree : dottedTree.IsProper where
  here := by decide
  nodup := by decide
  inside := by decide
  canonical := by decide
  sound := by decide
  parents := by decide

theorem found_iff_given_dotted :
    dottedTree.IsProper ∧ dottedTree.isDirectory sources = true ∧
      dottedTree.entryAt? ((place [] sources).extend ["a", "I.Z.cs"]) = some (.file []) ∧
        ¬Path.IsToldApart (sources.extend ["a", "I.Z.cs"]).name ∧
          sources.extend ["a", "I.Z.cs"] ∈
            (ofInputs dottedTree [sources.extend ["a", "I.Z.cs"]]).files ∧
            sources.extend ["a", "I.Z.cs"] ∈ (ofInputs dottedTree [sources]).files := by
  have hdirectory : dottedTree.isDirectory sources = true := by decide
  have hfile : dottedTree.entryAt? ((place [] sources).extend ["a", "I.Z.cs"]) = some (.file []) := by
    decide
  obtain ⟨hgiven, hsame⟩ :=
    found_iff_given isProper_dottedTree (by decide) hdirectory (by decide) hfile
  have hplain : ¬Path.IsToldApart (sources.extend ["a", "I.Z.cs"]).name :=
    Path.hasTrail_iff_isSourceFile.1 (iff_of_true (by decide) (by decide))
  have hsource : sources.extend ["a", "I.Z.cs"] ∈
      (ofInputs dottedTree [sources.extend ["a", "I.Z.cs"]]).files := hgiven.2 (by decide)
  exact ⟨isProper_dottedTree, hdirectory, hfile, hplain, hsource, (hsame.2 hplain).2 hsource⟩

/-- The search leaves out a file that is accepted when it is given, and finds one that is not. -/
theorem odd_names_told_apart :
    (ofInputs oddTree [sources]).files = [⟨0, ["m", ".cs"]⟩] ∧
      (ofInputs oddTree [⟨0, ["m", "A.CS"]⟩]).files = [⟨0, ["m", "A.CS"]⟩] ∧
        Path.isSourceFile ⟨0, ["m", "A.CS"]⟩ = true ∧
          (ofInputs oddTree [⟨0, ["m", ".cs"]⟩]).files = [] ∧
            Path.isSourceFile ⟨0, ["m", ".cs"]⟩ = false := by
  decide +kernel

end Discovery

end PlatformClasses
