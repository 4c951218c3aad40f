import PlatformClasses.Path

/-!
# File names below directories

A file goes to the path that its directory and its name are joined to.  The name is a class name, which
begins with a letter and holds no slash, followed by an ending that may be any text.  So the joined path
keeps the directory in front and the class name in the first component after it, and both can be read
back: `join_classFile_inj`.
-/

namespace PlatformClasses

namespace Text

/-- A text without the separator is one piece. -/
theorem piecesOf_of_not_mem {separator : Char} {cs : List Char} (h : separator ∉ cs) :
    piecesOf separator cs = [cs] := by
  induction cs with
  | nil => rfl
  | cons c rest ih =>
      simp only [List.mem_cons, not_or] at h
      simp [piecesOf, Ne.symm h.1, ih h.2]

/-- Text without separators goes to the front of the first piece. -/
theorem piecesOf_append {separator : Char} {xs : List Char} (h : separator ∉ xs) (ys : List Char)
    {piece : List Char} {pieces : List (List Char)}
    (hys : piecesOf separator ys = piece :: pieces) :
    piecesOf separator (xs ++ ys) = (xs ++ piece) :: pieces := by
  induction xs with
  | nil => exact hys
  | cons x xs ih =>
      simp only [List.mem_cons, not_or] at h
      simp [piecesOf, Ne.symm h.1, ih h.2]

/-- No piece holds the separator. -/
theorem not_mem_of_mem_piecesOf {separator : Char} {cs piece : List Char}
    (h : piece ∈ piecesOf separator cs) : separator ∉ piece := by
  induction cs generalizing piece with
  | nil =>
      obtain rfl : piece = [] := by simpa [piecesOf] using h
      simp
  | cons c rest ih =>
      unfold piecesOf at h
      split at h
      · rcases List.mem_cons.1 h with rfl | h
        · simp
        · exact ih h
      · next hc =>
        split at h
        · next first more hpieces =>
          rcases List.mem_cons.1 h with rfl | h
          · have hfirst : separator ∉ first := ih (by rw [hpieces]; exact List.mem_cons_self)
            simp only [List.mem_cons, not_or]
            exact ⟨fun heq => hc (by simp [heq]), hfirst⟩
          · exact ih (by rw [hpieces]; exact List.mem_cons_of_mem first h)
        · next hpieces => exact absurd hpieces (piecesOf_ne_nil separator rest)

end Text

namespace Path

/-- A text that is one component of a path. -/
structure IsComponent (s : String) : Prop where
  isStep : isStep s = true
  noSlash : '/' ∉ s.toList

/-- A component is read as the path that it is alone. -/
theorem ofString_of_isComponent {s : String} (h : IsComponent s) : ofString s = ⟨0, [s]⟩ := by
  have hanchor : anchorOf s = 0 := by
    cases hcs : s.toList with
    | nil => simp [anchorOf, hcs]
    | cons c rest =>
        have hc : c ≠ '/' := by
          rintro rfl
          exact h.noSlash (by simp [hcs])
        simp [anchorOf, hcs, hc]
  have hpieces : Text.pieces '/' s = [s] := by
    rw [Text.pieces, Text.piecesOf_of_not_mem h.noSlash]
    simp
  rw [ofString, hanchor, hpieces, List.filter_cons_of_pos h.isStep, List.filter_nil]

/-- What is read from a text are components. -/
theorem isComponent_of_mem_ofString {s component : String}
    (h : component ∈ (ofString s).components) : IsComponent component := by
  obtain ⟨hmem, hstep⟩ := List.mem_filter.1 h
  obtain ⟨piece, hpiece, rfl⟩ := List.mem_map.1 hmem
  refine ⟨hstep, ?_⟩
  rw [String.toList_ofList]
  exact Text.not_mem_of_mem_piecesOf hpiece

/-- A path is found again by its name below its parent. -/
def EndsInName (p : Path) : Prop := p.parent.join p.name = p

theorem endsInName_of_isComponent {p : Path} (above : List String) {last : String}
    (hp : p.components = above ++ [last]) (hlast : IsComponent last) : p.EndsInName := by
  have hname : p.name = last := by simp [name, hp]
  rw [EndsInName, join, hname, ofString_of_isComponent hlast]
  simp only [append, parent, hp, List.dropLast_concat, if_true]
  rw [← hp]

theorem hasNull_parent {p : Path} (h : p.hasNull = false) : p.parent.hasNull = false := by
  simp only [hasNull, List.any_eq_false] at h ⊢
  exact fun c hc => h c (List.dropLast_subset _ hc)

/-! ## Going on from a directory -/

/-- The path that goes on from a directory by some steps. -/
def extend (d : Path) (steps : List String) : Path := ⟨d.anchor, d.components ++ steps⟩

@[simp] theorem extend_extend (d : Path) (xs ys : List String) :
    (d.extend xs).extend ys = d.extend (xs ++ ys) := by
  simp [extend]

/-- Paths from one directory on are told apart by their steps. -/
theorem extend_inj (d : Path) {xs ys : List String} : d.extend xs = d.extend ys ↔ xs = ys := by
  simp [extend]

/-! ## Files of classes -/

/-- A text that begins like a class name: with a character that is neither a slash nor a dot. -/
def BeginsName (s : String) : Prop :=
  ∃ c rest, s.toList = c :: rest ∧ c ≠ '/' ∧ c ≠ '.'

theorem anchorOf_of_beginsName {s : String} (h : BeginsName s) : anchorOf s = 0 := by
  obtain ⟨c, rest, hs, hslash, -⟩ := h
  simp [anchorOf, hs, hslash]

/-- An ending does not change how a text begins. -/
theorem BeginsName.append {s : String} (h : BeginsName s) (extra : String) :
    BeginsName (s ++ extra) := by
  obtain ⟨c, rest, hs, hc⟩ := h
  exact ⟨c, rest ++ extra.toList, by simp [hs], hc⟩

/-- What begins like a name leads somewhere. -/
theorem isStep_of_beginsName {s : String} (h : BeginsName s) : isStep s = true := by
  obtain ⟨c, rest, hs, -, hdot⟩ := h
  have hempty : s ≠ "" := by
    rintro rfl
    simp at hs
  have hone : s ≠ "." := by
    rintro rfl
    simp at hs
    exact hdot hs.1.symm
  simp [isStep, hempty, hone]

/-- The file name has at least one component, and a file below a directory has the name last. -/
theorem endsInName_of_beginsName (directory : Path) {fileName : String}
    (h : BeginsName fileName) : (directory.join fileName).EndsInName := by
  have hanchor : (ofString fileName).anchor = 0 := anchorOf_of_beginsName h
  have hcomponents : (directory.join fileName).components =
      directory.components ++ (ofString fileName).components := by
    rw [join, components_append_of_relative hanchor]
  have hne : (ofString fileName).components ≠ [] := by
    obtain ⟨c, rest, hs, hslash, hdot⟩ := h
    obtain ⟨piece, pieces, hrest⟩ :
        ∃ piece pieces, Text.piecesOf '/' rest = piece :: pieces := by
      cases hrest : Text.piecesOf '/' rest with
      | nil => exact absurd hrest (Text.piecesOf_ne_nil '/' rest)
      | cons piece pieces => exact ⟨piece, pieces, rfl⟩
    have hfirst : isStep (String.ofList (c :: piece)) = true :=
      isStep_of_beginsName ⟨c, piece, by simp, hslash, hdot⟩
    have hpieces : Text.pieces '/' fileName =
        String.ofList (c :: piece) :: pieces.map String.ofList := by
      have hc : '/' ∉ [c] := by simpa using hslash.symm
      have hall := Text.piecesOf_append hc rest hrest
      simp only [List.singleton_append] at hall
      simp [Text.pieces, hs, hall]
    show (Text.pieces '/' fileName).filter isStep ≠ []
    rw [hpieces, List.filter_cons_of_pos hfirst]
    exact List.cons_ne_nil _ _
  have hlast : (directory.join fileName).components =
      (directory.components ++ (ofString fileName).components.dropLast) ++
        [(ofString fileName).components.getLast hne] := by
    rw [hcomponents, List.append_assoc, List.dropLast_concat_getLast]
  exact endsInName_of_isComponent _ hlast (isComponent_of_mem_ofString (List.getLast_mem hne))

/-- A text that is a class name as far as paths are concerned. -/
structure IsClassName (s : String) : Prop where
  begins : BeginsName s
  noSlash : '/' ∉ s.toList

theorem IsClassName.append {s extra : String} (h : IsClassName s) (hextra : '/' ∉ extra.toList) :
    IsClassName (s ++ extra) where
  begins := h.begins.append extra
  noSlash := by simp [h.noSlash, hextra]

/-- What comes after the class name depends on the ending alone. -/
theorem ofString_classFile {className : String} (h : IsClassName className) (ending : String)
    {piece : List Char} {pieces : List (List Char)}
    (hending : Text.piecesOf '/' ending.toList = piece :: pieces) :
    ofString (className ++ ending) =
      ⟨0, (className ++ String.ofList piece) :: (pieces.map String.ofList).filter isStep⟩ := by
  have hanchor : anchorOf (className ++ ending) = 0 :=
    anchorOf_of_beginsName (h.begins.append ending)
  have hfirst : isStep (className ++ String.ofList piece) = true :=
    isStep_of_beginsName (h.begins.append _)
  have hpieces : Text.pieces '/' (className ++ ending) =
      (className ++ String.ofList piece) :: pieces.map String.ofList := by
    rw [Text.pieces, String.toList_append, Text.piecesOf_append h.noSlash _ hending,
      List.map_cons]
    congr 1
    rw [← String.toList_inj]
    simp
  rw [ofString, hanchor, hpieces, List.filter_cons_of_pos hfirst]

/-- Files of two classes are the same only if both the directories and the classes are. -/
theorem join_classFile_inj {d d' : Path} {className className' : String}
    (h : IsClassName className) (h' : IsClassName className') (ending : String) :
    d.join (className ++ ending) = d'.join (className' ++ ending) ↔
      d = d' ∧ className = className' := by
  constructor
  · intro heq
    cases hending : Text.piecesOf '/' ending.toList with
    | nil => exact absurd hending (Text.piecesOf_ne_nil '/' _)
    | cons piece pieces =>
        rw [join, join, ofString_classFile h ending hending, ofString_classFile h' ending hending]
          at heq
        simp only [append, if_true, Path.mk.injEq] at heq
        obtain ⟨hanchor, hcomponents⟩ := heq
        obtain ⟨hdirectory, hfile⟩ := List.append_inj' hcomponents rfl
        have hname : className = className' := by
          have := (List.cons.inj hfile).1
          exact (String.append_left_inj _).1 this
        refine ⟨?_, hname⟩
        cases d
        cases d'
        simp_all
  · rintro ⟨rfl, rfl⟩
    rfl

end Path

end PlatformClasses
