import PlatformClasses.Proofs.Target.Placement

/-!
# Namespaces by their segments

Whether a namespace lies in a root, what it is mapped to and where its files go is decided on the text: by
what follows the root in it, which is nothing or a dot and more.  Here the same is said by segments.
What follows a root is the segments after those of the root, each after a dot
(`below?_eq_some_iff_pieces`), so a name that merely begins like the root does not lie in it, and nothing
is lost where a segment is empty.

Mapping therefore replaces the segments of the one root by those of the other and keeps the remaining
ones, which are also the steps to the directory of the files (`mapNamespace_segments`).
-/

namespace PlatformClasses

namespace Text

/-! ## Segments and dots -/

theorem dotted_append (xs ys : List String) : dotted (xs ++ ys) = dotted xs ++ dotted ys := by
  induction xs with
  | nil => simp [dotted]
  | cons x xs ih => simp [dotted, ih, String.append_assoc]

theorem noDot_of_mem_pieces {s text : String} (h : s ∈ pieces '.' text) : '.' ∉ s.toList := by
  obtain ⟨piece, hpiece, rfl⟩ := List.mem_map.1 h
  rw [String.toList_ofList]
  exact not_mem_of_mem_piecesOf hpiece

theorem pieces_of_noDot {s : String} (h : '.' ∉ s.toList) : pieces '.' s = [s] := by
  rw [pieces, piecesOf_of_not_mem h]
  simp

/-- Segments that are put after a text follow those of the text. -/
theorem pieces_append_dotted (text : String) {more : List String}
    (h : ∀ s ∈ more, '.' ∉ s.toList) :
    pieces '.' (text ++ dotted more) = pieces '.' text ++ more := by
  induction more generalizing text with
  | nil => simp [dotted]
  | cons s rest ih =>
      have hs : pieces '.' s = [s] := pieces_of_noDot (h s List.mem_cons_self)
      have hrest := ih (text ++ ("." ++ s)) fun s' hs' => h s' (List.mem_cons_of_mem s hs')
      show pieces '.' (text ++ ("." ++ s ++ dotted rest)) = pieces '.' text ++ s :: rest
      rw [← String.append_assoc, hrest, pieces_append_dot, hs, List.append_assoc]
      rfl

/-- A text whose segments go on from those of another one goes on from it. -/
theorem eq_append_dotted_of_pieces {text name : String} {more : List String}
    (h : pieces '.' name = pieces '.' text ++ more) : name = text ++ dotted more := by
  have hdotted : "." ++ name = "." ++ (text ++ dotted more) := by
    rw [← dotted_pieces, h, dotted_append, dotted_pieces, String.append_assoc]
  exact (String.append_right_inj _).1 hdotted

end Text

namespace Target

open Text (dotted pieces)

/-! ## What lies in a root -/

theorem below?_append_dotted (root : String) (more : List String) :
    below? root (root ++ dotted more) = some (dotted more) := by
  cases more with
  | nil => simp [below?, dotted]
  | cons s rest =>
      have hlonger : root ++ dotted (s :: rest) ≠ root := by
        intro heq
        have hblank := (String.append_right_inj root).1 (heq.trans (String.append_empty).symm)
        simp [dotted] at hblank
      have hafter : Text.afterLead? (root ++ ".") (root ++ dotted (s :: rest)) =
          some (s ++ dotted rest) := by
        rw [Text.afterLead?_eq_some_iff]
        simp [dotted, String.append_assoc]
      rw [below?, if_neg hlonger, hafter]
      simp [dotted, String.append_assoc]

/-- What follows a root in a namespace is the segments after those of the root, each after a dot. -/
theorem below?_eq_some_iff_pieces {root nameSpace rest : String} :
    below? root nameSpace = some rest ↔
      ∃ remaining, pieces '.' nameSpace = pieces '.' root ++ remaining ∧ rest = dotted remaining := by
  constructor
  · intro h
    obtain ⟨rfl, hrest⟩ := eq_append_of_below? h
    rcases hrest with rfl | ⟨more, rfl⟩
    · exact ⟨[], by simp, rfl⟩
    · exact ⟨pieces '.' more, Text.pieces_append_dot root more, (Text.dotted_pieces more).symm⟩
  · rintro ⟨remaining, hpieces, rfl⟩
    rw [Text.eq_append_dotted_of_pieces hpieces]
    exact below?_append_dotted root remaining

/-- A namespace lies below a root if the segments of the root come first. -/
theorem isSome_below?_iff {root nameSpace : String} :
    (below? root nameSpace).isSome = true ↔ pieces '.' root <+: pieces '.' nameSpace := by
  rw [Option.isSome_iff_exists]
  constructor
  · rintro ⟨rest, hrest⟩
    obtain ⟨remaining, hpieces, -⟩ := below?_eq_some_iff_pieces.1 hrest
    exact ⟨remaining, hpieces.symm⟩
  · rintro ⟨remaining, hpieces⟩
    exact ⟨_, below?_eq_some_iff_pieces.2 ⟨remaining, hpieces.symm, rfl⟩⟩

theorem below?_eq_none {root nameSpace : String} (h : ¬pieces '.' root <+: pieces '.' nameSpace) :
    below? root nameSpace = none := by
  rwa [← isSome_below?_iff, Bool.not_eq_true, Option.isSome_eq_false_iff,
    Option.isNone_iff_eq_none] at h

/-! ## Directories -/

/-- The directory for segments in a project: in the directory of generated files, one step for each
segment that is not empty. -/
def directoryBelow (t : Target) (project : String) (segments : List String) : Path :=
  (segments.filter (· != "")).foldl Path.join ((t.outputRoot.join project).join t.generatedDirectory)

/-- A dotted name leads through its segments. -/
theorem directoryIn_dotted (t : Target) (project : String) {segments : List String}
    (h : ∀ s ∈ segments, '.' ∉ s.toList) :
    t.directoryIn project (dotted segments) = t.directoryBelow project segments := by
  have hpieces : pieces '.' (dotted segments) = "" :: segments := by
    have hcut := Text.pieces_append_dotted "" h
    rw [String.empty_append, Text.pieces_of_noDot (s := "") (by simp)] at hcut
    exact hcut
  rw [directoryIn, hpieces, List.filter_cons_of_neg (by simp)]
  rfl

/-- Without slashes, each segment that is not empty is a directory of its own. -/
theorem directoryBelow_eq_extend (t : Target) (project : String) {segments : List String}
    (hdots : ∀ s ∈ segments, '.' ∉ s.toList) (hslashes : ∀ s ∈ segments, '/' ∉ s.toList) :
    t.directoryBelow project segments =
      (t.generatedIn project).extend (segments.filter (· != "")) := by
  apply Path.foldl_join
  intro s hs
  obtain ⟨hmem, hnonempty⟩ := List.mem_filter.1 hs
  have hsegment : IsSegment s := ⟨by simpa using hnonempty, hdots s hmem, hslashes s hmem⟩
  exact hsegment.isComponent

/-! ## Mapping -/

/-- What is made of a namespace by the segments that remain after those of the root. -/
structure IsMappedBy (t : Target) (nameSpace : String) (remaining : List String) (mapped : String) :
    Prop where
  maps : t.mapNamespace nameSpace = .ok mapped
  segments : pieces '.' mapped = pieces '.' t.platform.destinationRoot ++ remaining
  /-- No other namespace is mapped to the same one. -/
  injective : ∀ other, t.mapNamespace other = .ok mapped → other = nameSpace
  directory : t.directoryOf mapped = .ok (t.directoryBelow t.platform.projectDirectory remaining)
  /-- A namespace that does not itself lie in the root of the platform has the same directory in the
  shared project. -/
  sharedDirectory : ¬pieces '.' t.platform.destinationRoot <+: pieces '.' nameSpace →
    t.directoryOf nameSpace = .ok (t.directoryBelow t.sharedProject remaining)
  /-- The directory in any project goes on by the remaining segments that are not empty. -/
  steps : (∀ s ∈ remaining, '/' ∉ s.toList) → ∀ project, t.directoryBelow project remaining =
    (t.generatedIn project).extend (remaining.filter (· != ""))

/-- A namespace is mapped if it lies below the root, and what follows the root is kept. -/
theorem mapNamespace_eq_ok_iff {t : Target} {nameSpace mapped : String} :
    t.mapNamespace nameSpace = .ok mapped ↔ ∃ rest, below? t.rootNamespace nameSpace = some rest ∧
      mapped = t.platform.destinationRoot ++ rest := by
  unfold mapNamespace
  cases below? t.rootNamespace nameSpace with
  | none => simp
  | some rest => simp [eq_comm]

/-- Different namespaces are mapped to different ones. -/
theorem mapNamespace_injective {t : Target} {nameSpace nameSpace' mapped : String}
    (h : t.mapNamespace nameSpace = .ok mapped) (h' : t.mapNamespace nameSpace' = .ok mapped) :
    nameSpace = nameSpace' := by
  obtain ⟨rest, hrest, rfl⟩ := mapNamespace_eq_ok_iff.1 h
  obtain ⟨rest', hrest', hmapped⟩ := mapNamespace_eq_ok_iff.1 h'
  obtain rfl : rest = rest' := (String.append_right_inj _).1 hmapped
  rw [(eq_append_of_below? hrest).1, (eq_append_of_below? hrest').1]

/-- A namespace below the root is mapped segment by segment. -/
theorem isMappedBy_of_pieces {t : Target} {nameSpace : String} {remaining : List String}
    (h : pieces '.' nameSpace = pieces '.' t.rootNamespace ++ remaining) :
    t.IsMappedBy nameSpace remaining (t.platform.destinationRoot ++ dotted remaining) := by
  have hdots : ∀ s ∈ remaining, '.' ∉ s.toList := by
    intro s hs
    have hmem : s ∈ pieces '.' nameSpace := by
      rw [h]
      exact List.mem_append_right _ hs
    exact Text.noDot_of_mem_pieces hmem
  have hbelow : below? t.rootNamespace nameSpace = some (dotted remaining) :=
    below?_eq_some_iff_pieces.2 ⟨remaining, h, rfl⟩
  have hmapped : t.mapNamespace nameSpace = .ok (t.platform.destinationRoot ++ dotted remaining) :=
    mapNamespace_eq_ok_iff.2 ⟨_, hbelow, rfl⟩
  constructor
  case maps => exact hmapped
  case segments => exact Text.pieces_append_dotted _ hdots
  case injective => exact fun other hother => mapNamespace_injective hother hmapped
  case directory => rw [directoryOf, below?_append_dotted, ← directoryIn_dotted t _ hdots]
  case sharedDirectory =>
    intro hother
    simp only [directoryOf, below?_eq_none hother, hbelow, directoryIn_dotted t _ hdots]
  case steps => exact fun hslashes project => directoryBelow_eq_extend t project hdots hslashes

/-- A namespace lies in the root namespace if and only if its segments go on from those of the root.
Then it is mapped to the segments of the platform's root with the remaining ones after them, no other
namespace is mapped to the same one, and the remaining segments lead to the directory of the files.  Every
other namespace is refused by a fault of the configuration that is about it. -/
theorem mapNamespace_segments (t : Target) (nameSpace : String) :
    (t.isUnderRoot nameSpace = true ↔ pieces '.' t.rootNamespace <+: pieces '.' nameSpace) ∧
      (∀ remaining, pieces '.' nameSpace = pieces '.' t.rootNamespace ++ remaining →
        ∃ mapped, t.IsMappedBy nameSpace remaining mapped) ∧
      (¬pieces '.' t.rootNamespace <+: pieces '.' nameSpace →
        ∃ fault, t.mapNamespace nameSpace = .error fault ∧ fault.category = .configuration ∧
          fault.subject = nameSpace) := by
  refine ⟨isSome_below?_iff, fun remaining h => ⟨_, isMappedBy_of_pieces h⟩, ?_⟩
  intro hother
  refine ⟨.foreignNamespace nameSpace t.rootNamespace, ?_, rfl, rfl⟩
  rw [mapNamespace, below?_eq_none hother]

/-! The default root, which the roots of the platforms lie in. -/

/-- A namespace with empty segments, and one that only begins like the root. -/
theorem mapNamespace_segments_of_shapes :
    let shapes := "Microsoft.StandardUI.Shapes..Paths."
    let mapped := "Microsoft.StandardUI.Wpf.Shapes..Paths."
    wpfSrc.isUnderRoot shapes = true ∧
      wpfSrc.mapNamespace shapes = .ok mapped ∧
      wpfSrc.directoryOf mapped =
        .ok ⟨0, ["src", "StandardUI.WPF", "generated", "Shapes", "Paths"]⟩ ∧
      wpfSrc.directoryOf shapes = .ok ⟨0, ["src", "StandardUI", "generated", "Shapes", "Paths"]⟩ ∧
      ∃ fault, wpfSrc.mapNamespace "Microsoft.StandardUIExtra" = .error fault ∧
        fault.subject = "Microsoft.StandardUIExtra" := by
  intro shapes mapped
  obtain ⟨hunder, hinside, -⟩ := mapNamespace_segments wpfSrc shapes
  obtain ⟨-, -, houtside⟩ := mapNamespace_segments wpfSrc "Microsoft.StandardUIExtra"
  have hremaining : pieces '.' shapes =
      pieces '.' wpfSrc.rootNamespace ++ ["Shapes", "", "Paths", ""] := by
    decide +kernel
  obtain ⟨mapped', hmapped⟩ := hinside _ hremaining
  obtain rfl : mapped' = mapped := by
    have hsegments : pieces '.' mapped = pieces '.' wpfSrc.platform.destinationRoot ++
        ["Shapes", "", "Paths", ""] := by
      decide +kernel
    rw [Text.eq_append_dotted_of_pieces hmapped.segments, Text.eq_append_dotted_of_pieces hsegments]
  obtain ⟨fault, hfault, -, hsubject⟩ := houtside (by decide +kernel)
  refine ⟨hunder.2 ⟨_, hremaining.symm⟩, hmapped.maps, ?_, ?_, fault, hfault, hsubject⟩
  · rw [hmapped.directory]
    decide +kernel
  · rw [hmapped.sharedDirectory (by decide +kernel)]
    decide +kernel

end Target

end PlatformClasses
