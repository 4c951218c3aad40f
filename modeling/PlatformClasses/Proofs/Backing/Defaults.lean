import PlatformClasses.Backing
import PlatformClasses.Proofs.Outcome
import PlatformClasses.Proofs.TypeRef.RoundTrip

/-!
# Default values of arrays

Where no default value is asked for, the default values that are empty arrays are those of the array types
(`isEmptyArray_defaultValue_none_iff`).  Ranks stand outermost first, so the elements of an array have the
type with its first rank taken away, and an empty array of that type has one dimension.  The element type
of a default value is the type with its last rank taken away.  So the default value has the type that it
is for if and only if no rank of the type has a comma or anything else in it (`emptyArray_fits_iff`).
-/

namespace PlatformClasses

/-- Classes for Windows Presentation Foundation below `out`, with the usual settings. -/
def Target.wpfOut : Target where
  platform := .wpf
  outputRoot := ⟨0, ["out"]⟩

namespace TypeRef

/-! ## Types by their ranks -/

/-- The reference without its ranks. -/
def base : TypeRef → TypeRef
  | mk name arguments nullable _ => mk name arguments nullable []

/-- A type is written as its base and its ranks. -/
theorem render_eq_append (t : TypeRef) : t.render = t.base.render ++ rankText t.ranks := by
  cases t
  simp [render, base, TypeRef.ranks, rankText]

/-- The type of the elements is written without the last rank. -/
theorem render_elementType (t : TypeRef) :
    t.elementType.render = t.base.render ++ rankText t.ranks.dropLast := by
  cases t
  exact render_eq_append _

/-- Mapping names keeps the ranks. -/
theorem ranks_mapNames (f : String → Bool → String) (t : TypeRef) :
    (t.mapNames f).ranks = t.ranks := by
  cases t
  rfl

theorem isArray_mapNames (f : String → Bool → String) (t : TypeRef) :
    (t.mapNames f).isArray = t.isArray := by
  rw [isArray, isArray, ranks_mapNames]

theorem areRanks_of_isWritable : ∀ {t : TypeRef}, t.isWritable = true → t.ranks.all isRank = true
  | mk .., h => (Bool.and_eq_true_iff.1 h).2

/-- Ranks that can be written are told apart by their text. -/
theorem rankText_inj {ranks ranks' : List String} (h : ranks.all isRank = true)
    (h' : ranks'.all isRank = true) (heq : rankText ranks = rankText ranks') : ranks = ranks' := by
  have hparse : ∀ rs : List String, rs.all isRank = true →
      parse ("_" ++ rankText rs) = .ok (mk "_" [] false rs) := by
    intro rs hrs
    have hwritable : (mk "_" [] false rs).isWritable = true := by
      rw [isWritable, hrs]
      decide +kernel
    have hrender : render (mk "_" [] false rs) = "_" ++ rankText rs := by
      simp [render, renderArguments]
    rw [← hrender]
    exact parse_render_of_isWritable hwritable
  have hsame := hparse ranks' h'
  rw [← heq, hparse ranks h, Except.ok.injEq, mk.injEq] at hsame
  exact hsame.2.2.2

end TypeRef

/-- An expression that makes an empty array. -/
def IsEmptyArray (expression : String) : Prop :=
  ∃ elementType : String, expression = s!"Array.Empty<{elementType}>()"

namespace IsEmptyArray

theorem head {expression : String} (h : IsEmptyArray expression) :
    expression.toList.head? = some 'A' := by
  obtain ⟨elementType, rfl⟩ := h
  simp [ToString.toString]

theorem last {expression : String} (h : IsEmptyArray expression) :
    expression.toList.getLast? = some ')' := by
  obtain ⟨elementType, rfl⟩ := h
  simp [ToString.toString, List.getLast?_cons]

end IsEmptyArray

namespace Backing

open TypeRef

/-! ## Default values that are empty arrays -/

/-- A text is backed if it is parsed, by what its type is backed by. -/
theorem ofText_eq_ok {t : Target} {text : String} {b : Backing} :
    ofText t text = .ok b ↔ ∃ type, TypeRef.parse text = .ok type ∧ ofTypeRef t type = b :=
  map_eq_ok

/-- No platform wraps an array. -/
theorem wrapper_of_isArray {t : Target} {text : String} {b : Backing} (h : ofText t text = .ok b)
    (harray : b.isArray = true) : b.wrapper = none := by
  obtain ⟨type, -, rfl⟩ := ofText_eq_ok.1 h
  have hsource : type.isArray = true := by
    rw [← isArray_mapNames t.mapName type]
    exact harray
  simp [ofTypeRef, wrapperOf, hsource]

/-- The default of an array is an empty array of the type of its elements. -/
theorem defaultValue_of_isArray {t : Target} {text : String} {b : Backing}
    (h : ofText t text = .ok b) (harray : b.isArray = true) :
    b.defaultValue none = s!"Array.Empty<{b.destination.elementType.render}>()" := by
  simp [defaultValue, wrapper_of_isArray h harray, harray]

/-- No default of a built-in type is an empty array. -/
theorem not_isEmptyArray_builtInDefault {type : TypeRef} {value : String}
    (h : builtInDefault? type = some value) : ¬IsEmptyArray value := by
  have hheads : ∀ e ∈ builtInDefaults, e.2.toList.head? ≠ some 'A' := by decide +kernel
  unfold builtInDefault? at h
  split at h
  · simp at h
  · obtain ⟨e, hfind, rfl⟩ := Option.map_eq_some_iff.1 h
    exact fun hempty => hheads e (List.mem_of_find?_eq_some hfind) hempty.head

/-- Without a default of its own, a type gets an empty array exactly if it is an array. -/
theorem isEmptyArray_defaultValue_none_iff {t : Target} {text : String} {b : Backing}
    (h : ofText t text = .ok b) : IsEmptyArray (b.defaultValue none) ↔ b.isArray = true := by
  constructor
  · intro hempty
    by_contra hother
    cases hwrapper : b.wrapper with
    | some wrapper =>
        have hlast := hempty.last
        simp [defaultValue, hwrapper, ToString.toString] at hlast
    | none =>
        cases hbuiltIn : builtInDefault? b.destination with
        | some value =>
            refine not_isEmptyArray_builtInDefault hbuiltIn ?_
            simpa [defaultValue, hwrapper, hother, hbuiltIn] using hempty
        | none =>
            have hhead := hempty.head
            simp [defaultValue, hwrapper, hother, hbuiltIn, ToString.toString] at hhead
  · intro harray
    exact ⟨_, defaultValue_of_isArray h harray⟩

/-- A default of its own is an empty array exactly if it says so and is not wrapped. -/
theorem isEmptyArray_defaultValue_some_iff {b : Backing} {value : String} :
    IsEmptyArray (b.defaultValue (some value)) ↔ b.wrapper = none ∧ IsEmptyArray value := by
  cases hwrapper : b.wrapper with
  | none => simp [defaultValue, hwrapper]
  | some wrapper =>
      refine iff_of_false ?_ (by simp)
      intro hempty
      have hhead := hempty.head
      simp [defaultValue, hwrapper, ToString.toString] at hhead

/-! ## The type of an empty array -/

/-- The last and the first of a list can be taken away with the same result only if all are equal. -/
theorem dropLast_cons_eq_iff {α : Type} {first : α} {rest : List α} :
    (first :: rest).dropLast = rest ↔ ∀ a ∈ rest, a = first := by
  induction rest generalizing first with
  | nil => simp
  | cons second rest ih =>
      rw [List.dropLast_cons_cons, List.cons.injEq, List.forall_mem_cons, eq_comm]
      refine and_congr_right ?_
      rintro rfl
      exact ih

/-- The default value of an array has the type that backs the array if and only if all ranks are
empty. -/
theorem emptyArray_fits_iff {t : Target} {text : String} {b : Backing} (h : ofText t text = .ok b)
    {first : String} {rest : List String} (hranks : b.destination.ranks = first :: rest) :
    b.text = b.destination.base.render ++ rankText (first :: rest) ∧
      ∃ elementType : String, b.defaultValue none = s!"Array.Empty<{elementType}>()" ∧
        ((rankText [first] = "[]" ∧ elementType = b.destination.base.render ++ rankText rest) ↔
          ∀ rank ∈ first :: rest, rank = "") := by
  have harray : b.isArray = true := by simp [isArray, TypeRef.isArray, hranks]
  have hareRanks : (first :: rest).all isRank = true := by
    obtain ⟨type, hparse, rfl⟩ := ofText_eq_ok.1 h
    rw [← hranks, ofTypeRef, Target.mapTypeRef, ranks_mapNames]
    exact areRanks_of_isWritable (isWritable_of_parse hparse)
  have hfirst : rankText [first] = "[]" ↔ first = "" := by
    rw [← String.toList_inj, ← String.toList_inj]
    simp [rankText]
  refine ⟨?_, _, defaultValue_of_isArray h harray, ?_⟩
  · rw [Backing.text, wrapper_of_isArray h harray, ← hranks]
    exact render_eq_append _
  · rw [render_elementType, String.append_right_inj, hranks, hfirst, List.forall_mem_cons]
    refine and_congr_right ?_
    rintro rfl
    -- the base is the same, and the text of the ranks determines them
    rw [← dropLast_cons_eq_iff]
    refine ⟨rankText_inj ?_ ?_, congrArg rankText⟩
    · rw [List.all_eq_true] at hareRanks ⊢
      exact fun rank hrank => hareRanks rank (List.dropLast_subset _ hrank)
    · exact (Bool.and_eq_true_iff.1 hareRanks).2

/-! An array of arrays of nullable lists, and one of rectangular arrays. -/

private def listsOfShapes : Backing where
  source := .mk "IList" [.mk "IShape" [] false [","]] true ["", ""]
  destination := .mk "IList" [.mk "Shape" [] false [","]] true ["", ""]
  wrapper := none

private def rectangles : TypeRef := .mk "int" [] false ["", ","]

theorem emptyArray_fits_of_lists :
    ofText Target.wpfOut "IList<IShape[,]>?[ ][]" = .ok listsOfShapes ∧
      listsOfShapes.defaultValue none = "Array.Empty<IList<Shape[,]>?[]>()" ∧
        listsOfShapes.text = "IList<Shape[,]>?[][]" := by
  have htext : ofText Target.wpfOut "IList<IShape[,]>?[ ][]" = .ok listsOfShapes := by
    decide +kernel
  obtain ⟨hbacking, elementType, hdefault, hfits⟩ := emptyArray_fits_iff htext rfl
  obtain ⟨-, rfl⟩ := hfits.2 (by decide)
  exact ⟨htext, hdefault, hbacking⟩

/-- The elements of an array of rectangular arrays are rectangular, not arrays of one dimension. -/
theorem emptyArray_of_rectangles :
    ofText Target.wpfOut "int[][,]" = .ok ⟨rectangles, rectangles, none⟩ ∧
      (Backing.mk rectangles rectangles none).defaultValue none = "Array.Empty<int[]>()" ∧
        "int[]" ≠ rectangles.base.render ++ rankText [","] := by
  decide +kernel

end Backing

end PlatformClasses
