import Mathlib.Dynamics.FixedPoints.Basic
import PlatformClasses.Proofs.Backing.Defaults

/-!
# Element types, one rank after the other

The ranks of a reference that is parsed are those that its text has after the type and its mark, and each
of them is a bracketed text without a bracket inside.  So the last rank begins at the last opening bracket
of the text of all ranks, and to take the element type is to cut that text there (`loses_elementType`).

Taking the element type again and again takes away the ranks, the last one first.  What is left on the way
is an array that can be written, and there is nothing more to take once all ranks are gone
(`elementTypes_of_parse`).
-/

namespace PlatformClasses.TypeRef

/-! ## Taking away one rank -/

/-- A text is what precedes the last occurrence of a character in another one. -/
def IsCutAtLast (c : Char) (whole before : String) : Prop :=
  ∃ after, whole.toList = before.toList ++ c :: after ∧ c ∉ after

/-- A reference becomes another one by losing a rank: the type, its arguments and its mark stay, the rank
is the last of all, and the text of the ranks is cut at its last opening bracket. -/
structure Loses (t : TypeRef) (rank : String) (t' : TypeRef) : Prop where
  base : t'.base = t.base
  ranks : t.ranks = t'.ranks ++ [rank]
  text : t.render = t'.render ++ ("[" ++ rank ++ "]")
  cut : IsCutAtLast '[' (rankText t.ranks) (rankText t'.ranks)

/-- The type of the elements has the same base. -/
theorem base_elementType (t : TypeRef) : t.elementType.base = t.base := by
  cases t
  rfl

/-- It has one rank less, the last one. -/
theorem ranks_elementType (t : TypeRef) : t.elementType.ranks = t.ranks.dropLast := by
  cases t
  rfl

/-- Types with the same base and the same ranks are the same. -/
theorem eq_of_base_eq {t t' : TypeRef} (hbase : t.base = t'.base) (hranks : t.ranks = t'.ranks) :
    t = t' := by
  cases t
  cases t'
  simp_all [base, TypeRef.ranks]

/-- The text of a rank that is added stands at the end. -/
theorem rankText_concat (ranks : List String) (rank : String) :
    rankText (ranks ++ [rank]) = rankText ranks ++ ("[" ++ rank ++ "]") := by
  induction ranks with
  | nil => simp [rankText]
  | cons first rest ih =>
      show "[" ++ first ++ "]" ++ rankText (rest ++ [rank]) = _
      rw [ih, ← String.append_assoc]
      rfl

/-- There is no bracket in a rank. -/
theorem not_mem_of_isRank {rank : String} (h : isRank rank = true) : '[' ∉ rank.toList := by
  intro hmem
  have hpart := List.all_eq_true.1 h '[' hmem
  exact absurd hpart (by decide)

/-- An array that can be written loses its last rank. -/
theorem loses_elementType {t : TypeRef} (hwritable : t.isWritable = true) {others : List String}
    {rank : String} (h : t.ranks = others ++ [rank]) : t.Loses rank t.elementType := by
  have hranks : t.elementType.ranks = others := by
    rw [ranks_elementType, h, List.dropLast_concat]
  have hrank : isRank rank = true := by
    refine List.all_eq_true.1 (areRanks_of_isWritable hwritable) rank ?_
    rw [h]
    exact List.mem_append_right _ List.mem_cons_self
  constructor
  case base => exact base_elementType t
  case ranks => rw [h, hranks]
  case text =>
    rw [render_eq_append t.elementType, base_elementType, hranks, String.append_assoc,
      ← rankText_concat, ← h, ← render_eq_append]
  case cut =>
    refine ⟨rank.toList ++ [']'], ?_, ?_⟩
    · rw [h, hranks, rankText_concat]
      simp
    · rw [List.mem_append, not_or]
      exact ⟨not_mem_of_isRank hrank, by decide⟩

theorem Loses.isArray {t t' : TypeRef} {rank : String} (h : t.Loses rank t') : t.isArray = true := by
  simp [TypeRef.isArray, h.ranks]

/-- The elements of what can be written have a type that can be written. -/
theorem isWritable_elementType {t : TypeRef} (h : t.isWritable = true) :
    t.elementType.isWritable = true := by
  obtain ⟨name, arguments, nullable, ranks⟩ := t
  simp only [isWritable, Bool.and_eq_true, List.all_eq_true] at h
  simp only [elementType, isWritable, Bool.and_eq_true, List.all_eq_true]
  exact ⟨h.1, fun rank hrank => h.2 rank (List.dropLast_subset ranks hrank)⟩

/-! ## Taking away ranks again and again -/

theorem isWritable_iterate {t : TypeRef} (h : t.isWritable = true) (n : Nat) :
    (elementType^[n] t).isWritable = true := by
  induction n with
  | zero => exact h
  | succ n ih =>
      rw [Function.iterate_succ_apply']
      exact isWritable_elementType ih

/-- The base stays the same over any number of steps. -/
theorem base_iterate (t : TypeRef) (n : Nat) : (elementType^[n] t).base = t.base := by
  induction n with
  | zero => rfl
  | succ n ih => rw [Function.iterate_succ_apply', base_elementType, ih]

/-- Each step takes one rank from the end, as long as there are any. -/
theorem ranks_iterate (t : TypeRef) (n : Nat) :
    (elementType^[n] t).ranks = t.ranks.take (t.ranks.length - n) := by
  induction n with
  | zero => simp
  | succ n ih =>
      rw [Function.iterate_succ_apply', ranks_elementType, ih, List.dropLast_eq_take, List.take_take,
        List.length_take]
      congr 1
      omega

/-- The ranks that a derivation writes after the type and its mark. -/
def Derivation.ranks : Derivation → List (Blanks × Rank)
  | .mk _ _ _ _ ranks => ranks

/-- The texts of the ranks that a text is written with. -/
def TextDerivation.rankTexts (d : TextDerivation) : List String :=
  d.type.ranks.map fun r => rankOf r.2.inner

/-- The ranks of a type are those of its text. -/
theorem TextDerivation.ranks_tree (d : TextDerivation) : d.tree.ranks = d.rankTexts := by
  obtain ⟨⟨_, _, _, _, _⟩, _⟩ := d
  rfl

/-- Of a reference that is parsed from a text with `k` ranks after the type and its mark, the element type
can be taken `k` times.  After `n` times the first `k - n` ranks are left and all else is as it was; what
is left is parsed from its own text, and as long as `n` is less than `k` it is an array, which loses its
last rank by the next step.  After `k` times it is no array, and is its own element type. -/
theorem elementTypes_of_parse {text : String} {t : TypeRef} (h : parse text = .ok t) :
    ∃ d : TextDerivation, d.text = text ∧ d.tree = t ∧
      (∀ n ≤ d.rankTexts.length,
        (elementType^[n] t).base = t.base ∧
          (elementType^[n] t).ranks = d.rankTexts.take (d.rankTexts.length - n) ∧
          parse (elementType^[n] t).render = .ok (elementType^[n] t)) ∧
      (∀ n (hn : n < d.rankTexts.length),
        (elementType^[n] t).isArray = true ∧
          (elementType^[n] t).Loses d.rankTexts[d.rankTexts.length - 1 - n] (elementType^[n + 1] t)) ∧
      (elementType^[d.rankTexts.length] t).isArray = false ∧
      Function.IsFixedPt elementType (elementType^[d.rankTexts.length] t) := by
  obtain ⟨d, rfl, rfl⟩ := exists_derivation_of_parse h
  have hwritable := isWritable_iterate (isWritable_of_parse h)
  have hranks : ∀ n, (elementType^[n] d.tree).ranks =
      d.rankTexts.take (d.rankTexts.length - n) := by
    intro n
    rw [ranks_iterate, d.ranks_tree]
  have hlast : (elementType^[d.rankTexts.length] d.tree).ranks = [] := by
    rw [hranks, Nat.sub_self, List.take_zero]
  refine ⟨d, rfl, rfl, ?_, ?_, ?_, ?_⟩
  · exact fun n _ => ⟨base_iterate _ n, hranks n, parse_render_of_isWritable (hwritable n)⟩
  · intro n hn
    have hconcat : (elementType^[n] d.tree).ranks =
        d.rankTexts.take (d.rankTexts.length - 1 - n) ++ [d.rankTexts[d.rankTexts.length - 1 - n]] := by
      rw [hranks, List.take_append_getElem, show d.rankTexts.length - n =
        d.rankTexts.length - 1 - n + 1 by omega]
    have hloses := loses_elementType (hwritable n) hconcat
    rw [Function.iterate_succ_apply']
    exact ⟨hloses.isArray, hloses⟩
  · simp [isArray, hlast]
  · refine eq_of_base_eq (base_elementType _) ?_
    rw [ranks_elementType, hlast]
    rfl

/-- A nullable array of arrays, with white space of two kinds in and between its ranks. -/
theorem elementTypes_of_nested_array :
    let nested : TypeRef := .mk "IList" [.mk "int" [] false [""]] true [",\t", "", ","]
    parse "IList< int[ ] >? [ ,\t] [] [,]" = .ok nested ∧
      (∃ d : TextDerivation, d.text = "IList< int[ ] >? [ ,\t] [] [,]" ∧
        d.rankTexts = [",\t", "", ","]) ∧
      nested.Loses "," nested.elementType ∧
      (elementType^[2] nested).render = "IList<int[]>?[,\t]" ∧
      parse "IList<int[]>?[,\t]" = .ok (elementType^[2] nested) ∧
      Function.IsFixedPt elementType (elementType^[3] nested) := by
  intro nested
  have hparse : parse "IList< int[ ] >? [ ,\t] [] [,]" = .ok nested := by decide +kernel
  obtain ⟨d, htext, htree, hleft, hsteps, -, hfixed⟩ := elementTypes_of_parse hparse
  have hwritten : d.rankTexts = [",\t", "", ","] := by
    rw [← d.ranks_tree, htree]
    rfl
  have hrender : (elementType^[2] nested).render = "IList<int[]>?[,\t]" := by decide +kernel
  have hlength : d.rankTexts.length = 3 := by rw [hwritten]; rfl
  refine ⟨hparse, ⟨d, htext, hwritten⟩, ?_, hrender, ?_, ?_⟩
  · have hfirst := (hsteps 0 (by omega)).2
    simpa [hwritten] using hfirst
  · rw [← hrender]
    exact (hleft 2 (by omega)).2.2
  · rwa [hlength] at hfixed

end PlatformClasses.TypeRef
