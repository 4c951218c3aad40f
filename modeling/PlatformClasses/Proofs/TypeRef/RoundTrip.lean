import PlatformClasses.Proofs.TypeRef.Acceptance

/-!
# Canonical texts of type references

`render` and `parse` are inverse to each other on the references that can be written.  The canonical
text of such a reference has a derivation, with one space before each argument after the first and no
other white space, and the derivation stands for the reference (`exists_derivation`); so the text is
parsed to it, like every text that has a derivation (`TextDerivation.parse_text`).  References that come
from the parser can be written (`Derivation.isWritable_tree`).
-/

namespace PlatformClasses.TypeRef

/-! ## References that can be written -/

/-- Whether a text is a dotted name. -/
def isName (s : String) : Bool :=
  match s.toList with
  | c :: rest => Text.isNameStart c && rest.all isNamePart
  | [] => false

/-- Whether a text can stand between the brackets of a rank as it is: it consists of commas, and
possibly of white space other than plain spaces. -/
def isRank (s : String) : Bool := s.toList.all fun c => isRankPart c && c != ' '

mutual
/-- Whether all names and ranks of a reference can be written. -/
def isWritable : TypeRef → Bool
  | mk name arguments _ ranks => isName name && areWritable arguments && ranks.all isRank

/-- Whether several references can be written. -/
def areWritable : List TypeRef → Bool
  | [] => true
  | t :: rest => isWritable t && areWritable rest
end

/-- A reference of any depth of which all names and ranks can be written. -/
abbrev Writable := {t : TypeRef // t.isWritable = true}

/-! ## Canonical texts have derivations -/

namespace Blanks

/-- No white space. -/
def none : Blanks := ⟨[], by simp⟩

/-- One space. -/
def space : Blanks :=
  ⟨[' '], fun c hc => by obtain rfl := List.mem_singleton.1 hc; decide⟩

end Blanks

@[simp] theorem charsOf_append (ls ls' : List Lexeme) :
    charsOf (ls ++ ls') = charsOf ls ++ charsOf ls' := List.flatMap_append

/-- A name that can be written has a lexeme. -/
theorem exists_name {s : String} (h : isName s = true) :
    ∃ n : Name, n.first :: n.rest = s.toList := by
  unfold isName at h
  split at h
  · next c rest hs =>
    simp only [Bool.and_eq_true, List.all_eq_true] at h
    exact ⟨⟨c, rest, h.1, h.2⟩, hs.symm⟩
  · simp at h

/-- Ranks that can be written have lexemes without gaps. -/
theorem exists_ranks {ranks : List String} (h : ranks.all isRank = true) :
    ∃ rs : List (Blanks × Rank), charsOf (rankLexemes rs) = (rankText ranks).toList ∧
      rs.map (fun r => rankOf r.2.inner) = ranks := by
  induction ranks with
  | nil => exact ⟨[], rfl, rfl⟩
  | cons rank ranks ih =>
      simp only [List.all_cons, Bool.and_eq_true] at h
      obtain ⟨rs, hchars, htexts⟩ := ih h.2
      have hall : ∀ c ∈ rank.toList, isRankPart c = true ∧ (c != ' ') = true := by
        simpa [isRank] using h.1
      refine ⟨(Blanks.none, ⟨rank.toList, fun c hc => (hall c hc).1⟩) :: rs, ?_, ?_⟩
      · show '[' :: (rank.toList ++ [']']) ++ charsOf (rankLexemes rs) = _
        rw [hchars]
        simp [rankText]
      · have hkept : rank.toList.filter (· != ' ') = rank.toList :=
          List.filter_eq_self.2 fun c hc => (hall c hc).2
        rw [List.map_cons, htexts, rankOf, hkept, String.ofList_toList]

/-- A question mark has a lexeme if there is one. -/
theorem exists_question (nullable : Bool) :
    ∃ question : Option Blanks, question.isSome = nullable ∧
      charsOf (questionLexemes question) = (if nullable then "?" else "").toList := by
  cases nullable with
  | false => exact ⟨none, rfl, rfl⟩
  | true => exact ⟨some Blanks.none, rfl, rfl⟩

mutual
/-- The canonical text of a reference has a derivation that stands for it, after any white space. -/
theorem exists_derivation : ∀ t : TypeRef, t.isWritable = true → ∀ before : Blanks,
    ∃ d : Derivation, charsOf d.lexemes = before.chars ++ t.render.toList ∧ d.tree = t
  | mk name arguments nullable ranks, h, before => by
      simp only [isWritable, Bool.and_eq_true] at h
      obtain ⟨⟨hname, harguments⟩, hranks⟩ := h
      obtain ⟨n, hn⟩ := exists_name hname
      obtain ⟨a, ha, rfl⟩ := exists_arguments arguments harguments
      obtain ⟨q, rfl, hq⟩ := exists_question nullable
      obtain ⟨rs, hrs, rfl⟩ := exists_ranks hranks
      refine ⟨.mk before n a q rs, ?_, ?_⟩
      · have hspelled : Lexeme.chars ⟨before, .name n⟩ = before.chars ++ name.toList := by
          rw [← hn]
          rfl
        simp only [Derivation.lexemes, charsOf_cons, charsOf_append, hspelled, ha, hq, hrs, render,
          String.toList_append, List.append_assoc]
      · rw [Derivation.tree, hn, String.ofList_toList]

/-- Type arguments that can be written have derivations of what is written for them. -/
theorem exists_arguments : ∀ ts : List TypeRef, areWritable ts = true →
    ∃ a : Arguments, charsOf a.lexemes = (renderArguments ts).toList ∧ a.trees = ts
  | [], _ => ⟨.none, rfl, rfl⟩
  | t :: rest, h => by
      simp only [areWritable, Bool.and_eq_true] at h
      obtain ⟨first, hfirst, rfl⟩ := exists_derivation t h.1 Blanks.none
      obtain ⟨more, hmore, rfl⟩ := exists_moreArguments rest h.2
      refine ⟨.some Blanks.none first more, ?_, rfl⟩
      simp only [Arguments.lexemes, charsOf_cons, charsOf_append, hfirst, hmore, renderArguments,
        String.toList_append, List.append_assoc]
      rfl

/-- The arguments after the first have derivations of what is written for them. -/
theorem exists_moreArguments : ∀ ts : List TypeRef, areWritable ts = true →
    ∃ m : MoreArguments, charsOf m.lexemes = (renderRest ts).toList ∧ m.trees = ts
  | [], _ => ⟨.close Blanks.none, rfl, rfl⟩
  | t :: rest, h => by
      simp only [areWritable, Bool.and_eq_true] at h
      obtain ⟨next, hnext, rfl⟩ := exists_derivation t h.1 Blanks.space
      obtain ⟨more, hmore, rfl⟩ := exists_moreArguments rest h.2
      refine ⟨.comma Blanks.none next more, ?_, rfl⟩
      simp only [MoreArguments.lexemes, charsOf_cons, charsOf_append, hnext, hmore, renderRest,
        String.toList_append, List.append_assoc]
      rfl
end

/-- A tree that can be written is parsed again from what is written. -/
theorem parse_render_of_isWritable {t : TypeRef} (h : t.isWritable = true) :
    parse t.render = .ok t := by
  obtain ⟨d, hchars, rfl⟩ := exists_derivation t h Blanks.none
  have htext : (TextDerivation.mk d Blanks.none).text = d.tree.render := by
    rw [← String.toList_inj, TextDerivation.toList_text, TextDerivation.chars, hchars]
    simp [Blanks.none]
  rw [← htext]
  exact TextDerivation.parse_text _

/-! ## References that are parsed can be written -/

theorem isName_ofList (n : Name) : isName (String.ofList (n.first :: n.rest)) = true := by
  have hparts : n.rest.all isNamePart = true := List.all_eq_true.2 n.areParts
  simp only [isName, String.toList_ofList, n.isStart, hparts, Bool.and_self]

theorem isRank_rankOf (r : Rank) : isRank (rankOf r.inner) = true := by
  rw [isRank, rankOf, String.toList_ofList, List.all_eq_true]
  intro c hc
  obtain ⟨hmem, hspace⟩ := List.mem_filter.1 hc
  rw [r.areParts c hmem, hspace]
  rfl

mutual
/-- The tree of a derivation can be written. -/
theorem Derivation.isWritable_tree : ∀ d : Derivation, d.tree.isWritable = true
  | .mk before name arguments question ranks => by
      have hranks : (ranks.map fun r => rankOf r.2.inner).all isRank = true := by
        rw [List.all_eq_true]
        intro rank hrank
        obtain ⟨r, -, rfl⟩ := List.mem_map.1 hrank
        exact isRank_rankOf r.2
      rw [Derivation.tree, isWritable, isName_ofList, arguments.areWritable_trees, hranks]
      rfl

/-- The trees of type arguments can be written. -/
theorem Arguments.areWritable_trees : ∀ a : Arguments, areWritable a.trees = true
  | .none => rfl
  | .some before first more => by
      rw [Arguments.trees, areWritable, first.isWritable_tree, more.areWritable_trees]
      rfl

theorem MoreArguments.areWritable_trees : ∀ m : MoreArguments, areWritable m.trees = true
  | .close before => rfl
  | .comma before next more => by
      rw [MoreArguments.trees, areWritable, next.isWritable_tree, more.areWritable_trees]
      rfl
end

/-- Whatever is parsed can be written. -/
theorem isWritable_of_parse {text : String} {t : TypeRef} (h : parse text = .ok t) :
    t.isWritable = true := by
  obtain ⟨d, -, rfl⟩ := exists_derivation_of_parse h
  exact d.type.isWritable_tree

/-- The canonical text of a reference is parsed to that reference, so no two references have the same
canonical text; and a text that is accepted is parsed to the same reference as the canonical text of
the result, which is therefore its own canonical text. -/
theorem parse_render :
    (∀ t : Writable, parse t.1.render = .ok t.1) ∧
      Function.Injective (fun t : Writable => t.1.render) ∧
        ∀ text : String, (do parse (← parse text).render) = parse text := by
  have hparse : ∀ t : Writable, parse t.1.render = .ok t.1 :=
    fun t => parse_render_of_isWritable t.2
  refine ⟨hparse, ?_, ?_⟩
  · intro s t heq
    have hs : parse t.1.render = .ok s.1 := by
      rw [← hparse s]
      exact congrArg parse heq.symm
    rw [hparse t] at hs
    exact Subtype.ext (Except.ok.inj hs).symm
  · intro text
    cases h : parse text with
    | error fault => rfl
    | ok t => exact parse_render_of_isWritable (isWritable_of_parse h)

/-- A nullable array of arrays of a type with nested arguments. -/
theorem parse_render_nested :
    let nested : TypeRef := .mk "Map" [.mk "M.Key" [] true [], .mk "IList" [.mk "_x" [] false [",,"]]
      false []] true ["", ","]
    nested.isWritable = true ∧ nested.render = "Map<M.Key?, IList<_x[,,]>>?[][,]" ∧
      parse nested.render = .ok nested := by
  intro nested
  have hwritable : nested.isWritable = true := by decide +kernel
  exact ⟨hwritable, by decide +kernel, parse_render.1 ⟨nested, hwritable⟩⟩

end PlatformClasses.TypeRef
