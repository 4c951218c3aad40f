import PlatformClasses.Declaration.Reading
import PlatformClasses.Proofs.Source.Directives

/-!
# What a using directive imports, as text

`Declaration.usingText` looks for the keywords of a directive in its text and takes away what it finds.  For
a directive with only white space between its tokens there are three outcomes: the keyword `using` is not
recognised and the whole text stays, or it is recognised and the rest of the directive stays without its
semicolon, or `static` is taken away too.
-/

namespace PlatformClasses

open Source

namespace Declaration

/-- A text that begins with white space. -/
def beginsBlank (cs : List Char) : Bool := cs.head?.any Text.isBlank

/-- A text that begins with another character than white space. -/
def BeginsVisibly (cs : List Char) : Prop := ∃ c rest, cs = c :: rest ∧ Text.isBlank c = false

theorem dropWhile_append_of_beginsVisibly {cs : List Char} (h : BeginsVisibly cs) (gap : List Char) :
    (gap ++ cs).dropWhile Text.isBlank = gap.dropWhile Text.isBlank ++ cs := by
  obtain ⟨c, rest, rfl, hc⟩ := h
  exact dropWhile_before hc gap rest

/-- Trimming takes nothing from a text that ends visibly. -/
theorem trimRightChars_append {cs : List Char} (h : EndsVisibly cs) (gap : List Char) :
    Text.trimRightChars (cs ++ gap) = cs ++ Text.trimRightChars gap := by
  obtain ⟨c, hc, inside, rfl⟩ := h
  unfold Text.trimRightChars
  have hdrop := dropWhile_before hc gap.reverse inside.reverse
  rw [List.reverse_append, List.reverse_append, List.reverse_singleton, List.singleton_append, hdrop,
    List.reverse_append]
  simp

/-- A text that begins and ends visibly is trimmed already. -/
theorem trimChars_of_visible {cs : List Char} (hfirst : BeginsVisibly cs) (hlast : EndsVisibly cs) :
    Text.trimChars cs = cs := by
  obtain ⟨c, rest, rfl, hc⟩ := hfirst
  unfold Text.trimChars
  rw [List.dropWhile_cons_of_neg (by simp [hc])]
  have htrim := trimRightChars_append hlast []
  rw [List.append_nil] at htrim
  rw [htrim]
  simp [Text.trimRightChars]

/-! ## Keywords -/

/-- A text that begins with the given word, which does not go on. -/
structure BeginsWithWord (word : String) (cs : List Char) : Prop where
  areNameChars : AreNameChars word.toList
  ne_nil : word.toList ≠ []
  text : ∃ rest, cs = word.toList ++ rest ∧
    ∀ d more, rest = d :: more → Text.isIdentifierPart d = false

theorem not_isBlank_of_isNameChar {c : Char} (h : isNameChar c = true) : Text.isBlank c = false := by
  rw [← Bool.not_eq_true]
  intro hblank
  have hend := (endsToken_of_isBlank hblank).all (p := fun c => !isNameChar c) (by decide +kernel)
  simp [h] at hend

theorem BeginsWithWord.beginsVisibly {word : String} {cs : List Char} (h : BeginsWithWord word cs) :
    BeginsVisibly cs := by
  obtain ⟨c, tail, htail⟩ := List.exists_cons_of_ne_nil h.ne_nil
  obtain ⟨rest, rfl, -⟩ := h.text
  refine ⟨c, tail ++ rest, by rw [htail]; rfl, not_isBlank_of_isNameChar (h.areNameChars c ?_)⟩
  rw [htail]
  exact List.mem_cons_self

/-- There is nothing after a keyword that does not come first. -/
theorem afterKeyword?_eq_none {keyword : String} {cs : List Char} (h : ¬keyword.toList <+: cs) :
    afterKeyword? keyword cs = none := by
  unfold afterKeyword?
  rw [if_neg]
  rwa [List.isPrefixOf_iff_prefix]

/-- A keyword and what follows it, up to something that is not white space. -/
theorem afterKeyword?_gap (keyword : String) (gap : List Char) {cs : List Char} (h : BeginsVisibly cs) :
    afterKeyword? keyword (keyword.toList ++ (gap ++ cs)) =
      if beginsBlank gap then some (gap.dropWhile Text.isBlank ++ cs) else none := by
  unfold afterKeyword?
  rw [if_pos (List.isPrefixOf_iff_prefix.2 (List.prefix_append ..)), List.drop_left]
  cases gap with
  | nil =>
      obtain ⟨c, rest, rfl, hc⟩ := h
      simp [beginsBlank, hc]
  | cons c gap =>
      have hbegins : beginsBlank (c :: gap) = Text.isBlank c := rfl
      rw [hbegins, ← dropWhile_append_of_beginsVisibly h]
      simp only [List.cons_append, List.dropWhile_cons]
      split <;> rfl

/-- Another word is not the keyword, though it may begin like it. -/
theorem afterKeyword?_other {keyword word : String} {cs : List Char} (h : BeginsWithWord word cs)
    (hkeyword : keyword.toList.all Text.isIdentifierPart = true) (hne : word ≠ keyword) :
    afterKeyword? keyword cs = none := by
  obtain ⟨rest, rfl, hend⟩ := h.text
  have hne' : word.toList ≠ keyword.toList := fun heq => hne (String.toList_inj.1 heq)
  by_cases hprefix : keyword.toList <+: word.toList ++ rest
  · rcases Nat.le_total keyword.toList.length word.toList.length with hle | hle
    · obtain ⟨tail, htail⟩ := List.prefix_of_prefix_length_le hprefix (List.prefix_append ..) hle
      cases tail with
      | nil => exact absurd ((List.append_nil _).symm.trans htail).symm hne'
      | cons c tail =>
          -- the word goes on where the keyword ends
          have hc : Text.isBlank c = false :=
            not_isBlank_of_isNameChar (h.areNameChars c (htail ▸ by simp))
          have hbegins : BeginsVisibly (c :: tail ++ rest) := ⟨c, tail ++ rest, rfl, hc⟩
          have hgap := afterKeyword?_gap keyword [] hbegins
          rwa [List.nil_append, ← List.append_assoc, htail] at hgap
    · obtain ⟨tail, htail⟩ := List.prefix_of_prefix_length_le (List.prefix_append ..) hprefix hle
      cases tail with
      | nil => exact absurd ((List.append_nil _).symm.trans htail) hne'
      | cons d tail =>
          rw [← htail, List.prefix_append_right_inj] at hprefix
          obtain ⟨more, hmore⟩ := hprefix
          have hd := List.all_eq_true.1 hkeyword d (htail ▸ by simp)
          rw [hend d (tail ++ more) hmore.symm] at hd
          simp at hd
  · exact afterKeyword?_eq_none hprefix

/-- No keyword begins with white space. -/
theorem not_prefix_of_space {keyword : String} {gap rest : List Char} {c : Char} {more : List Char}
    (hgap : gap.all isSpace = true) (hdrop : gap.dropWhile Text.isBlank = c :: more)
    (hkeyword : keyword.toList.head?.map isSpace = some false) :
    ¬keyword.toList <+: gap.dropWhile Text.isBlank ++ rest := by
  obtain ⟨d, hhead, hd⟩ := Option.map_eq_some_iff.1 hkeyword
  obtain ⟨tail, hcons⟩ := List.head?_eq_some_iff.1 hhead
  have hc : c ∈ gap := (List.dropWhile_sublist _).subset (hdrop ▸ List.mem_cons_self)
  rw [hdrop, hcons, List.cons_append, List.cons_prefix_cons]
  rintro ⟨rfl, -⟩
  rw [List.all_eq_true.1 hgap d hc] at hd
  simp at hd

/-! ## The text without keywords -/

section

variable {cs : List Char} (hfirst : BeginsVisibly cs) (hlast : EndsVisibly cs)

include hfirst hlast

/-- Without its keyword the text of a directive stays as it is. -/
theorem usingText_of_none (h : afterKeyword? "using" ((afterKeyword? "global" cs).getD cs) = none) :
    usingText (String.ofList cs) = String.ofList cs := by
  unfold usingText
  simp only [String.toList_ofList, trimChars_of_visible hfirst hlast, h]

/-- Otherwise all that stands between the keywords and the semicolon stays, without the white space
before the semicolon. -/
theorem usingText_of_some {rest kept gap : List Char}
    (h : afterKeyword? "using" ((afterKeyword? "global" cs).getD cs) = some rest)
    (hrest : (afterKeyword? "static" rest).getD rest = kept ++ (gap ++ [';'])) (hkept : EndsVisibly kept) :
    usingText (String.ofList cs) = String.ofList (kept ++ Text.trimRightChars gap) := by
  unfold usingText
  simp only [String.toList_ofList, trimChars_of_visible hfirst hlast, h, hrest]
  rw [← List.append_assoc, List.getLast?_concat, List.dropLast_concat, trimRightChars_append hkept]
  obtain ⟨c, -, inside, rfl⟩ := hkept
  rw [if_pos]
  simp

end

end Declaration

/-! ## The text of a directive -/

namespace Source.UsingTokens

open Declaration

/-- The keyword is recognised: white space stands after it, and nothing but white space between `global`
and it. -/
def IsRecognised (d : UsingTokens) : Prop :=
  (d.scope.isSome = true → (leadChars d.keyword.lead).all Text.isBlank = true) ∧
    beginsBlank (gapBefore d.operand) = true

instance (d : UsingTokens) : Decidable d.IsRecognised := inferInstanceAs (Decidable (_ ∧ _))

/-- A recognised directive whose modifier is taken for one more keyword. -/
def LosesModifier (d : UsingTokens) : Prop :=
  d.modifier.isSome = true ∧
    (gapBefore d.operand).all Text.isBlank = true ∧
      beginsBlank (gapBefore d.imported) = true

instance (d : UsingTokens) : Decidable d.LosesModifier := inferInstanceAs (Decidable (_ ∧ _ ∧ _))

/-- The text from some tokens of a directive up to its semicolon. -/
def textFrom (d : UsingTokens) (ts : List Token) : List Char :=
  (Token.verbatim ts).toList ++ (leadChars d.semicolon.lead ++ [';'])

/-- From each token on, the text of a directive is this token, a gap and the rest. -/
theorem textFrom_cons (d : UsingTokens) (t : Token) (ts : List Token) :
    d.textFrom (t :: ts) = t.text.toList ++ (gapBefore ts ++ d.textFrom ts) := by
  simp only [textFrom, toList_verbatim_cons, List.append_assoc]

theorem endsVisibly_textFrom (d : UsingTokens) (ts : List Token) : EndsVisibly (d.textFrom ts) :=
  ⟨';', by decide, (Token.verbatim ts).toList ++ leadChars d.semicolon.lead, (List.append_assoc ..).symm⟩

section

variable {d : UsingTokens} {body after : List Char} (hproper : d.IsProper)
  (hlaid : d.LaidOut body after)

include hproper in
/-- The text of a directive is that of its tokens with the gaps between them. -/
theorem toList_verbatim_all : (Token.verbatim d.all).toList = d.textFrom d.front := by
  obtain ⟨t, ts, hfront, -⟩ := hproper.exists_front
  rw [all, textFrom, hfront, toList_verbatim_append]
  simp [Token.verbatim, Token.textAfter, (isMark_eq_true.1 hproper.semicolon).2]

include hproper in
theorem verbatim_all : Token.verbatim d.all = String.ofList (d.textFrom d.front) := by
  rw [← toList_verbatim_all hproper, String.ofList_toList]

include hlaid in
/-- The tokens of a directive stand in a row in its source. -/
theorem LaidOut.exists_row {t : Token} {ts : List Token} (hts : t :: ts <:+ d.front) :
    ∃ body', Row body' (t :: ts) (leadChars d.semicolon.lead ++ ';' :: after) := by
  obtain ⟨front, hfront⟩ := hts
  have hrow := hlaid.row
  rw [← hfront] at hrow
  exact hrow.exists_of_append

include hlaid in
/-- Between the tokens of a directive that is laid out with white space there is nothing else. -/
theorem LaidOut.gapBefore {t : Token} {ts : List Token} (hts : t :: ts <:+ d.front) :
    (gapBefore ts).all isSpace = true := by
  obtain ⟨body', hrow⟩ := hlaid.exists_row hts
  exact hrow.gap

include hlaid in
/-- From each of its words on, a directive begins with this word. -/
theorem LaidOut.beginsWithWord {t : Token} {ts : List Token} (hts : t :: ts <:+ d.front)
    (hkind : t.kind = .word) : BeginsWithWord t.text (d.textFrom (t :: ts)) := by
  obtain ⟨body', hrow⟩ := hlaid.exists_row hts
  obtain ⟨left, hstands⟩ := hrow.standsAt
  refine ⟨hstands.areNameChars hkind, hstands.text_ne_nil, _, d.textFrom_cons t ts, ?_⟩
  intro c more hmore
  have hall : d.textFrom (t :: ts) ++ after = body' := by
    rw [← hrow.text]
    simp [textFrom]
  rw [d.textFrom_cons, hmore, List.append_assoc, ← hstands.text, List.append_cancel_left_eq] at hall
  exact hstands.not_isIdentifierPart hkind hall.symm

include hlaid in
theorem LaidOut.endsVisibly {t : Token} {ts : List Token} (hts : t :: ts <:+ d.front) :
    EndsVisibly (Token.verbatim (t :: ts)).toList := by
  obtain ⟨body', hrow⟩ := hlaid.exists_row hts
  exact hrow.endsVisibly

theorem keyword_suffix : d.keyword :: d.operand <:+ d.front := List.suffix_append _ _

theorem operand_suffix : d.operand <:+ d.front := (List.suffix_cons _ _).trans keyword_suffix

theorem imported_suffix : d.imported <:+ d.front :=
  (List.suffix_append _ _).trans operand_suffix

include hproper in
theorem exists_operand : ∃ t ts, d.operand = t :: ts ∧ t.kind = .word := by
  unfold operand
  cases hmodifier : d.modifier with
  | none =>
      obtain ⟨t, ts, himported, hkind, -⟩ := hproper.imported
      exact ⟨t, ts, himported, hkind⟩
  | some t => exact ⟨t, d.imported, rfl, (isWord_eq_true.1 (hproper.modifier t hmodifier)).1⟩

/-! ### The keyword `using` -/

include hproper hlaid

omit hlaid in
/-- Behind its scope, a directive is its keyword, a gap and what is imported. -/
theorem textFrom_keyword :
    d.textFrom (d.keyword :: d.operand) =
      "using".toList ++ (gapBefore d.operand ++ d.textFrom d.operand) := by
  rw [textFrom_cons, (isWord_eq_true.1 hproper.keyword).2]

omit hlaid in
theorem beginsVisibly_keyword : BeginsVisibly (d.textFrom (d.keyword :: d.operand)) := by
  rw [textFrom_keyword hproper]
  exact ⟨'u', _, rfl, by decide⟩

theorem beginsVisibly_operand : BeginsVisibly (d.textFrom d.operand) := by
  obtain ⟨t, ts, hts, hkind⟩ := exists_operand hproper
  rw [hts]
  exact (hlaid.beginsWithWord (hts ▸ operand_suffix) hkind).beginsVisibly

/-- Behind the keyword there is what is imported. -/
theorem afterKeyword?_using :
    afterKeyword? "using" (d.textFrom (d.keyword :: d.operand)) =
      if beginsBlank (gapBefore d.operand) then
        some ((gapBefore d.operand).dropWhile Text.isBlank ++ d.textFrom d.operand)
      else none := by
  rw [textFrom_keyword hproper]
  exact afterKeyword?_gap "using" _ (beginsVisibly_operand hproper hlaid)

/-! ### The word `global` -/

omit hlaid in
/-- A directive without a scope does not begin with one. -/
theorem afterKeyword?_global_of_none (hscope : d.scope = none) :
    afterKeyword? "global" (d.textFrom d.front) = none := by
  rw [front_of_none hscope, textFrom_keyword hproper]
  exact afterKeyword?_eq_none (by simp)

omit hlaid in
/-- Behind `global` there is the keyword. -/
theorem afterKeyword?_global_of_some {t : Token} (hscope : d.scope = some t) :
    afterKeyword? "global" (d.textFrom d.front) =
      if beginsBlank (leadChars d.keyword.lead) then
        some ((leadChars d.keyword.lead).dropWhile Text.isBlank ++ d.textFrom (d.keyword :: d.operand))
      else none := by
  rw [front_of_some hscope, textFrom_cons, (isWord_eq_true.1 (hproper.scope t hscope)).2]
  exact afterKeyword?_gap "global" _ (beginsVisibly_keyword hproper)

/-- There is some white space between `global` and the keyword. -/
theorem lead_keyword {t : Token} (hscope : d.scope = some t) :
    leadChars d.keyword.lead ≠ [] ∧ (leadChars d.keyword.lead).all isSpace = true := by
  have hsuffix : t :: d.keyword :: d.operand <:+ d.front := front_of_some hscope ▸ List.suffix_rfl
  refine ⟨fun hnil => ?_, hlaid.gapBefore hsuffix⟩
  -- the two words would be one
  obtain ⟨rest, hrest, hend⟩ :=
    (hlaid.beginsWithWord hsuffix (isWord_eq_true.1 (hproper.scope t hscope)).1).text
  rw [textFrom_cons, List.append_cancel_left_eq, gapBefore, hnil, textFrom_keyword hproper] at hrest
  exact absurd (hend 'u' _ hrest.symm) (by decide)

/-- The keyword of a recognised directive is found; left are the gap after it and the operand. -/
theorem afterKeyword?_of_isRecognised (h : d.IsRecognised) :
    afterKeyword? "using" ((afterKeyword? "global" (d.textFrom d.front)).getD (d.textFrom d.front)) =
      some ((gapBefore d.operand).dropWhile Text.isBlank ++ d.textFrom d.operand) := by
  have hstart : (afterKeyword? "global" (d.textFrom d.front)).getD (d.textFrom d.front) =
      d.textFrom (d.keyword :: d.operand) := by
    cases hscope : d.scope with
    | none => rw [afterKeyword?_global_of_none hproper hscope, front_of_none hscope, Option.getD_none]
    | some t =>
        have hblank := h.1 (by rw [hscope]; rfl)
        have hbegins : beginsBlank (leadChars d.keyword.lead) = true := by
          obtain ⟨c, rest, hlead⟩ := List.exists_cons_of_ne_nil (lead_keyword hproper hlaid hscope).1
          rw [hlead, List.all_cons, Bool.and_eq_true] at hblank
          rw [hlead]
          exact hblank.1
        rw [afterKeyword?_global_of_some hproper hscope, if_pos hbegins, Option.getD_some,
          List.dropWhile_eq_nil_iff.2 (List.all_eq_true.1 hblank), List.nil_append]
  rw [hstart, afterKeyword?_using hproper hlaid, if_pos h.2]

/-- The keyword of a directive that is not recognised is not found. -/
theorem afterKeyword?_of_not_isRecognised (h : ¬d.IsRecognised) :
    afterKeyword? "using" ((afterKeyword? "global" (d.textFrom d.front)).getD (d.textFrom d.front)) =
      none := by
  cases hscope : d.scope with
  | none =>
      have hnot : ¬beginsBlank (gapBefore d.operand) = true :=
        fun hgap => h ⟨by rw [hscope]; simp, hgap⟩
      rw [afterKeyword?_global_of_none hproper hscope, Option.getD_none, front_of_none hscope,
        afterKeyword?_using hproper hlaid, if_neg hnot]
  | some t =>
      obtain ⟨hne, hspace⟩ := lead_keyword hproper hlaid hscope
      rw [afterKeyword?_global_of_some hproper hscope]
      split
      · rw [Option.getD_some]
        -- what is left of the white space behind `global` would stand before the keyword
        cases hdrop : (leadChars d.keyword.lead).dropWhile Text.isBlank with
        | nil =>
            have hblank := List.all_eq_true.2 (List.dropWhile_eq_nil_iff.1 hdrop)
            have hnot : ¬beginsBlank (gapBefore d.operand) = true :=
              fun hgap => h ⟨fun _ => hblank, hgap⟩
            rw [List.nil_append, afterKeyword?_using hproper hlaid, if_neg hnot]
        | cons c more =>
            rw [← hdrop]
            exact afterKeyword?_eq_none (not_prefix_of_space hspace hdrop (by decide))
      · rw [Option.getD_none, front_of_some hscope, textFrom_cons,
          (isWord_eq_true.1 (hproper.scope t hscope)).2]
        exact afterKeyword?_eq_none (by simp)

/-! ### The modifier -/

/-- What is imported begins with a word that is not the modifier. -/
theorem beginsWithWord_imported :
    ∃ word, BeginsWithWord word (d.textFrom d.imported) ∧ word ≠ "static" := by
  obtain ⟨t, ts, hts, hkind, hne⟩ := hproper.imported
  rw [hts]
  exact ⟨t.text, hlaid.beginsWithWord (hts ▸ imported_suffix) hkind, hne⟩

/-- Behind the modifier there is the name. -/
theorem afterKeyword?_static {t : Token} (hmodifier : d.modifier = some t) :
    afterKeyword? "static" (d.textFrom d.operand) =
      if beginsBlank (gapBefore d.imported) then
        some ((gapBefore d.imported).dropWhile Text.isBlank ++ d.textFrom d.imported)
      else none := by
  obtain ⟨word, hword, -⟩ := beginsWithWord_imported hproper hlaid
  rw [operand, hmodifier, Option.toList_some, List.singleton_append, textFrom_cons,
    (isWord_eq_true.1 (hproper.modifier t hmodifier)).2]
  exact afterKeyword?_gap "static" _ hword.beginsVisibly

/-- The modifier of a directive that loses it is taken for one more keyword. -/
theorem afterKeyword?_of_losesModifier (h : d.LosesModifier) :
    afterKeyword? "static" ((gapBefore d.operand).dropWhile Text.isBlank ++ d.textFrom d.operand) =
      some ((gapBefore d.imported).dropWhile Text.isBlank ++ d.textFrom d.imported) := by
  obtain ⟨hmodifier, hblank, hbegins⟩ := h
  obtain ⟨t, ht⟩ := Option.isSome_iff_exists.1 hmodifier
  rw [List.dropWhile_eq_nil_iff.2 (List.all_eq_true.1 hblank), List.nil_append,
    afterKeyword?_static hproper hlaid ht, if_pos hbegins]

/-- In a directive that keeps its modifier, or has none, no further keyword is found. -/
theorem afterKeyword?_of_not_losesModifier (h : ¬d.LosesModifier) :
    afterKeyword? "static" ((gapBefore d.operand).dropWhile Text.isBlank ++ d.textFrom d.operand) =
      none := by
  cases hdrop : (gapBefore d.operand).dropWhile Text.isBlank with
  | cons c more =>
      have hspace : (gapBefore d.operand).all isSpace = true := hlaid.gapBefore keyword_suffix
      rw [← hdrop]
      exact afterKeyword?_eq_none (not_prefix_of_space hspace hdrop (by decide))
  | nil =>
      have hblank := List.all_eq_true.2 (List.dropWhile_eq_nil_iff.1 hdrop)
      rw [List.nil_append]
      cases hmodifier : d.modifier with
      | none =>
          obtain ⟨word, hword, hne⟩ := beginsWithWord_imported hproper hlaid
          rw [operand, hmodifier, Option.toList_none, List.nil_append]
          exact afterKeyword?_other hword (by decide) hne
      | some t =>
          have hnot : ¬beginsBlank (gapBefore d.imported) = true :=
            fun hgap => h ⟨by rw [hmodifier]; rfl, hblank, hgap⟩
          rw [afterKeyword?_static hproper hlaid hmodifier, if_neg hnot]

/-! ### What is left -/

theorem beginsVisibly_front : BeginsVisibly (d.textFrom d.front) := by
  obtain ⟨t, ts, hfront, hkind⟩ := hproper.exists_front
  rw [hfront]
  exact (hlaid.beginsWithWord (hfront ▸ List.suffix_rfl) hkind).beginsVisibly

/-- A directive whose keyword is not recognised stays as it is. -/
theorem usingText_of_not_isRecognised (h : ¬d.IsRecognised) :
    usingText (Token.verbatim d.all) = Token.verbatim d.all := by
  rw [verbatim_all hproper]
  exact usingText_of_none (beginsVisibly_front hproper hlaid) (d.endsVisibly_textFrom d.front)
    (afterKeyword?_of_not_isRecognised hproper hlaid h)

/-- Otherwise what comes between the keyword and the semicolon stays. -/
theorem usingText_of_not_losesModifier (h : d.IsRecognised) (hmodifier : ¬d.LosesModifier) :
    usingText (Token.verbatim d.all) =
      String.ofList ((gapBefore d.operand).dropWhile Text.isBlank ++ (Token.verbatim d.operand).toList ++
        Text.trimRightChars (leadChars d.semicolon.lead)) := by
  obtain ⟨t, ts, hts, -⟩ := exists_operand hproper
  obtain ⟨c, hc, hclosed⟩ := hlaid.endsVisibly (hts ▸ operand_suffix)
  rw [verbatim_all hproper]
  refine usingText_of_some (beginsVisibly_front hproper hlaid) (d.endsVisibly_textFrom d.front)
    (afterKeyword?_of_isRecognised hproper hlaid h) ?_ ⟨c, hc, ?_⟩
  · rw [afterKeyword?_of_not_losesModifier hproper hlaid hmodifier, Option.getD_none, List.append_assoc]
    rfl
  · rw [hts]
    exact hclosed.append _

/-- And where the modifier is taken for a keyword, only the name stays. -/
theorem usingText_of_losesModifier (h : d.IsRecognised) (hmodifier : d.LosesModifier) :
    usingText (Token.verbatim d.all) =
      String.ofList ((gapBefore d.imported).dropWhile Text.isBlank ++ (Token.verbatim d.imported).toList ++
        Text.trimRightChars (leadChars d.semicolon.lead)) := by
  obtain ⟨t, ts, hts, -⟩ := hproper.imported
  obtain ⟨c, hc, hclosed⟩ := hlaid.endsVisibly (hts ▸ imported_suffix)
  rw [verbatim_all hproper]
  refine usingText_of_some (beginsVisibly_front hproper hlaid) (d.endsVisibly_textFrom d.front)
    (afterKeyword?_of_isRecognised hproper hlaid h) ?_ ⟨c, hc, ?_⟩
  · rw [afterKeyword?_of_losesModifier hproper hlaid hmodifier, Option.getD_some, List.append_assoc]
    rfl
  · rw [hts]
    exact hclosed.append _

end

end Source.UsingTokens

end PlatformClasses
