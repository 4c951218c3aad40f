import PlatformClasses.Proofs.Source.Locality

/-!
# Rows of tokens in a text

The tokens of a source stand in it one after the other, and where only white space is between them the text
is that of the tokens and of the white space (`Row.text`).  Such a row is cut into the same tokens when
something else comes after the next white space or semicolon (`Row.spells`).
-/

namespace PlatformClasses.Source

/-! ## One token -/

/-- A text that begins with neither white space nor a comment nor a directive line. -/
def StartsToken (cs : List Char) : Prop :=
  ∃ c rest, cs = c :: rest ∧ isSpace c = false ∧ c ≠ '#' ∧
    (c = '/' → rest.head? ≠ some '/' ∧ rest.head? ≠ some '*')

/-- A token is at the front of a text, apart from what stands before it. -/
structure StandsAt (t : Token) (cs after : List Char) : Prop where
  start : StartsToken cs
  face : faceAt? cs = some (t.kind, t.text.toList, after)

namespace StandsAt

variable {t : Token} {cs after : List Char}

/-- The text of a token and what follows it make up the text that it stands at. -/
theorem text (h : StandsAt t cs after) : t.text.toList ++ after = cs := (append_of_faceAt? h.face).1

theorem endsVisibly (h : StandsAt t cs after) : EndsVisibly t.text.toList :=
  (append_of_faceAt? h.face).2

/-- A token is not empty. -/
theorem text_ne_nil (h : StandsAt t cs after) : t.text.toList ≠ [] := by
  obtain ⟨c, -, inside, htext⟩ := h.endsVisibly
  simp [htext]

/-- A word is made of characters of names. -/
theorem areNameChars (h : StandsAt t cs after) (hkind : t.kind = .word) :
    AreNameChars t.text.toList := by
  have hface := h.face
  rw [hkind] at hface
  have hname := areNameChars_identifierText cs
  rwa [(identifierText_of_faceAt? hface).1] at hname

/-- What follows a word does not go on with it. -/
theorem not_isIdentifierPart (h : StandsAt t cs after) (hkind : t.kind = .word) {d : Char}
    {rest : List Char} (hafter : after = d :: rest) : Text.isIdentifierPart d = false := by
  have hface := h.face
  rw [hkind] at hface
  obtain ⟨hname, hne⟩ := identifierText_of_faceAt? hface
  exact not_isIdentifierPart_of_identifierText (by rwa [hname]) (by rw [hname, hafter])

/-- A token stays where it is when something else comes after the next white space or semicolon. -/
theorem before {ys rest : List Char} {c c' : Char} (h : StandsAt t cs (ys ++ c :: rest))
    (hc : EndsToken c) (hc' : EndsToken c') (rest' : List Char) :
    StandsAt t (t.text.toList ++ (ys ++ c' :: rest')) (ys ++ c' :: rest') := by
  have hne := h.text_ne_nil
  obtain rfl := h.text
  obtain ⟨d, tail, htext⟩ := List.exists_cons_of_ne_nil hne
  have hslash : c' ≠ '/' := hc'.ne (by decide)
  have hstar : c' ≠ '*' := hc'.ne (by decide)
  refine ⟨?_, ?_⟩
  · obtain ⟨e, more, heq, hspace, hsign, hcomment⟩ := h.start
    rw [htext, List.cons_append] at heq ⊢
    obtain ⟨rfl, rfl⟩ := List.cons.inj heq
    refine ⟨d, _, rfl, hspace, hsign, fun hd => ?_⟩
    have hbefore := hcomment hd
    -- what is looked at behind a slash is a part of the token or of what comes before the white space
    cases hmore : tail ++ ys with
    | nil =>
        rw [← List.append_assoc, hmore]
        simp [hslash, hstar]
    | cons e more =>
        rw [← List.append_assoc, hmore] at hbefore ⊢
        exact hbefore
  · have hne' : t.text.toList ++ ys ≠ [] := by simp [htext]
    have hface := h.face
    rw [← List.append_assoc] at hface ⊢
    exact (faceAt?_before hc' hne').2 ((faceAt?_before hc hne').1 hface)

/-- The tokens of a text are the one at its front and those of what follows. -/
theorem tokensFrom?_eq (h : StandsAt t cs after) (fuel : Nat) (lead : List Trivia) :
    tokensFrom? (fuel + 1) lead cs =
      (tokensFrom? fuel [] after).map (⟨lead.reverse, t.kind, t.text⟩ :: ·) := by
  have htoken : tokenAt? lead.reverse cs = some (⟨lead.reverse, t.kind, t.text⟩, after) := by
    rw [tokenAt?_eq, h.face]
    simp
  obtain ⟨c, rest, rfl, hspace, hsign, hcomment⟩ := h.start
  have hslashes : (c == '/' && rest.head? == some '/') = false := by
    rw [Bool.and_eq_false_imp]
    intro hc
    simpa using (hcomment (eq_of_beq hc)).1
  have hstar : (c == '/' && rest.head? == some '*') = false := by
    rw [Bool.and_eq_false_imp]
    intro hc
    simpa using (hcomment (eq_of_beq hc)).2
  have hsign' : (c == '#') = false := beq_eq_false_iff_ne.2 hsign
  simp only [tokensFrom?, hspace, hslashes, hstar, hsign', Bool.false_eq_true, if_false, htoken,
    Option.bind_eq_bind, Option.bind_some]
  rw [Option.map_eq_bind]
  rfl

theorem spells (h : StandsAt t cs after) {faces : List Face} (hafter : Spells after faces) :
    Spells cs (t.face :: faces) := by
  have hlength := congrArg List.length h.text
  have hpos := List.length_pos_iff.2 h.text_ne_nil
  have hdrop : cs.dropWhile isSpace = cs := by
    obtain ⟨c, rest, rfl, hspace, -⟩ := h.start
    rw [List.dropWhile_cons_of_neg (by simp [hspace])]
  rw [List.length_append] at hlength
  intro fuel lead hfuel hlead
  rw [hdrop] at hfuel ⊢
  obtain ⟨fuel, rfl⟩ := Nat.exists_eq_add_one_of_ne_zero (by omega : fuel ≠ 0)
  obtain ⟨ts, hts, hspelled⟩ := hafter.tokens (by omega : after.length < fuel)
    (by simp : ∀ piece ∈ ([] : List Trivia), IsPlainTrivia piece)
  refine ⟨⟨lead.reverse, t.kind, t.text⟩ :: ts, by rw [h.tokensFrom?_eq, hts]; rfl, ?_, ?_⟩
  · rw [List.map_cons, hspelled.faces]
    rfl
  · intro u hu
    rcases List.mem_cons.1 hu with rfl | hu
    · exact directives_of_plain hlead _ _
    · exact hspelled.directives u hu

end StandsAt

/-- The characters between two tokens. -/
def leadChars (lead : List Trivia) : List Char := lead.flatMap (·.text.toList)

theorem toList_leadText (t : Token) : t.leadText.toList = leadChars t.lead := by
  unfold Token.leadText leadChars
  induction t.lead with
  | nil => rfl
  | cons piece lead ih => rw [List.foldr_cons, List.flatMap_cons, String.toList_append, ih]

/-- Only white space stands before a token. -/
def Token.IsSpaced (t : Token) : Prop := ∀ piece ∈ t.lead, piece.kind = .blank

instance (t : Token) : Decidable t.IsSpaced :=
  inferInstanceAs (Decidable (∀ piece ∈ t.lead, piece.kind = .blank))

/-- A token that is neither the end of the source nor the head of a conditional group. -/
def Token.IsPart (t : Token) : Prop := t.kind ≠ .stop ∧ t.kind ≠ .conditional

instance (t : Token) : Decidable t.IsPart := inferInstanceAs (Decidable (_ ∧ _))

theorem ne_blank_of_lineAt? {cs after : List Char} {piece : Trivia}
    (h : lineAt? cs = some (.trivia piece, after)) : piece.kind ≠ .blank := by
  have hdirective : ∀ {kind : DirectiveKind} {text : String} {left : List Char},
      some (Line.trivia ⟨.directive kind, text⟩, left) = some (.trivia piece, after) →
        piece.kind ≠ .blank := by
    rintro kind text left heq
    obtain ⟨heq, -⟩ := Prod.mk.inj (Option.some.inj heq)
    rw [← Line.trivia.inj heq]
    simp
  unfold lineAt? at h
  simp only at h
  split at h
  · split_ifs at h
    any_goals exact hdirective h
    split at h
    · split_ifs at h
      exact hdirective h
    · simp at h
  · split_ifs at h
    · simp at h
    · split at h
      · split_ifs at h
        simp at h
      · simp at h

/-- The first token of a text stands in it behind what comes before it. -/
theorem exists_standsAt {fuel : Nat} {lead : List Trivia} {cs : List Char} {t : Token}
    {ts : List Token} (h : tokensFrom? fuel lead cs = some (t :: ts)) (ht : t.IsPart) :
    ∃ body after fuel', StandsAt t body after ∧ tokensFrom? fuel' [] after = some ts ∧
      (∀ piece ∈ lead, piece ∈ t.lead) ∧
        (t.IsSpaced → ∃ gap, gap.all isSpace = true ∧ cs = gap ++ body ∧
          leadChars t.lead = leadChars lead.reverse ++ gap) := by
  induction fuel generalizing lead cs with
  | zero => simp [tokensFrom?] at h
  | succ fuel ih =>
      cases cs with
      | nil =>
          obtain ⟨rfl, -⟩ : ⟨lead.reverse, .stop, ""⟩ = t ∧ [] = ts := by simpa [tokensFrom?] using h
          exact absurd rfl ht.1
      | cons c rest =>
          -- a piece of another kind than white space would stand before the token
          have hother : ∀ {piece after}, piece.kind ≠ .blank →
              tokensFrom? fuel (piece :: lead) after = some (t :: ts) →
                ∃ body after fuel', StandsAt t body after ∧ tokensFrom? fuel' [] after = some ts ∧
                  (∀ piece ∈ lead, piece ∈ t.lead) ∧
                    (t.IsSpaced → ∃ gap, gap.all isSpace = true ∧ c :: rest = gap ++ body ∧
                      leadChars t.lead = leadChars lead.reverse ++ gap) := by
            intro piece after hkind hmore
            obtain ⟨body, left, fuel', hstands, hleft, hmem, -⟩ := ih hmore
            refine ⟨body, left, fuel', hstands, hleft,
              fun p hp => hmem p (List.mem_cons_of_mem _ hp), fun hspaced => ?_⟩
            exact absurd (hspaced piece (hmem piece List.mem_cons_self)) hkind
          unfold tokensFrom? at h
          simp only at h
          split at h
          · next hc =>
            obtain ⟨body, left, fuel', hstands, hleft, hmem, hgap⟩ := ih h
            refine ⟨body, left, fuel', hstands, hleft,
              fun p hp => hmem p (List.mem_cons_of_mem _ hp), fun hspaced => ?_⟩
            obtain ⟨gap, hall, hrest, hlead⟩ := hgap hspaced
            refine ⟨c :: rest.takeWhile isSpace ++ gap, ?_, ?_, ?_⟩
            · simp [hc, hall]
            · rw [List.cons_append, List.cons_append, List.append_assoc, ← hrest,
                List.takeWhile_append_dropWhile]
            · rw [hlead, List.reverse_cons]
              simp [leadChars]
          split at h
          · exact hother (by simp) h
          split at h
          · obtain ⟨⟨inside, after⟩, -, h⟩ := Option.bind_eq_some_iff.1 h
            exact hother (by simp) h
          split at h
          · obtain ⟨⟨line, after⟩, hline, h⟩ := Option.bind_eq_some_iff.1 h
            simp only at h
            split at h
            · next piece =>
              exact hother (ne_blank_of_lineAt? hline) h
            · obtain ⟨more, hmore, h⟩ := Option.bind_eq_some_iff.1 h
              obtain ⟨rfl, rfl⟩ := List.cons.inj (Option.some.inj h)
              exact absurd rfl ht.2
          · rename_i hspace hslashes hstar hsign
            obtain ⟨⟨u, after⟩, hu, h⟩ := Option.bind_eq_some_iff.1 h
            obtain ⟨more, hmore, h⟩ := Option.bind_eq_some_iff.1 h
            obtain ⟨rfl, rfl⟩ := List.cons.inj (Option.some.inj h)
            rw [tokenAt?_eq] at hu
            obtain ⟨⟨kind, text, left⟩, hface, heq⟩ := Option.map_eq_some_iff.1 hu
            obtain ⟨rfl, rfl⟩ := Prod.mk.inj heq
            refine ⟨c :: rest, _, fuel, ⟨⟨c, rest, rfl, ?_, ?_, ?_⟩, ?_⟩, hmore, ?_, ?_⟩
            · simpa using hspace
            · simpa using hsign
            · rintro rfl
              simpa using And.intro hslashes hstar
            · simpa using hface
            · exact fun piece hpiece => List.mem_reverse.2 hpiece
            · exact fun _ => ⟨[], rfl, rfl, (List.append_nil _).symm⟩

/-! ## Rows of tokens -/

/-- Tokens stand at the front of a text one after the other, with white space between them. -/
inductive Row : List Char → List Token → List Char → Prop
  | one {t : Token} {cs rest : List Char} (ht : StandsAt t cs rest) : Row cs [t] rest
  | cons {t u : Token} {ts : List Token} {cs body rest : List Char}
      (ht : StandsAt t cs (leadChars u.lead ++ body))
      (hspace : (leadChars u.lead).all isSpace = true) (hts : Row body (u :: ts) rest) :
      Row cs (t :: u :: ts) rest

/-- The first tokens of a text stand in it, if there is only white space between them. -/
theorem exists_row {fuel : Nat} {lead : List Trivia} {cs : List Char} {t : Token}
    {ts more : List Token} (h : tokensFrom? fuel lead cs = some (t :: ts ++ more)) (ht : t.IsPart)
    (hts : ∀ u ∈ ts, u.IsPart ∧ u.IsSpaced) :
    ∃ body rest fuel', Row body (t :: ts) rest ∧ tokensFrom? fuel' [] rest = some more ∧
      (t.IsSpaced → ∃ gap, gap.all isSpace = true ∧ cs = gap ++ body ∧
        leadChars t.lead = leadChars lead.reverse ++ gap) := by
  induction ts generalizing fuel lead cs t with
  | nil =>
      obtain ⟨body, after, fuel', hstands, hafter, -, hgap⟩ := exists_standsAt h ht
      exact ⟨body, after, fuel', .one hstands, hafter, hgap⟩
  | cons u ts ih =>
      obtain ⟨body, after, fuel', hstands, hafter, -, hgap⟩ := exists_standsAt h ht
      obtain ⟨hpart, hspaced⟩ := hts u List.mem_cons_self
      obtain ⟨next, rest, fuel'', hrow, hrest, hnext⟩ :=
        ih hafter hpart fun v hv => hts v (List.mem_cons_of_mem u hv)
      obtain ⟨gap, hall, rfl, hlead⟩ := hnext hspaced
      obtain rfl : leadChars u.lead = gap := hlead
      exact ⟨body, rest, fuel'', .cons hstands hall hrow, hrest, hgap⟩

/-- What stands before the first of some tokens. -/
def gapBefore : List Token → List Char
  | [] => []
  | t :: _ => leadChars t.lead

/-- The text of tokens is that of the first, the gap after it and that of the others. -/
theorem toList_verbatim_cons (t : Token) (ts : List Token) :
    (Token.verbatim (t :: ts)).toList = t.text.toList ++ (gapBefore ts ++ (Token.verbatim ts).toList) := by
  cases ts with
  | nil => simp [Token.verbatim, Token.textAfter, gapBefore]
  | cons u ts =>
      simp only [Token.verbatim, Token.textAfter, gapBefore, String.toList_append, toList_leadText,
        List.append_assoc]

theorem toList_verbatim_append (t u : Token) (ts us : List Token) :
    (Token.verbatim (t :: ts ++ u :: us)).toList =
      (Token.verbatim (t :: ts)).toList ++ (leadChars u.lead ++ (Token.verbatim (u :: us)).toList) := by
  induction ts generalizing t with
  | nil => rw [List.singleton_append, toList_verbatim_cons]; simp [Token.verbatim, Token.textAfter, gapBefore]
  | cons v ts ih =>
      rw [List.cons_append, toList_verbatim_cons, ih, toList_verbatim_cons t (v :: ts)]
      simp only [List.append_assoc, gapBefore, List.cons_append]

namespace Row

variable {cs rest : List Char} {ts : List Token}

theorem text (h : Row cs ts rest) : (Token.verbatim ts).toList ++ rest = cs := by
  induction h with
  | @one t cs rest ht =>
      rw [← ht.text]
      simp [Token.verbatim, Token.textAfter]
  | cons ht hspace hts ih =>
      rw [toList_verbatim_cons, List.append_assoc, List.append_assoc, ih]
      exact ht.text

theorem endsVisibly (h : Row cs ts rest) : EndsVisibly (Token.verbatim ts).toList := by
  induction h with
  | @one t cs rest ht => simpa [Token.verbatim, Token.textAfter] using ht.endsVisibly
  | cons ht hspace hts ih =>
      obtain ⟨c, hc, hclosed⟩ := ih
      rw [toList_verbatim_cons]
      exact ⟨c, hc, (hclosed.append _).append _⟩

theorem standsAt {t : Token} (h : Row cs (t :: ts) rest) : ∃ after, StandsAt t cs after := by
  cases h with
  | one ht => exact ⟨_, ht⟩
  | cons ht _ _ => exact ⟨_, ht⟩

theorem gap {t : Token} (h : Row cs (t :: ts) rest) : (gapBefore ts).all isSpace = true := by
  cases h with
  | one _ => rfl
  | cons _ hspace _ => exact hspace

/-- An end part of a row is a row. -/
theorem exists_of_append {t : Token} {front back : List Token} (h : Row cs (front ++ t :: back) rest) :
    ∃ body, Row body (t :: back) rest := by
  induction front generalizing cs with
  | nil => exact ⟨cs, h⟩
  | cons u front ih =>
      cases front with
      | nil =>
          cases h with
          | cons ht hspace hts => exact ih hts
      | cons v front =>
          cases h with
          | cons ht hspace hts => exact ih hts

/-- A row is cut into its tokens also when something else comes after the next white space or
semicolon. -/
theorem spells {c c' : Char} {rest' : List Char} {faces : List Face} (h : Row cs ts (c :: rest))
    (hc : EndsToken c) (hc' : EndsToken c') (hrest : Spells (c' :: rest') faces) :
    Spells ((Token.verbatim ts).toList ++ c' :: rest') (ts.map Token.face ++ faces) := by
  generalize hend : c :: rest = left at h
  induction h with
  | @one t cs left ht =>
      obtain rfl := hend
      have hbefore : StandsAt t (t.text.toList ++ ([] ++ c' :: rest')) ([] ++ c' :: rest') :=
        StandsAt.before ht hc hc' rest'
      simpa [Token.verbatim, Token.textAfter] using hbefore.spells hrest
  | @cons t u ts cs body left ht hspace hts ih =>
      obtain rfl := hend
      rw [← hts.text, ← List.append_assoc] at ht
      have hbefore := ht.before hc hc' rest'
      rw [List.append_assoc] at hbefore
      have htail := hbefore.spells ((ih rfl).spaces hspace)
      rwa [toList_verbatim_cons, List.append_assoc, List.append_assoc]

end Row

/-! ## A part of the tokens -/

/-- Each end part of the tokens of a text is cut from an end part of the text. -/
theorem exists_of_suffix {fuel : Nat} {lead : List Trivia} {cs : List Char} {all ts : List Token}
    (h : tokensFrom? fuel lead cs = some all) (hts : ts <:+ all) (hne : ts ≠ []) :
    ∃ fuel' lead' cs', tokensFrom? fuel' lead' cs' = some ts := by
  induction fuel generalizing lead cs all with
  | zero => simp [tokensFrom?] at h
  | succ fuel ih =>
      have hcons : ∀ {t : Token} {more : List Token} {after : List Char}, t :: more = all →
          tokensFrom? fuel [] after = some more →
            ∃ fuel' lead' cs', tokensFrom? fuel' lead' cs' = some ts := by
        rintro t more after rfl hmore
        rcases List.suffix_cons_iff.1 hts with rfl | hts
        · exact ⟨fuel + 1, lead, cs, h⟩
        · exact ih hmore hts
      cases cs with
      | nil =>
          obtain rfl : [⟨lead.reverse, .stop, ""⟩] = all := by simpa [tokensFrom?] using h
          rcases List.suffix_cons_iff.1 hts with rfl | hts
          · exact ⟨fuel + 1, lead, [], h⟩
          · exact absurd (List.suffix_nil.1 hts) hne
      | cons c rest =>
          unfold tokensFrom? at h
          simp only at h
          split at h
          · exact ih h hts
          split at h
          · exact ih h hts
          split at h
          · obtain ⟨⟨inside, after⟩, -, h⟩ := Option.bind_eq_some_iff.1 h
            exact ih h hts
          split at h
          · obtain ⟨⟨line, after⟩, -, h⟩ := Option.bind_eq_some_iff.1 h
            simp only at h
            split at h
            · exact ih h hts
            · obtain ⟨more, hmore, h⟩ := Option.bind_eq_some_iff.1 h
              exact hcons (Option.some.inj h) hmore
          · obtain ⟨⟨t, after⟩, -, h⟩ := Option.bind_eq_some_iff.1 h
            obtain ⟨more, hmore, h⟩ := Option.bind_eq_some_iff.1 h
            exact hcons (Option.some.inj h) hmore

end PlatformClasses.Source
