import PlatformClasses.Proofs.TypeRef.Parsing

/-!
# What is accepted as a type reference

A text is accepted if and only if the grammar derives it, and then the result is the reference that the
derivation stands for (`parse_accepts_grammar`).  A text has one derivation at most: the lexemes of a
derivation are separated, so the text determines them, and the lexeme at hand decides which part of a
reference comes next (`Derivation.eq_of_lexemes_append`).
-/

namespace PlatformClasses.TypeRef

/-! ## The lexemes of a derivation are separated -/

/-- Separated lexemes of which the first is no name. -/
def Follows (ls : List Lexeme) : Prop := Stops Lexeme.isName ls ∧ Separated ls

theorem follows_nil : Follows [] := ⟨stops_nil _, List.isChain_nil⟩

/-- Any token but a name may follow a name. -/
theorem follows_cons {l : Lexeme} {ls : List Lexeme} (hl : l.isName = false) (h : Separated ls) :
    Follows (l :: ls) :=
  ⟨stops_cons.2 hl, separated_cons_iff.2 ⟨fun hname => by simp [hl] at hname, h⟩⟩

theorem separated_name_cons {before : Blanks} {name : Name} {ls : List Lexeme} (h : Follows ls) :
    Separated (⟨before, .name name⟩ :: ls) := separated_cons_iff.2 ⟨fun _ => h.1, h.2⟩

/-- Ranks may follow a name. -/
theorem follows_rankLexemes_append {rest : List Lexeme} (h : Follows rest)
    (ranks : List (Blanks × Rank)) : Follows (rankLexemes ranks ++ rest) := by
  induction ranks with
  | nil => exact h
  | cons r ranks ih => exact follows_cons rfl ih.2

/-- A question mark may follow a name. -/
theorem follows_questionLexemes_append {rest : List Lexeme} (h : Follows rest)
    (question : Option Blanks) : Follows (questionLexemes question ++ rest) := by
  cases question with
  | none => exact h
  | some before => exact follows_cons rfl h.2

mutual
/-- In the lexemes of a derivation no two names stand side by side, whatever may follow it. -/
theorem Derivation.separated_append : ∀ (d : Derivation) {rest : List Lexeme}, Follows rest →
    Separated (d.lexemes ++ rest)
  | .mk before name arguments question ranks, rest, h => by
      have hmarks := follows_questionLexemes_append (follows_rankLexemes_append h ranks) question
      have harguments := arguments.follows_append hmarks
      simp only [Derivation.lexemes, List.cons_append, List.append_assoc]
      exact separated_name_cons harguments

theorem Arguments.follows_append : ∀ (a : Arguments) {rest : List Lexeme}, Follows rest →
    Follows (a.lexemes ++ rest)
  | .none, rest, h => h
  | .some before first more, rest, h => by
      have hmore := more.follows_append h.2
      have hfirst := first.separated_append hmore
      simp only [Arguments.lexemes, List.cons_append, List.append_assoc]
      exact follows_cons rfl hfirst

theorem MoreArguments.follows_append : ∀ (m : MoreArguments) {rest : List Lexeme},
    Separated rest → Follows (m.lexemes ++ rest)
  | .close before, rest, h => follows_cons rfl h
  | .comma before next more, rest, h => by
      have hmore := more.follows_append h
      have hnext := next.separated_append hmore
      simp only [MoreArguments.lexemes, List.cons_append, List.append_assoc]
      exact follows_cons rfl hnext
end

/-- The lexemes of a derivation are separated. -/
theorem Derivation.separated (d : Derivation) : Separated d.lexemes := by
  have h := d.separated_append follows_nil
  rwa [List.append_nil] at h

/-! ## A text has one derivation at most -/

/-- Ranks are determined by their lexemes, if no rank follows. -/
theorem rankLexemes_append_inj {ranks ranks' : List (Blanks × Rank)} {rest rest' : List Lexeme}
    (h : Stops Token.isRank (tokensOf rest)) (h' : Stops Token.isRank (tokensOf rest'))
    (heq : rankLexemes ranks ++ rest = rankLexemes ranks' ++ rest') :
    ranks = ranks' ∧ rest = rest' := by
  induction ranks generalizing ranks' with
  | nil =>
      cases ranks' with
      | nil => exact ⟨rfl, heq⟩
      | cons r' ranks' =>
          obtain rfl : rest = rankLexemes (r' :: ranks') ++ rest' := heq
          exact absurd (stops_cons.1 h) (by simp [Token.isRank])
  | cons r ranks ih =>
      cases ranks' with
      | nil =>
          obtain rfl : rankLexemes (r :: ranks) ++ rest = rest' := heq
          exact absurd (stops_cons.1 h') (by simp [Token.isRank])
      | cons r' ranks' =>
          obtain ⟨hhead, htail⟩ := List.cons.inj heq
          obtain ⟨hbefore, hrank⟩ : r.1 = r'.1 ∧ r.2 = r'.2 := by simpa using hhead
          obtain ⟨rfl, rfl⟩ := ih htail
          exact ⟨by rw [Prod.ext hbefore hrank], rfl⟩

/-- A question mark is determined by its lexemes, if none follows. -/
theorem questionLexemes_append_inj {question question' : Option Blanks} {rest rest' : List Lexeme}
    (h : Stops Token.isQuestion (tokensOf rest)) (h' : Stops Token.isQuestion (tokensOf rest'))
    (heq : questionLexemes question ++ rest = questionLexemes question' ++ rest') :
    question = question' ∧ rest = rest' := by
  cases question with
  | none =>
      cases question' with
      | none => exact ⟨rfl, heq⟩
      | some before' =>
          obtain rfl : rest = questionLexemes (some before') ++ rest' := heq
          exact absurd (stops_cons.1 h) (by simp [Token.isQuestion])
  | some before =>
      cases question' with
      | none =>
          obtain rfl : questionLexemes (some before) ++ rest = rest' := heq
          exact absurd (stops_cons.1 h') (by simp [Token.isQuestion])
      | some before' =>
          obtain ⟨hhead, htail⟩ := List.cons.inj heq
          obtain rfl : before = before' := by simpa using hhead
          exact ⟨rfl, htail⟩

mutual
/-- A derivation can be told from the front of lexemes of which the rest cannot go on a reference. -/
theorem Derivation.eq_of_lexemes_append : ∀ (d d' : Derivation) {rest rest' : List Lexeme},
    Stops Token.goesOn (tokensOf rest) → Stops Token.goesOn (tokensOf rest') →
      d.lexemes ++ rest = d'.lexemes ++ rest' → d = d' ∧ rest = rest'
  | .mk before name arguments question ranks, .mk before' name' arguments' question' ranks',
      rest, rest', h, h', heq => by
      simp only [Derivation.lexemes, List.cons_append, List.append_assoc, List.cons.injEq,
        Lexeme.mk.injEq, Spelling.name.injEq] at heq
      obtain ⟨⟨rfl, rfl⟩, hparts⟩ := heq
      have hless := stops_isLess_append h question ranks
      have hless' := stops_isLess_append h' question' ranks'
      rw [← tokensOf_append, ← tokensOf_append] at hless hless'
      obtain ⟨rfl, hmarks⟩ := arguments.eq_of_lexemes_append arguments' hless hless' hparts
      have hmark := stops_isQuestion_append h ranks
      have hmark' := stops_isQuestion_append h' ranks'
      rw [← tokensOf_append] at hmark hmark'
      obtain ⟨rfl, hranks⟩ := questionLexemes_append_inj hmark hmark' hmarks
      obtain ⟨rfl, rfl⟩ := rankLexemes_append_inj (stops_isRank_of_goesOn h)
        (stops_isRank_of_goesOn h') hranks
      exact ⟨rfl, rfl⟩

/-- Type arguments are determined by their lexemes, if no bracket follows them. -/
theorem Arguments.eq_of_lexemes_append : ∀ (a a' : Arguments) {rest rest' : List Lexeme},
    Stops Token.isLess (tokensOf rest) → Stops Token.isLess (tokensOf rest') →
      a.lexemes ++ rest = a'.lexemes ++ rest' → a = a' ∧ rest = rest'
  | .none, .none, rest, rest', h, h', heq => ⟨rfl, heq⟩
  | .none, .some before' first' more', rest, rest', h, h', heq => by
      obtain rfl : rest = (Arguments.some before' first' more').lexemes ++ rest' := heq
      exact absurd (stops_cons.1 h) (by simp [Token.isLess])
  | .some before first more, .none, rest, rest', h, h', heq => by
      obtain rfl : (Arguments.some before first more).lexemes ++ rest = rest' := heq
      exact absurd (stops_cons.1 h') (by simp [Token.isLess])
  | .some before first more, .some before' first' more', rest, rest', h, h', heq => by
      simp only [Arguments.lexemes, List.cons_append, List.append_assoc, List.cons.injEq,
        Lexeme.mk.injEq, and_true] at heq
      obtain ⟨rfl, hparts⟩ := heq
      have hgoes := more.stops_goesOn (tokensOf rest)
      have hgoes' := more'.stops_goesOn (tokensOf rest')
      rw [← tokensOf_append] at hgoes hgoes'
      obtain ⟨rfl, hmore⟩ := first.eq_of_lexemes_append first' hgoes hgoes' hparts
      obtain ⟨rfl, rfl⟩ := more.eq_of_lexemes_append more' hmore
      exact ⟨rfl, rfl⟩

/-- The arguments after the first are determined up to the closing bracket. -/
theorem MoreArguments.eq_of_lexemes_append : ∀ (m m' : MoreArguments) {rest rest' : List Lexeme},
    m.lexemes ++ rest = m'.lexemes ++ rest' → m = m' ∧ rest = rest'
  | .close before, .close before', rest, rest', heq => by
      obtain ⟨rfl, rfl⟩ : before = before' ∧ rest = rest' := by
        simpa [MoreArguments.lexemes] using heq
      exact ⟨rfl, rfl⟩
  | .close before, .comma before' next' more', rest, rest', heq => by
      simp [MoreArguments.lexemes] at heq
  | .comma before next more, .close before', rest, rest', heq => by
      simp [MoreArguments.lexemes] at heq
  | .comma before next more, .comma before' next' more', rest, rest', heq => by
      simp only [MoreArguments.lexemes, List.cons_append, List.append_assoc, List.cons.injEq,
        Lexeme.mk.injEq, and_true] at heq
      obtain ⟨rfl, hparts⟩ := heq
      have hgoes := more.stops_goesOn (tokensOf rest)
      have hgoes' := more'.stops_goesOn (tokensOf rest')
      rw [← tokensOf_append] at hgoes hgoes'
      obtain ⟨rfl, hmore⟩ := next.eq_of_lexemes_append next' hgoes hgoes' hparts
      obtain ⟨rfl, rfl⟩ := more.eq_of_lexemes_append more' hmore
      exact ⟨rfl, rfl⟩
end

namespace TextDerivation

@[simp] theorem toList_text (d : TextDerivation) : d.text.toList = d.chars := String.toList_ofList

/-- A text has at most one derivation. -/
theorem eq_of_text_eq {d d' : TextDerivation} (h : d.text = d'.text) : d = d' := by
  have hchars : d.chars = d'.chars := by rw [← d.toList_text, h, d'.toList_text]
  obtain ⟨type, trailing⟩ := d
  obtain ⟨type', trailing'⟩ := d'
  obtain ⟨hlexemes, rfl⟩ := eq_of_charsOf_append_eq type.separated type'.separated hchars
  have hall : type.lexemes ++ [] = type'.lexemes ++ [] := by rw [hlexemes]
  obtain ⟨rfl, -⟩ := type.eq_of_lexemes_append type' (stops_nil _) (stops_nil _) hall
  rfl

/-! ## Derived texts are accepted -/

/-- The text of a derivation is not blank. -/
theorem isAllBlank_text (d : TextDerivation) : Text.isAllBlank d.text = false := by
  obtain ⟨⟨before, name, arguments, question, ranks⟩, trailing⟩ := d
  obtain ⟨c, hc, hblank⟩ := Lexeme.exists_mem_chars ⟨before, .name name⟩
  rw [Text.isAllBlank, List.all_eq_false]
  refine ⟨c, ?_, by simp [hblank]⟩
  rw [toList_text]
  exact List.mem_append_left _ (List.mem_append_left _ hc)

/-- The scanner finds the tokens of a derivation. -/
theorem scan?_text (d : TextDerivation) : scan? d.text = some (tokensOf d.type.lexemes) := by
  rw [scan?, toList_text, chars, trimRightChars_charsOf_append]
  exact scanFrom?_charsOf d.type.separated (length_le_length_charsOf _)

/-- The text of a derivation is parsed to its tree. -/
theorem parse_text (d : TextDerivation) : parse d.text = .ok d.tree := by
  have hfuel : d.type.lexemes.length < 2 * d.type.lexemes.length + 2 := by omega
  have htokens := d.type.parseTokens_lexemes hfuel (stops_nil _)
  rw [List.append_nil] at htokens
  rw [parse, d.isAllBlank_text, d.scan?_text]
  simp [htokens, tree]

end TextDerivation

/-! ## Accepted texts are derived -/

/-- Whatever is parsed has a derivation. -/
theorem exists_derivation_of_parse {text : String} {t : TypeRef} (h : parse text = .ok t) :
    ∃ d : TextDerivation, d.text = text ∧ d.tree = t := by
  unfold parse at h
  split at h
  · simp at h
  · split at h
    · simp at h
    · next tokens hscan =>
      split at h
      · next tree hparse =>
        obtain rfl : tree = t := by simpa using h
        obtain ⟨ls, hchars, rfl⟩ := exists_lexemes_of_scanFrom? hscan
        obtain ⟨d, rest, rfl, hrest, rfl⟩ := (reads_parse _).1 ls tree [] hparse
        obtain rfl : rest = [] := List.map_eq_nil_iff.1 hrest
        obtain ⟨trailing, htext⟩ := exists_eq_trimRightChars_append text.toList
        refine ⟨⟨d, trailing⟩, ?_, rfl⟩
        rw [List.append_nil] at hchars
        rw [← String.toList_inj, TextDerivation.toList_text, TextDerivation.chars, hchars, ← htext]
      all_goals simp at h

/-- Every other text is refused for what it is. -/
theorem category_subject_of_parse {text : String} {fault : Fault} (h : parse text = .error fault) :
    fault.category = .configuration ∧ fault.subject = text := by
  unfold parse at h
  split at h
  · cases h
    exact ⟨rfl, rfl⟩
  · split at h
    · cases h
      exact ⟨rfl, rfl⟩
    · split at h
      · simp at h
      all_goals
        cases h
        exact ⟨rfl, rfl⟩

/-- A text is accepted as a reference if and only if the grammar derives it, by one derivation, and the
reference is the one that the derivation stands for.  Every other text is refused with a fault of the
configuration that names it.  Neither scanning nor parsing ever comes to the bound on its steps: with
more steps they give the same. -/
theorem parse_accepts_grammar (text : String) :
    (∀ t, parse text = .ok t ↔ ∃ d : TextDerivation, d.text = text ∧ d.tree = t) ∧
      Subsingleton {d : TextDerivation // d.text = text} ∧
        ((∃ fault, parse text = .error fault ∧ fault.category = .configuration ∧
            fault.subject = text) ↔ IsEmpty {d : TextDerivation // d.text = text}) ∧
          (∀ (cs : List Char) (more : Nat), scanFrom? (cs.length + more) cs = scanFrom? cs.length cs) ∧
            ∀ (tokens : List Token) (more : Nat),
              parseTokens (2 * tokens.length + 2 + more) tokens =
                parseTokens (2 * tokens.length + 2) tokens := by
  have haccepts : ∀ t, parse text = .ok t ↔ ∃ d : TextDerivation, d.text = text ∧ d.tree = t := by
    intro t
    constructor
    · exact exists_derivation_of_parse
    · rintro ⟨d, rfl, rfl⟩
      exact d.parse_text
  refine ⟨haccepts, ⟨?_⟩, ?_, ?_, ?_⟩
  · rintro ⟨d, hd⟩ ⟨d', hd'⟩
    exact Subtype.ext (TextDerivation.eq_of_text_eq (hd.trans hd'.symm))
  · constructor
    · rintro ⟨fault, hfault, -, -⟩
      refine ⟨fun ⟨d, hd⟩ => ?_⟩
      rw [(haccepts d.tree).2 ⟨d, hd, rfl⟩] at hfault
      simp at hfault
    · intro hnone
      cases hparse : parse text with
      | error fault => exact ⟨fault, rfl, category_subject_of_parse hparse⟩
      | ok t =>
          obtain ⟨d, hd, -⟩ := (haccepts t).1 hparse
          exact (hnone.false ⟨d, hd⟩).elim
  · intro cs more
    exact scanFrom?_eq_of_length_le (Nat.le_add_right ..) le_rfl
  · intro tokens more
    have hfuel : tokens.length + 1 ≤ 2 * tokens.length + 2 := by omega
    exact (agreeBelow_parse (Nat.le_add_right_of_le hfuel) hfuel).1 tokens (Nat.lt_succ_self _)

end PlatformClasses.TypeRef
