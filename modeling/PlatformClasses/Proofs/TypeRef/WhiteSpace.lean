import PlatformClasses.Backing
import PlatformClasses.Proofs.TypeRef.RoundTrip

/-!
# White space in type references

White space does not count in a type reference, but for one place: between the brackets of a rank only
plain spaces are dropped, and the reference keeps any other white space.  `essentialChars` is what counts in
a text.  It spells the tokens of the text and nothing else (`essentialChars_charsOf`), the tokens are those
of the reference (`Derivation.tokensOf_lexemes`), and the scanner finds them in what counts, since the
lexemes with nothing before them are separated as well.  So two texts stand for the same reference if and
only if the same counts in both of them.

To compare texts without any white space is coarser: it agrees with comparing references exactly on texts
whose ranks do not differ in it (`whiteSpace_agrees_iff`).
-/

namespace PlatformClasses.TypeRef

/-! ## What counts in a text -/

/-- What counts in the rest of a text, which goes on inside or outside the brackets of a rank: all but
white space, and inside also white space other than plain spaces. -/
def essentialChars (inRank : Bool) : List Char → List Char
  | [] => []
  | c :: rest =>
    if Text.isBlank c && (c == ' ' || !inRank) then essentialChars inRank rest
    else c :: essentialChars (c == '[' || (inRank && c != ']')) rest

/-- What counts in a text. -/
def essentialText (text : String) : String := String.ofList (essentialChars false text.toList)

/-- The characters that spell a token. -/
def Token.chars : Token → List Char
  | name text => text.toList
  | rank text => '[' :: (text.toList ++ [']'])
  | less => ['<']
  | greater => ['>']
  | comma => [',']
  | question => ['?']

/-- Only white space is left out. -/
theorem filter_essentialChars (inRank : Bool) (cs : List Char) :
    (essentialChars inRank cs).filter (fun c => !Text.isBlank c) =
      cs.filter fun c => !Text.isBlank c := by
  induction cs generalizing inRank with
  | nil => rfl
  | cons c rest ih =>
      unfold essentialChars
      cases hblank : Text.isBlank c with
      | false => simp [hblank, ih]
      | true => split <;> simp [hblank, ih]

/-- Nothing but white space is left out of a text. -/
theorem withoutBlanks_essentialText (text : String) :
    Text.withoutBlanks (essentialText text) = Text.withoutBlanks text := by
  rw [Text.withoutBlanks, essentialText, String.toList_ofList, filter_essentialChars,
    Text.withoutBlanks]

/-- Outside the brackets of ranks no white space counts. -/
theorem essentialChars_blanks_append (b : Blanks) (rest : List Char) :
    essentialChars false (b.chars ++ rest) = essentialChars false rest := by
  obtain ⟨cs, hcs⟩ := b
  induction cs with
  | nil => rfl
  | cons c cs ih =>
      rw [List.forall_mem_cons] at hcs
      rw [List.cons_append, essentialChars, hcs.1, Bool.not_false, Bool.or_true, Bool.and_true,
        if_pos rfl]
      exact ih hcs.2

theorem essentialChars_name_append {cs : List Char} (hcs : ∀ c ∈ cs, isNamePart c = true)
    (rest : List Char) : essentialChars false (cs ++ rest) = cs ++ essentialChars false rest := by
  induction cs with
  | nil => rfl
  | cons c cs ih =>
      rw [List.forall_mem_cons] at hcs
      have hopen : (c == '[') = false := by
        rw [beq_eq_false_iff_ne]
        rintro rfl
        exact absurd hcs.1 (by decide)
      rw [List.cons_append, essentialChars, isBlank_of_isNamePart hcs.1, hopen]
      simp [ih hcs.2]

/-- Between brackets plain spaces are left out. -/
theorem essentialChars_rank_append {inner : List Char} (hinner : ∀ c ∈ inner, isRankPart c = true)
    (rest : List Char) : essentialChars true (inner ++ ']' :: rest) =
      inner.filter (· != ' ') ++ ']' :: essentialChars false rest := by
  induction inner with
  | nil => rfl
  | cons c inner ih =>
      rw [List.forall_mem_cons] at hinner
      rw [List.cons_append, essentialChars]
      by_cases hspace : c = ' '
      · subst hspace
        exact ih hinner.2
      · have hstays : (c == '[' || (true && c != ']')) = true := by
          have hclose : c ≠ ']' := by
            rintro rfl
            exact absurd hinner.1 (by decide)
          simp [hclose]
        rw [hstays, ih hinner.2]
        simp [hspace]

/-- What counts of a spelling are the characters of its token. -/
theorem Spelling.essentialChars_append (s : Spelling) (rest : List Char) :
    essentialChars false (s.chars ++ rest) = s.token.chars ++ essentialChars false rest := by
  cases s with
  | name n =>
      have hparts : ∀ c ∈ n.first :: n.rest, isNamePart c = true :=
        List.forall_mem_cons.2 ⟨isNamePart_of_isNameStart n.isStart, n.areParts⟩
      rw [Spelling.chars, essentialChars_name_append hparts, Spelling.token, Token.chars,
        String.toList_ofList]
  | rank r =>
      have hinner := essentialChars_rank_append r.areParts rest
      have hopen : essentialChars false ('[' :: (r.inner ++ ']' :: rest)) =
          '[' :: essentialChars true (r.inner ++ ']' :: rest) := rfl
      rw [Spelling.token, Token.chars, rankOf, String.toList_ofList]
      simp [Spelling.chars, hopen, hinner]
  | less => rfl
  | greater => rfl
  | comma => rfl
  | question => rfl

/-- What counts in a text are its tokens. -/
theorem essentialChars_charsOf (ls : List Lexeme) (trailing : Blanks) :
    essentialChars false (charsOf ls ++ trailing.chars) = (tokensOf ls).flatMap Token.chars := by
  induction ls with
  | nil =>
      have hblank := essentialChars_blanks_append trailing []
      rwa [List.append_nil] at hblank
  | cons l ls ih =>
      rw [charsOf_cons, Lexeme.chars, List.append_assoc, List.append_assoc,
        essentialChars_blanks_append, Spelling.essentialChars_append, ih]
      rfl

/-! ## What counts determines the tokens -/

/-- A token without plain spaces in it. -/
def Spelling.tight : Spelling → Spelling
  | rank r => rank ⟨r.inner.filter (· != ' '), fun c hc => r.areParts c (List.mem_filter.1 hc).1⟩
  | s => s

/-- A lexeme of which all counts. -/
def Lexeme.tight (l : Lexeme) : Lexeme := ⟨Blanks.none, l.spelling.tight⟩

theorem Lexeme.token_tight (l : Lexeme) : l.tight.token = l.token := by
  obtain ⟨before, s⟩ := l
  cases s <;> simp [tight, Spelling.tight, rankOf]

theorem Lexeme.chars_tight (l : Lexeme) : l.tight.chars = l.token.chars := by
  obtain ⟨before, s⟩ := l
  cases s <;> simp [tight, Spelling.tight, Lexeme.chars, Blanks.none, Spelling.chars, Token.chars, rankOf]

theorem Lexeme.isName_tight (l : Lexeme) : l.tight.isName = l.isName := by
  obtain ⟨before, s⟩ := l
  cases s <;> rfl

/-- Lexemes without white space are the characters of their tokens. -/
theorem charsOf_map_tight (ls : List Lexeme) :
    charsOf (ls.map Lexeme.tight) = (tokensOf ls).flatMap Token.chars := by
  rw [charsOf, tokensOf, List.flatMap_map, List.flatMap_map]
  exact congrArg (ls.flatMap ·) (funext Lexeme.chars_tight)

/-- Taking white space out keeps names apart. -/
theorem separated_map_tight {ls : List Lexeme} (h : Separated ls) :
    Separated (ls.map Lexeme.tight) := by
  unfold Separated at h ⊢
  rw [List.isChain_map]
  simpa only [Lexeme.isName_tight] using h

/-- Separated lexemes of which the same counts are the same tokens. -/
theorem tokensOf_eq_of_flatMap_chars_eq {ls ls' : List Lexeme} (h : Separated ls)
    (h' : Separated ls')
    (heq : (tokensOf ls).flatMap Token.chars = (tokensOf ls').flatMap Token.chars) :
    tokensOf ls = tokensOf ls' := by
  have hchars : charsOf (ls.map Lexeme.tight) ++ Blanks.none.chars =
      charsOf (ls'.map Lexeme.tight) ++ Blanks.none.chars := by
    rw [charsOf_map_tight, charsOf_map_tight, heq]
  have hlexemes := (eq_of_charsOf_append_eq (separated_map_tight h) (separated_map_tight h') hchars).1
  have htokens : ∀ ls : List Lexeme, tokensOf (ls.map Lexeme.tight) = tokensOf ls := by
    intro ls
    rw [tokensOf, List.map_map]
    exact List.map_congr_left fun l _ => l.token_tight
  rw [← htokens ls, hlexemes, htokens]

/-! ## Tokens and references determine each other -/

mutual
/-- The tokens of a reference. -/
def tokens : TypeRef → List Token
  | mk name arguments nullable ranks =>
    .name name :: (argumentTokens arguments ++
      ((if nullable then [.question] else []) ++ ranks.map .rank))

/-- The tokens of type arguments in their brackets; none if there are no arguments. -/
def argumentTokens : List TypeRef → List Token
  | [] => []
  | t :: rest => .less :: (tokens t ++ moreTokens rest)

/-- The tokens of the arguments after the first, up to the closing bracket. -/
def moreTokens : List TypeRef → List Token
  | [] => [.greater]
  | t :: rest => .comma :: (tokens t ++ moreTokens rest)
end

theorem tokensOf_questionLexemes (question : Option Blanks) :
    tokensOf (questionLexemes question) = if question.isSome then [.question] else [] := by
  cases question <;> rfl

theorem tokensOf_rankLexemes (ranks : List (Blanks × Rank)) :
    tokensOf (rankLexemes ranks) = (ranks.map fun r => rankOf r.2.inner).map .rank := by
  rw [tokensOf, rankLexemes, List.map_map, List.map_map]
  rfl

mutual
/-- The tokens that are derived are those of the reference. -/
theorem Derivation.tokensOf_lexemes : ∀ d : Derivation, tokensOf d.lexemes = d.tree.tokens
  | .mk before name arguments question ranks => by
      rw [Derivation.lexemes, Derivation.tree, tokens, tokensOf_cons, tokensOf_append,
        tokensOf_append, arguments.tokensOf_lexemes, tokensOf_questionLexemes, tokensOf_rankLexemes]
      rfl

/-- The tokens of type arguments are determined by their trees. -/
theorem Arguments.tokensOf_lexemes : ∀ a : Arguments,
    tokensOf a.lexemes = argumentTokens a.trees
  | .none => rfl
  | .some before first more => by
      rw [Arguments.lexemes, Arguments.trees, argumentTokens, tokensOf_cons, tokensOf_append,
        first.tokensOf_lexemes, more.tokensOf_lexemes]
      rfl

theorem MoreArguments.tokensOf_lexemes : ∀ m : MoreArguments,
    tokensOf m.lexemes = moreTokens m.trees
  | .close before => rfl
  | .comma before next more => by
      rw [MoreArguments.lexemes, MoreArguments.trees, moreTokens, tokensOf_cons, tokensOf_append,
        next.tokensOf_lexemes, more.tokensOf_lexemes]
      rfl
end

/-- References with the same tokens are the same, as the parser reads them from their tokens. -/
theorem Derivation.tree_eq_of_tokensOf_eq {d d' : Derivation}
    (h : tokensOf d.lexemes = tokensOf d'.lexemes) : d.tree = d'.tree := by
  have hparse : ∀ d : Derivation,
      parseTokens ((tokensOf d.lexemes).length + 1) (tokensOf d.lexemes) = .ok (d.tree, []) := by
    intro d
    have hfuel : d.lexemes.length < (tokensOf d.lexemes).length + 1 := by
      rw [length_tokensOf]
      exact Nat.lt_succ_self _
    have hread := d.parseTokens_lexemes hfuel (stops_nil _)
    rwa [List.append_nil] at hread
  have hd := hparse d
  rw [h, hparse d', Except.ok.injEq, Prod.mk.injEq] at hd
  exact hd.1.symm

/-! ## Texts of one reference -/

/-- What counts of a text are the characters of its tokens. -/
theorem essentialText_text (d : TextDerivation) :
    (essentialText d.text).toList = (tokensOf d.type.lexemes).flatMap Token.chars := by
  rw [essentialText, String.toList_ofList, d.toList_text, TextDerivation.chars,
    essentialChars_charsOf]

/-- Two texts stand for the same reference if and only if the same counts in them. -/
theorem eq_iff_essentialText_eq {text text' : String} {type type' : TypeRef}
    (h : parse text = .ok type) (h' : parse text' = .ok type') :
    type = type' ↔ essentialText text = essentialText text' := by
  obtain ⟨d, rfl, rfl⟩ := exists_derivation_of_parse h
  obtain ⟨d', rfl, rfl⟩ := exists_derivation_of_parse h'
  rw [← String.toList_inj, essentialText_text, essentialText_text]
  constructor
  · intro htree
    rw [d.type.tokensOf_lexemes, d'.type.tokensOf_lexemes]
    exact congrArg (fun type : TypeRef => type.tokens.flatMap Token.chars) htree
  · intro hchars
    exact Derivation.tree_eq_of_tokensOf_eq
      (tokensOf_eq_of_flatMap_chars_eq d.type.separated d'.type.separated hchars)

/-- Parsed types are written alike only if they are the same. -/
theorem render_inj_of_parse {text text' : String} {type type' : TypeRef}
    (h : parse text = .ok type) (h' : parse text' = .ok type') :
    type.render = type'.render ↔ type = type' := by
  refine ⟨fun hrender => ?_, congrArg render⟩
  have hparse := parse_render_of_isWritable (isWritable_of_parse h)
  rw [hrender, parse_render_of_isWritable (isWritable_of_parse h')] at hparse
  exact (Except.ok.inj hparse).symm

/-- Two texts stand for the same reference, and the declared type is printed alike for them, if and only if
the same counts in them.  Then they are equal without their white space.  The converse holds for two texts
if and only if their being equal without white space means that the same counts in them: no rank of one has
white space, other than plain spaces, that the same rank of the other has not. -/
theorem whiteSpace_agrees_iff {text text' : String} {type type' : TypeRef}
    (h : parse text = .ok type) (h' : parse text' = .ok type') :
    (type = type' ↔ essentialText text = essentialText text') ∧
      (∀ (t : Target) (b b' : Backing), Backing.ofText t text = .ok b →
        Backing.ofText t text' = .ok b' →
          (b.sourceText = b'.sourceText ↔ essentialText text = essentialText text')) ∧
        (type = type' → Text.withoutBlanks text = Text.withoutBlanks text') ∧
          ((Text.withoutBlanks text = Text.withoutBlanks text' ↔ type = type') ↔
            (Text.withoutBlanks text = Text.withoutBlanks text' →
              essentialText text = essentialText text')) := by
  have hsame := eq_iff_essentialText_eq h h'
  have hblanks : type = type' → Text.withoutBlanks text = Text.withoutBlanks text' := by
    intro heq
    rw [← withoutBlanks_essentialText text, hsame.1 heq, withoutBlanks_essentialText]
  refine ⟨hsame, ?_, hblanks, ?_⟩
  · intro t b b' hb hb'
    obtain ⟨source, hsource, rfl⟩ := map_eq_ok.1 hb
    obtain ⟨source', hsource', rfl⟩ := map_eq_ok.1 hb'
    exact (render_inj_of_parse hsource hsource').trans (eq_iff_essentialText_eq hsource hsource')
  · rw [← hsame]
    exact ⟨Iff.mp, fun hback => ⟨hback, hblanks⟩⟩

/-! A list of arrays of two dimensions in two layouts, and a rank with a tabulator. -/

private def listOfTables : TypeRef := .mk "IList" [.mk "IBrush" [] true [","]] false [""]

theorem whiteSpace_agrees_of_list :
    parse " IList\t< IBrush ?[ , ] >\n[ ]" = .ok listOfTables ∧
      parse "IList<IBrush?[,]>[]" = .ok listOfTables ∧
        Text.withoutBlanks " IList\t< IBrush ?[ , ] >\n[ ]" =
          Text.withoutBlanks "IList<IBrush?[,]>[]" := by
  have hwide : parse " IList\t< IBrush ?[ , ] >\n[ ]" = .ok listOfTables := by decide +kernel
  have hnarrow : parse "IList<IBrush?[,]>[]" = .ok listOfTables := by decide +kernel
  exact ⟨hwide, hnarrow, (whiteSpace_agrees_iff hwide hnarrow).2.2.1 rfl⟩

/-- A tabulator between brackets makes another reference, though white space is all that differs. -/
theorem tabulator_kept_in_rank :
    Text.withoutBlanks "int[\t]" = Text.withoutBlanks "int[]" ∧
      parse "int[\t]" = .ok (.mk "int" [] false ["\t"]) ∧
        parse "int[]" = .ok (.mk "int" [] false [""]) ∧
          TypeRef.mk "int" [] false ["\t"] ≠ .mk "int" [] false [""] := by
  decide +kernel

end PlatformClasses.TypeRef
