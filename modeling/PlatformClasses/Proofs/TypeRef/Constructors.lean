import PlatformClasses.Backing
import PlatformClasses.Proofs.TypeRef.RoundTrip

/-!
# Building type references from texts

Texts of references are put together to the text of an array, of a type with arguments and of a nullable
type.  For the first two the derivations are put together as well, whatever white space the parts begin and
end with (`parse_brackets`, `parse_genericText`).  A nullable mark is read before the ranks of a reference
and once only, so where it comes after ranks or after another mark it is left over, and the text is refused
(`parse_question`).  Hence a text that does not end in a nullable mark can be given one if and only if it
does not stand for an array (`constructors_accepted_iff`).
-/

namespace PlatformClasses.TypeRef

/-! ## Arrays -/

/-- The reference with an empty rank after its ranks. -/
def addRank : TypeRef → TypeRef
  | mk name arguments nullable ranks => mk name arguments nullable (ranks ++ [""])

/-- Nothing between brackets. -/
def Rank.empty : Rank := ⟨[], by simp⟩

/-- An empty rank makes an array of any type that is accepted. -/
theorem parse_brackets {text : String} {type : TypeRef} (h : parse text = .ok type) :
    parse (text ++ "[]") = .ok type.addRank := by
  obtain ⟨⟨⟨before, name, arguments, question, ranks⟩, trailing⟩, rfl, rfl⟩ :=
    exists_derivation_of_parse h
  -- the white space at the end of the text comes before the new rank
  let d : TextDerivation :=
    ⟨.mk before name arguments question (ranks ++ [(trailing, Rank.empty)]), Blanks.none⟩
  have htext : d.text = TextDerivation.text
      ⟨.mk before name arguments question ranks, trailing⟩ ++ "[]" := by
    rw [← String.toList_inj, String.toList_append, TextDerivation.toList_text,
      TextDerivation.toList_text]
    simp [d, TextDerivation.chars, Derivation.lexemes, rankLexemes, Lexeme.chars, Spelling.chars,
      Rank.empty, Blanks.none]
  have htree : d.tree = (Derivation.mk before name arguments question ranks).tree.addRank := by
    have hempty : rankOf Rank.empty.inner = "" := by decide
    simp [d, TextDerivation.tree, Derivation.tree, addRank, hempty]
  rw [← htext, d.parse_text, htree]
  rfl

/-- A type with an empty rank is an array for every target. -/
theorem isArray_ofTypeRef_addRank (t : Target) (type : TypeRef) :
    (Backing.ofTypeRef t type.addRank).isArray = true := by
  cases type
  simp [Backing.isArray, Backing.ofTypeRef, Target.mapTypeRef, addRank, mapNames, isArray,
    TypeRef.ranks]

/-! ## Types with arguments -/

/-- The text of a type with arguments, given the texts of the arguments. -/
def genericText (name : String) (arguments : List String) : String :=
  name ++ "<" ++ ", ".intercalate arguments ++ ">"

/-- White space before white space. -/
def Blanks.append (b b' : Blanks) : Blanks :=
  ⟨b.chars ++ b'.chars, List.forall_mem_append.2 ⟨b.areBlank, b'.areBlank⟩⟩

/-- The derivation of the same reference after more white space. -/
def Derivation.after (b : Blanks) : Derivation → Derivation
  | mk before name arguments question ranks => mk (b.append before) name arguments question ranks

theorem Derivation.charsOf_after (b : Blanks) (d : Derivation) :
    charsOf (d.after b).lexemes = b.chars ++ charsOf d.lexemes := by
  cases d
  simp [Derivation.after, Derivation.lexemes, Lexeme.chars, Blanks.append, List.append_assoc]

theorem Derivation.tree_after (b : Blanks) (d : Derivation) : (d.after b).tree = d.tree := by
  cases d
  rfl

/-- The arguments after the first, given the white space that the first left at its end. -/
def MoreArguments.ofTexts (left : Blanks) : List TextDerivation → MoreArguments
  | [] => .close left
  | d :: rest => .comma left (d.type.after Blanks.space) (ofTexts d.trailing rest)

theorem MoreArguments.charsOf_ofTexts (left : Blanks) (ds : List TextDerivation) :
    charsOf (ofTexts left ds).lexemes =
      left.chars ++ (ds.flatMap (fun d => ',' :: ' ' :: d.chars) ++ ['>']) := by
  induction ds generalizing left with
  | nil => simp [ofTexts, MoreArguments.lexemes, Lexeme.chars, Spelling.chars]
  | cons d rest ih =>
      rw [ofTexts, MoreArguments.lexemes, charsOf_cons, charsOf_append, d.type.charsOf_after, ih]
      simp [Lexeme.chars, Spelling.chars, Blanks.space, TextDerivation.chars]

theorem MoreArguments.trees_ofTexts (left : Blanks) (ds : List TextDerivation) :
    (ofTexts left ds).trees = ds.map TextDerivation.tree := by
  induction ds generalizing left with
  | nil => rfl
  | cons d rest ih =>
      rw [ofTexts, MoreArguments.trees, d.type.tree_after, ih]
      rfl

theorem toList_intercalate_texts (d : TextDerivation) (ds : List TextDerivation) :
    (", ".intercalate ((d :: ds).map TextDerivation.text)).toList =
      d.chars ++ ds.flatMap fun d => ',' :: ' ' :: d.chars := by
  rw [String.toList_intercalate]
  induction ds generalizing d with
  | nil => simp
  | cons d' rest ih =>
      have hrest := ih d'
      simp only [List.map_cons] at hrest ⊢
      rw [List.intercalate_cons_cons, hrest]
      simp

/-- Texts that are accepted are those of derivations. -/
theorem exists_derivations_of_parse {texts : List String} {types : List TypeRef}
    (h : List.Forall₂ (fun text type => parse text = .ok type) texts types) :
    ∃ ds : List TextDerivation, ds.map TextDerivation.text = texts ∧
      ds.map TextDerivation.tree = types := by
  induction h with
  | nil => exact ⟨[], rfl, rfl⟩
  | cons hparse _ ih =>
      obtain ⟨d, rfl, rfl⟩ := exists_derivation_of_parse hparse
      obtain ⟨ds, rfl, rfl⟩ := ih
      exact ⟨d :: ds, rfl, rfl⟩

/-- Accepted texts between angle brackets are the arguments of a type of any name. -/
theorem parse_genericText {name : String} (hname : isName name = true) {texts : List String}
    {types : List TypeRef} (hne : texts ≠ [])
    (h : List.Forall₂ (fun text type => parse text = .ok type) texts types) :
    parse (genericText name texts) = .ok (.mk name types false []) := by
  obtain ⟨n, hn⟩ := exists_name hname
  obtain ⟨ds, rfl, rfl⟩ := exists_derivations_of_parse h
  cases ds with
  | nil => exact absurd rfl hne
  | cons first others =>
      let d : TextDerivation :=
        ⟨.mk Blanks.none n (.some Blanks.none first.type (.ofTexts first.trailing others)) none [],
          Blanks.none⟩
      have htext : d.text = genericText name ((first :: others).map TextDerivation.text) := by
        rw [← String.toList_inj, d.toList_text, genericText, String.toList_append,
          String.toList_append, String.toList_append, toList_intercalate_texts, ← hn]
        simp [d, TextDerivation.chars, Derivation.lexemes, Arguments.lexemes,
          MoreArguments.charsOf_ofTexts, Lexeme.chars, Spelling.chars, Blanks.none, questionLexemes,
          rankLexemes]
      have htree : d.tree =
          .mk name ((first :: others).map TextDerivation.tree) false [] := by
        have hspelled : String.ofList (n.first :: n.rest) = name := by rw [hn, String.ofList_toList]
        simp [d, TextDerivation.tree, Derivation.tree, Arguments.trees, MoreArguments.trees_ofTexts,
          hspelled]
      rw [← htext, d.parse_text, htree]

/-! ## Nullable types -/

/-- The reference with a nullable mark. -/
def asNullable : TypeRef → TypeRef
  | mk name arguments _ ranks => mk name arguments true ranks

/-- A text is refused if something is left over of its tokens. -/
theorem parse_of_leftover {ls : List Lexeme} (h : Separated ls) {text : String}
    (htext : text.toList = charsOf ls) {type : TypeRef} {token : Token} {rest : List Token}
    (hleft : parseTokens (2 * ls.length + 2) (tokensOf ls) = .ok (type, token :: rest)) :
    parse text = .error (.malformedType text) := by
  have hblank : Text.isAllBlank text = false := by
    cases ls with
    | nil => simp [parseTokens] at hleft
    | cons l ls =>
        obtain ⟨c, hc, hcBlank⟩ := l.exists_mem_chars
        rw [Text.isAllBlank, htext, List.all_eq_false]
        exact ⟨c, List.mem_append_left _ hc, by simp [hcBlank]⟩
  have hscan : scan? text = some (tokensOf ls) := by
    have htrim := trimRightChars_charsOf_append ls Blanks.none
    rw [Blanks.none, List.append_nil] at htrim
    rw [scan?, htext, htrim]
    exact scanFrom?_charsOf h (length_le_length_charsOf ls)
  rw [parse, hblank, hscan]
  simp [hleft]

/-- A nullable mark after ranks or after another mark is left over. -/
theorem parseTokens_question {before : Blanks} {name : Name} {arguments : Arguments}
    {question : Option Blanks} {ranks : List (Blanks × Rank)} (h : question.isSome ∨ ranks ≠ [])
    {fuel : Nat} (hfuel : (Derivation.mk before name arguments question ranks).lexemes.length < fuel) :
    parseTokens fuel
        (tokensOf (Derivation.mk before name arguments question ranks).lexemes ++ [.question]) =
      .ok ((Derivation.mk before name arguments question ranks).tree, [.question]) := by
  cases fuel with
  | zero => omega
  | succ fuel =>
      have hlength : arguments.lexemes.length < fuel := by
        simp only [Derivation.lexemes, List.length_cons, List.length_append] at hfuel
        omega
      have hless : Stops Token.isLess (tokensOf (questionLexemes question) ++
          (tokensOf (rankLexemes ranks) ++ [.question])) := by
        cases question <;> cases ranks <;> exact stops_cons.2 rfl
      have hmarks : question = none → Stops Token.isQuestion
          (tokensOf (rankLexemes ranks) ++ [.question]) := by
        rintro rfl
        cases ranks with
        | nil => simp at h
        | cons rank ranks => exact stops_cons.2 rfl
      have harguments := arguments.parseArguments_lexemes hlength hless
      have hnullable : parseNullable (tokensOf (questionLexemes question) ++
          (tokensOf (rankLexemes ranks) ++ [.question])) =
            (question.isSome, tokensOf (rankLexemes ranks) ++ [.question]) := by
        cases question with
        | none => exact parseNullable_append (hmarks rfl) none
        | some left => rfl
      have hend : Stops Token.isRank [.question] := stops_cons.2 rfl
      have hranks := parseRanks_append hend ranks
      simp only [Derivation.lexemes, tokensOf_cons, tokensOf_append, List.cons_append,
        List.append_assoc]
      show parseTokens (fuel + 1) (.name _ :: _) = _
      rw [parseTokens, harguments]
      simp [bind, Except.bind, hnullable, hranks, pure, Except.pure, Derivation.tree]

/-- The text of a reference and a nullable mark are spelled by its lexemes and that of the mark, which comes
after the white space at the end of the text. -/
theorem TextDerivation.toList_question (d : TextDerivation) :
    (d.text ++ "?").toList = charsOf (d.type.lexemes ++ [⟨d.trailing, .question⟩]) := by
  rw [String.toList_append, toList_text, chars, charsOf_concat]
  simp [Lexeme.chars, Spelling.chars]

theorem parse_question_of_marked {before : Blanks} {name : Name} {arguments : Arguments}
    {question : Option Blanks} {ranks : List (Blanks × Rank)} (h : question.isSome ∨ ranks ≠ [])
    (trailing : Blanks) :
    let d : TextDerivation := ⟨.mk before name arguments question ranks, trailing⟩
    parse (d.text ++ "?") = .error (.malformedType (d.text ++ "?")) := by
  intro d
  have hseparated : Separated (d.type.lexemes ++ [⟨trailing, .question⟩]) :=
    d.type.separated_append (follows_cons rfl List.isChain_nil)
  have hfuel : d.type.lexemes.length <
      2 * (d.type.lexemes ++ [Lexeme.mk trailing .question]).length + 2 := by
    rw [List.length_append]
    omega
  have htokens : tokensOf (d.type.lexemes ++ [⟨trailing, .question⟩]) =
      tokensOf d.type.lexemes ++ [.question] := tokensOf_append _ _
  have hleft := parseTokens_question h hfuel
  rw [← htokens] at hleft
  exact parse_of_leftover hseparated d.toList_question hleft

theorem parse_question_of_plain (before : Blanks) (name : Name) (arguments : Arguments)
    (trailing : Blanks) :
    let d : TextDerivation := ⟨.mk before name arguments none [], trailing⟩
    parse (d.text ++ "?") = .ok d.tree.asNullable := by
  intro d
  let marked : TextDerivation := ⟨.mk before name arguments (some trailing) [], Blanks.none⟩
  have htext : marked.text = d.text ++ "?" := by
    rw [← String.toList_inj, d.toList_question, marked.toList_text]
    simp [marked, d, TextDerivation.chars, Derivation.lexemes, questionLexemes, rankLexemes,
      Blanks.none]
  rw [← htext, marked.parse_text]
  rfl

/-- A nullable mark can be added to a reference that has neither such a mark nor ranks, and to no
other. -/
theorem parse_question {text : String} {type : TypeRef} (h : parse text = .ok type) :
    parse (text ++ "?") =
      if type.nullable || type.isArray then .error (.malformedType (text ++ "?"))
      else .ok type.asNullable := by
  obtain ⟨⟨⟨before, name, arguments, question, ranks⟩, trailing⟩, rfl, rfl⟩ :=
    exists_derivation_of_parse h
  have hmarked : (TypeRef.nullable (Derivation.mk before name arguments question ranks).tree ||
      isArray (Derivation.mk before name arguments question ranks).tree) = true ↔
        question.isSome ∨ ranks ≠ [] := by
    simp [Derivation.tree, nullable, isArray, TypeRef.ranks]
  rw [TextDerivation.tree]
  split
  · next hcondition => exact parse_question_of_marked (hmarked.1 hcondition) trailing
  · next hcondition =>
    obtain ⟨hquestion, hranks⟩ := not_or.1 fun h => hcondition (hmarked.2 h)
    obtain rfl : question = none := by simpa using hquestion
    obtain rfl : ranks = [] := by simpa using hranks
    exact parse_question_of_plain before name arguments trailing

/-- A text ends in a nullable mark, apart from white space. -/
def EndsInQuestion (text : String) : Prop :=
  (Text.trimRightChars text.toList).getLast? = some '?'

/-- A nullable type that is no array is written with its mark at the end. -/
theorem endsInQuestion_of_parse {text : String} {type : TypeRef} (h : parse text = .ok type)
    (hnullable : type.nullable = true) (harray : type.isArray = false) : EndsInQuestion text := by
  obtain ⟨⟨⟨before, name, arguments, question, ranks⟩, trailing⟩, rfl, rfl⟩ :=
    exists_derivation_of_parse h
  obtain rfl : ranks = [] := by
    simpa [TextDerivation.tree, Derivation.tree, isArray, TypeRef.ranks] using harray
  obtain ⟨left, rfl⟩ : ∃ left, question = some left := Option.isSome_iff_exists.1 hnullable
  have hchars : charsOf (Derivation.mk before name arguments (some left) []).lexemes =
      Lexeme.chars ⟨before, .name name⟩ ++ charsOf arguments.lexemes ++ left.chars ++ ['?'] := by
    simp [Derivation.lexemes, questionLexemes, rankLexemes, Lexeme.chars, Spelling.chars]
  rw [EndsInQuestion, TextDerivation.toList_text, TextDerivation.chars, trimRightChars_charsOf_append,
    hchars, List.getLast?_concat]

/-- Every accepted text is accepted with an empty rank, which makes it an array, and as an argument, with
other arguments, of a type of any name.  If it does not end in a nullable mark, it is accepted with one, as
the nullable type, if and only if it does not stand for an array. -/
theorem constructors_accepted_iff {text : String} {type : TypeRef} (h : parse text = .ok type) :
    (parse (text ++ "[]") = .ok type.addRank ∧
        ∀ t, ∃ b, Backing.ofText t (text ++ "[]") = .ok b ∧ b.isArray = true) ∧
      (∀ (name : String) (texts : List String) (types : List TypeRef), isName name = true →
        text ∈ texts → List.Forall₂ (fun text type => parse text = .ok type) texts types →
          parse (genericText name texts) = .ok (.mk name types false [])) ∧
        (¬EndsInQuestion text →
          ((∃ marked, parse (text ++ "?") = .ok marked ∧ marked.nullable = true) ↔
              type.isArray = false) ∧
            (type.isArray = false → parse (text ++ "?") = .ok type.asNullable)) := by
  have hbrackets := parse_brackets h
  refine ⟨⟨hbrackets, fun t => ?_⟩, ?_, ?_⟩
  · refine ⟨Backing.ofTypeRef t type.addRank, ?_, isArray_ofTypeRef_addRank t type⟩
    rw [Backing.ofText, hbrackets]
    rfl
  · intro name texts types hname hmem htypes
    exact parse_genericText hname (List.ne_nil_of_mem hmem) htypes
  · intro hends
    have hquestion := parse_question h
    have haccepts : type.isArray = false → parse (text ++ "?") = .ok type.asNullable := by
      intro harray
      have hplain : type.nullable = false := by
        by_contra hnullable
        exact hends (endsInQuestion_of_parse h (by simpa using hnullable) harray)
      rw [hquestion, hplain, harray]
      rfl
    refine ⟨⟨?_, ?_⟩, haccepts⟩
    · rintro ⟨marked, hmarked, -⟩
      by_contra harray
      rw [Bool.not_eq_false] at harray
      rw [hquestion, harray, Bool.or_true, if_pos rfl] at hmarked
      simp at hmarked
    · intro harray
      obtain ⟨name, arguments, nullable, ranks⟩ := type
      exact ⟨_, haccepts harray, rfl⟩

/-! A dictionary in three roles, and an array that cannot be nullable. -/

private def dictionary : TypeRef :=
  .mk "IDictionary" [.mk "string" [] false [], .mk "int" [] true []] false []

theorem constructors_accepted_of_dictionary :
    parse "IDictionary<string, int?> " = .ok dictionary ∧
      parse "IDictionary<string, int?> []" = .ok dictionary.addRank ∧
        parse "IList<IDictionary<string, int?> >" = .ok (.mk "IList" [dictionary] false []) ∧
          parse "IDictionary<string, int?> ?" = .ok dictionary.asNullable := by
  have hparse : parse "IDictionary<string, int?> " = .ok dictionary := by decide +kernel
  obtain ⟨⟨hbrackets, -⟩, hgeneric, hquestion⟩ := constructors_accepted_iff hparse
  have hends : ¬EndsInQuestion "IDictionary<string, int?> " := by
    unfold EndsInQuestion
    decide +kernel
  refine ⟨hparse, hbrackets, ?_, (hquestion hends).2 (by decide +kernel)⟩
  exact hgeneric "IList" ["IDictionary<string, int?> "] [dictionary] (by decide +kernel)
    List.mem_cons_self (.cons hparse .nil)

/-- An array cannot be given a nullable mark. -/
theorem nullable_array_refused :
    parse "int[]" = .ok (.mk "int" [] false [""]) ∧ ¬EndsInQuestion "int[]" ∧
      parse "int[]?" = .error (.malformedType "int[]?") := by
  unfold EndsInQuestion
  decide +kernel

end PlatformClasses.TypeRef
