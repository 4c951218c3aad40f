import PlatformClasses.Proofs.Source.Names

/-!
# Statements about names

What the phrases of expressions and statements make of names: a name before a semicolon is an expression,
a member of a name can be assigned to, and a name can be returned.  Words like `async` and `from` are
names wherever the mark after them does not let them be more, so each phrase is looked at with that
mark.
-/

namespace PlatformClasses.Source

open Recogniser

namespace Phrase

variable (l : Phrases) (a b c d : List Trivia) {x y m : String} (ts : List Token)

/-! ## Names that are not reserved -/

theorem not_mem_of_free {ss : List String} (hx : x ∉ reservedWords)
    (hs : ∀ s ∈ ss, s ∈ reservedWords) : x ∉ ss :=
  fun h => hx (hs x h)

theorem not_mem_builtInTypes (hx : x ∉ reservedWords) : x ∉ builtInTypes :=
  fun h => hx (List.mem_append_right _ h)

/-! ## Operands -/

theorem anonymousMethod_name (hx : x ∉ reservedWords) :
    anonymousMethod l (⟨a, .word, x⟩ :: ⟨b, .mark, m⟩ :: ts) = none := by
  have hdelegate : "delegate" ≠ x := ne_of_mem_of_not_mem (by decide) hx
  by_cases hasync : x ∈ ["async", "static"]
  · have hstep : wordOf ["async", "static"] (⟨a, .word, x⟩ :: ⟨b, .mark, m⟩ :: ts) =
        some (⟨b, .mark, m⟩ :: ts) := by
      rw [wordOf_word, if_pos hasync]
    simp [anonymousMethod, sequence_cons, repeated_of_some hstep, repeated_wordOf_mark]
  · have hstep : wordOf ["async", "static"] (⟨a, .word, x⟩ :: ⟨b, .mark, m⟩ :: ts) = none := by
      rw [wordOf_word, if_neg hasync]
    simp [anonymousMethod, sequence_cons, repeated_of_none hstep, hdelegate.symm]

variable {l} (hl : l.Refuse)
include hl

theorem query_name (hm : m ≠ "(") : query l (⟨a, .word, x⟩ :: ⟨b, .mark, m⟩ :: ts) = none := by
  have htype := hl.type b m ts hm
  have hsource : sequence [word "from", maybe (sequence [l.type, ahead name]), name, word "in",
      l.expression] (⟨a, .word, x⟩ :: ⟨b, .mark, m⟩ :: ts) = none := by
    by_cases hfrom : x = "from" <;> simp [sequence_cons, maybe_eq, htype, hfrom]
  rw [query, sequence_cons, hsource]
  rfl

theorem primary_name (hx : x ∉ reservedWords) (hm : m ∈ [";", "."]) :
    primary l (⟨a, .word, x⟩ :: ⟨b, .mark, m⟩ :: ts) = some (⟨b, .mark, m⟩ :: ts) := by
  have hround : m ≠ "(" := ne_of_mem_of_not_mem hm (by decide)
  have hcolons : m ≠ "::" := ne_of_mem_of_not_mem hm (by decide)
  have hless : m ≠ "<" := ne_of_mem_of_not_mem hm (by decide)
  have hliteral : literal (⟨a, .word, x⟩ :: ⟨b, .mark, m⟩ :: ts) = none := by
    have hwords : x ∉ ["true", "false", "null"] := not_mem_of_free hx (by decide)
    simp [literal, choice_cons, sequence_cons, token, -List.mem_cons, hwords]
  have hcreation : creation l (⟨a, .word, x⟩ :: ⟨b, .mark, m⟩ :: ts) = none := by
    have hnew : "new" ≠ x := ne_of_mem_of_not_mem (by decide) hx
    have hstack : "stackalloc" ≠ x := ne_of_mem_of_not_mem (by decide) hx
    simp [creation, choice_cons, sequence_cons, hnew.symm, hstack.symm]
  have hoperation : typeOperation l (⟨a, .word, x⟩ :: ⟨b, .mark, m⟩ :: ts) = none := by
    have hdefault : "default" ≠ x := ne_of_mem_of_not_mem (by decide) hx
    rw [typeOperation, choice_cons, choice_cons, sequence_cons, wordOf_word]
    split <;> simp [sequence_cons, hround, hdefault.symm]
  have hchecked : x ∉ ["checked", "unchecked"] := not_mem_of_free hx (by decide)
  have hthis : x ∉ ["this", "base"] := not_mem_of_free hx (by decide)
  simp [primary, choice_cons, sequence_cons, anonymousMethod_name l a b ts hx,
    query_name a b ts hl hround, hliteral, hcreation, hoperation, -List.mem_cons, hchecked, hthis,
    not_mem_builtInTypes hx, hcolons, argumentsOfGeneric, typeArguments, hless, hx]

omit hl in
/-- A name that stands before a dot or a semicolon has no operator before it. -/
theorem leadOperator_name (hx : x ∉ reservedWords) (hm : m ∈ [";", "."]) :
    leadOperator l (⟨a, .word, x⟩ :: ⟨b, .mark, m⟩ :: ts) = none := by
  have hround : m ≠ "(" := ne_of_mem_of_not_mem hm (by decide)
  have hwords : x ∉ ["throw", "ref"] := not_mem_of_free hx (by decide)
  by_cases hawait : x = "await"
  · simp [leadOperator, Phrase.cast, choice_cons, sequence_cons, ahead, token, hawait, hround]
  · simp [leadOperator, Phrase.cast, choice_cons, sequence_cons, hawait, -List.mem_cons, hwords]

omit hl in
/-- Nor does a function begin with it, even if it is the name of a type. -/
theorem lambda_name (hx : x ∉ reservedWords) (hm : m ∈ [";", "."]) {m' : String}
    (hm' : m' ∈ [";", "="]) {rest : List Token}
    (hhead : typeHead l (⟨a, .word, x⟩ :: ⟨b, .mark, m⟩ :: ts) = some (⟨c, .mark, m'⟩ :: rest)) :
    lambda l (⟨a, .word, x⟩ :: ⟨b, .mark, m⟩ :: ts) = none := by
  have hround : m ≠ "(" := ne_of_mem_of_not_mem hm (by decide)
  have harrow : m ≠ "=>" := ne_of_mem_of_not_mem hm (by decide)
  have hattributes := attributes_word l a (⟨b, .mark, m⟩ :: ts) x
  by_cases hasync : x ∈ ["async", "static"]
  · have hstep : wordOf ["async", "static"] (⟨a, .word, x⟩ :: ⟨b, .mark, m⟩ :: ts) =
        some (⟨b, .mark, m⟩ :: ts) := by
      rw [wordOf_word, if_pos hasync]
    simp [lambda, choice_cons, sequence_cons, hattributes, repeated_of_some hstep,
      repeated_wordOf_mark, parameters, hround, unsizedType_mark l b ts hround]
  · have hstep : wordOf ["async", "static"] (⟨a, .word, x⟩ :: ⟨b, .mark, m⟩ :: ts) = none := by
      rw [wordOf_word, if_neg hasync]
    have hround' : m' ≠ "(" := ne_of_mem_of_not_mem hm' (by decide)
    have hmarks : repeated (choice [mark "?", mark "*",
        sequence [mark "[", repeated (mark ","), mark "]"]]) (⟨c, .mark, m'⟩ :: rest) =
          some (⟨c, .mark, m'⟩ :: rest) := by
      have hquestion : m' ≠ "?" := ne_of_mem_of_not_mem hm' (by decide)
      have hstar : m' ≠ "*" := ne_of_mem_of_not_mem hm' (by decide)
      have hsquare : m' ≠ "[" := ne_of_mem_of_not_mem hm' (by decide)
      exact repeated_of_none (by simp [choice_cons, sequence_cons, hquestion, hstar, hsquare])
    simp [lambda, choice_cons, sequence_cons, hattributes, repeated_of_none hstep, parameters, ahead,
      harrow, unsizedType, hhead, hmarks, hround', hx]

section

variable [l.LeaveSuffix]

omit hl [l.LeaveSuffix] in
theorem suffix_mark (hm : m ∈ [";", "="]) : suffix l (⟨b, .mark, m⟩ :: ts) = none := by
  have hmarks : ∀ s ∈ ["(", "[", ".", "->", "?", "!"], m ≠ s := by
    rintro s hs rfl
    exact absurd hm ((by decide : ∀ s ∈ ["(", "[", ".", "->", "?", "!"], s ∉ [";", "="]) m hs)
  have hsteps : m ∉ ["++", "--"] := fun h =>
    absurd hm ((by decide : ∀ s ∈ ["++", "--"], s ∉ [";", "="]) m h)
  simp [suffix, arguments, bracketedArguments, choice_cons, sequence_cons, -List.mem_cons, hsteps,
    hmarks "(" (by decide), hmarks "[" (by decide), hmarks "." (by decide), hmarks "->" (by decide),
    hmarks "?" (by decide), hmarks "!" (by decide)]

/-- A name is an operand. -/
theorem operand_name (hx : x ∉ reservedWords) :
    operand l (⟨a, .word, x⟩ :: ⟨b, .mark, ";"⟩ :: ts) = some (⟨b, .mark, ";"⟩ :: ts) := by
  have hlead := repeated_of_none (leadOperator_name (l := l) a b ts hx (by decide : ";" ∈ [";", "."]))
  have hends := endsType_mark b (by decide : ";" ∉ ["::", "<", ".", "?", "*", "["]) ts
  have hname : [(⟨a, .word, x⟩ : Token)].map Token.face = Piece.facesOf (partPieces [x]) := rfl
  have hhead := typeHead_parts l hx (by simp) hends.maybe_typeArguments (hends "::" (by decide))
    (hends "." (by decide)) hname
  have hlambda := lambda_name a b b ts hx (by decide) (by decide) hhead
  have hprimary := primary_name a b ts hl hx (by decide : ";" ∈ [";", "."])
  have hsuffix := repeated_of_none (suffix_mark (l := l) b ts (by decide : ";" ∈ [";", "="]))
  simp [operand, choice_cons, sequence_cons, hlead, hlambda, hprimary, hsuffix]

/-- A member of a name is an operand. -/
theorem operand_member (hx : x ∉ reservedWords) (hy : y ∉ reservedWords) :
    operand l (⟨a, .word, x⟩ :: ⟨b, .mark, "."⟩ :: ⟨c, .word, y⟩ :: ⟨d, .mark, "="⟩ :: ts) =
      some (⟨d, .mark, "="⟩ :: ts) := by
  have hlead := repeated_of_none (leadOperator_name (l := l) a b
    (⟨c, .word, y⟩ :: ⟨d, .mark, "="⟩ :: ts) hx (by decide : "." ∈ [";", "."]))
  have hends := endsType_mark d (by decide : "=" ∉ ["::", "<", ".", "?", "*", "["]) ts
  have hnames : [(⟨a, .word, x⟩ : Token), ⟨b, .mark, "."⟩, ⟨c, .word, y⟩].map Token.face =
      Piece.facesOf (partPieces [x, y]) := rfl
  have hhead := typeHead_parts l hx (by simpa using hy) hends.maybe_typeArguments
    (hends "::" (by decide)) (hends "." (by decide)) hnames
  have hlambda := lambda_name a b d (⟨c, .word, y⟩ :: ⟨d, .mark, "="⟩ :: ts) hx (by decide)
    (by decide) hhead
  have hprimary := primary_name a b (⟨c, .word, y⟩ :: ⟨d, .mark, "="⟩ :: ts) hl hx
    (by decide : "." ∈ [";", "."])
  have hend := repeated_of_none (suffix_mark (l := l) d ts (by decide : "=" ∈ [";", "="]))
  have hselected : suffix l (⟨b, .mark, "."⟩ :: ⟨c, .word, y⟩ :: ⟨d, .mark, "="⟩ :: ts) =
      some (⟨d, .mark, "="⟩ :: ts) := by
    simp [suffix, arguments, bracketedArguments, selectedName, argumentsOfGeneric, typeArguments,
      choice_cons, sequence_cons, token, hy]
  have hsuffix := repeated_of_some hselected (by simp)
  rw [hend] at hsuffix
  simp [operand, choice_cons, sequence_cons, hlead, hlambda, hprimary, hsuffix]

/-- A name is an expression. -/
theorem expression_name (hx : x ∉ reservedWords) :
    expression l (⟨a, .word, x⟩ :: ⟨b, .mark, ";"⟩ :: ts) = some (⟨b, .mark, ";"⟩ :: ts) := by
  have hend : continuation l (⟨b, .mark, ";"⟩ :: ts) = none := by
    simp [continuation, rightShift, choice_cons, sequence_cons]
  simp [expression, choice_cons, sequence_cons, operand_name a b ts hl hx, repeated_of_none hend]

end

/-! ## Statements -/

omit hl in
theorem modifier_name (hx : x ∉ reservedWords) :
    modifier (⟨a, .word, x⟩ :: ⟨b, .mark, m⟩ :: ts) = none := by
  have hmodifier : x ∉ modifierWords := not_mem_of_free hx (by decide)
  rw [modifier, choice_cons, wordOf_word, if_neg hmodifier, choice_cons, sequence_cons, wordOf_word]
  split <;> simp [sequence_cons, ahead, token]

/-- No statement that is told by its first word begins with a word before a dot. -/
theorem simpleStatement_dot :
    simpleStatement l (⟨a, .word, x⟩ :: ⟨b, .mark, "."⟩ :: ts) = none := by
  have hs := hl.statement b "." ts (by decide)
  have he := hl.expression b "." ts (by decide)
  by_cases hawait : x = "await" <;>
    simp [simpleStatement, choice_cons, sequence_cons, block, maybe_eq, hs, he, bracketed, hawait]

section

/-! A declaration goes on with a name after its type, and no assignment does. -/

variable (hx : x ∉ reservedWords) (htype : l.type (⟨a, .word, x⟩ :: ⟨b, .mark, "."⟩ ::
  ⟨c, .word, y⟩ :: ⟨d, .mark, "="⟩ :: ts) = some (⟨d, .mark, "="⟩ :: ts))
include hx htype

omit hl in
theorem localFunction_assignment : localFunction l (⟨a, .word, x⟩ :: ⟨b, .mark, "."⟩ ::
    ⟨c, .word, y⟩ :: ⟨d, .mark, "="⟩ :: ts) = none := by
  have hmodifiers := repeated_of_none (modifier_name (m := ".") a b
    (⟨c, .word, y⟩ :: ⟨d, .mark, "="⟩ :: ts) hx)
  have hattributes := attributes_word l a (⟨b, .mark, "."⟩ :: ⟨c, .word, y⟩ :: ⟨d, .mark, "="⟩ :: ts) x
  simp [localFunction, sequence_cons, hattributes, hmodifiers, htype]

omit hl hx in
theorem declarators_assignment : declarators l (⟨a, .word, x⟩ :: ⟨b, .mark, "."⟩ ::
    ⟨c, .word, y⟩ :: ⟨d, .mark, "="⟩ :: ts) = none := by
  rw [declarators, choice_cons, sequence_cons, htype, choice_cons, sequence_cons, word_word]
  split <;> simp [sequence_cons, choice_cons, separated, declarator, designation, token]

theorem localVariables_assignment : localVariables l (⟨a, .word, x⟩ :: ⟨b, .mark, "."⟩ ::
    ⟨c, .word, y⟩ :: ⟨d, .mark, "="⟩ :: ts) = none := by
  have husing : "using" ≠ x := ne_of_mem_of_not_mem (by decide) hx
  have hmodifiers := repeated_of_none (modifier_name (m := ".") a b
    (⟨c, .word, y⟩ :: ⟨d, .mark, "="⟩ :: ts) hx)
  have hvariables := declarators_assignment a b c d ts htype
  have hdot := hl.type b "." (⟨c, .word, y⟩ :: ⟨d, .mark, "="⟩ :: ts) (by decide)
  rw [localVariables, sequence_cons, maybe_eq, word_word]
  split
  · simp [sequence_cons, choice_cons, maybe_eq, repeated_modifier_mark, declarators, hdot]
  · simp [sequence_cons, maybe_eq, husing.symm, hmodifiers, hvariables]

end

section

variable [l.LeaveSuffix]

/-- A member of a name is assigned a name. -/
theorem statement_assignment (e f : List Trivia) {value : String} (hx : x ∉ reservedWords)
    (hy : y ∉ reservedWords) (hvalue : value ∉ reservedWords) :
    statement l.above (⟨a, .word, x⟩ :: ⟨b, .mark, "."⟩ :: ⟨c, .word, y⟩ :: ⟨d, .mark, "="⟩ ::
      ⟨e, .word, value⟩ :: ⟨f, .mark, ";"⟩ :: ts) = some ts := by
  have hexpression : l.above.expression (⟨e, .word, value⟩ :: ⟨f, .mark, ";"⟩ :: ts) =
      some (⟨f, .mark, ";"⟩ :: ts) := expression_name e f ts hl hvalue
  have hassigned : sequence [assignmentOperator, l.above.expression, mark ";"]
      (⟨d, .mark, "="⟩ :: ⟨e, .word, value⟩ :: ⟨f, .mark, ";"⟩ :: ts) = some ts := by
    simp [sequence_cons, choice_cons, assignmentOperator, hexpression]
  generalize (⟨e, .word, value⟩ :: ⟨f, .mark, ";"⟩ :: ts : List Token) = rest at *
  have htype : l.above.type (⟨a, .word, x⟩ :: ⟨b, .mark, "."⟩ :: ⟨c, .word, y⟩ ::
      ⟨d, .mark, "="⟩ :: rest) = some (⟨d, .mark, "="⟩ :: rest) := by
    have hends := endsType_mark d (by decide : "=" ∉ ["::", "<", ".", "?", "*", "["]) rest
    have hnames : [(⟨a, .word, x⟩ : Token), ⟨b, .mark, "."⟩, ⟨c, .word, y⟩].map Token.face =
        Piece.facesOf (partPieces [x, y]) := rfl
    exact type_parts l hx (by simpa using hy) hends hnames
  have hconditional : conditionalStatements l.above (⟨a, .word, x⟩ :: ⟨b, .mark, "."⟩ ::
      ⟨c, .word, y⟩ :: ⟨d, .mark, "="⟩ :: rest) = none := by
    simp [conditionalStatements, sequence_cons, token]
  have heffect : expressionStatement l.above (⟨a, .word, x⟩ :: ⟨b, .mark, "."⟩ :: ⟨c, .word, y⟩ ::
      ⟨d, .mark, "="⟩ :: rest) = some ts := by
    simp [expressionStatement, operand_member a b c d rest hl.above hx hy, hassigned]
  simp [statement, choice_cons, simpleStatement_dot a b _ hl.above, hconditional,
    localFunction_assignment a b c d rest hx htype,
    localVariables_assignment a b c d rest hl.above hx htype, heffect]

/-- A name is returned. -/
theorem statement_return (hx : x ∉ reservedWords) :
    statement l.above (⟨a, .word, "return"⟩ :: ⟨b, .word, x⟩ :: ⟨c, .mark, ";"⟩ :: ts) = some ts := by
  have hexpression : l.above.expression (⟨b, .word, x⟩ :: ⟨c, .mark, ";"⟩ :: ts) =
      some (⟨c, .mark, ";"⟩ :: ts) := expression_name b c ts hl hx
  simp [statement, simpleStatement, choice_cons, sequence_cons, block, maybe_eq, hexpression]

/-- The body of a method that assigns a name to a member of another one and returns this. -/
theorem block_setter {value : String} (hx : x ∉ reservedWords) (hy : y ∉ reservedWords)
    (hvalue : value ∉ reservedWords) {body : List Token} (hbody : body.map Token.face =
      [(.mark, "\x7b"), (.word, x), (.mark, "."), (.word, y), (.mark, "="), (.word, value), (.mark, ";"),
        (.word, "return"), (.word, x), (.mark, ";"), (.mark, "\x7d")]) :
    block l.above.above (body ++ ts) = some ts := by
  obtain ⟨k, rfl⟩ := exists_leads hbody
  simp only [withLeads, List.cons_append, List.nil_append, Nat.zero_add, Nat.reduceAdd]
  have hassign := statement_assignment (k 1) (k 2) (k 3) (k 4) (⟨k 7, .word, "return"⟩ ::
    ⟨k 8, .word, x⟩ :: ⟨k 9, .mark, ";"⟩ :: ⟨k 10, .mark, "\x7d"⟩ :: ts) hl (k 5) (k 6) hx hy hvalue
  have hreturn := statement_return (k 7) (k 8) (k 9) (⟨k 10, .mark, "\x7d"⟩ :: ts) hl hx
  have hend := statement_mark hl.above (k 10) ts (by decide : "\x7d" ∈ closers)
  have hbody : repeated l.above.above.statement _ = _ :=
    (repeated_of_some hassign (by simp)).trans
      ((repeated_of_some hreturn (by simp)).trans (repeated_of_none hend))
  simp [block, sequence_cons, hbody]

end

end Phrase

end PlatformClasses.Source
