import Mathlib.Data.List.Chain
import PlatformClasses.Proofs.Source.Words

/-!
# Spelling tokens

A text that is put together from words, marks and white space is cut into these words and marks again, if
none of them can go on into the next.  A text `Spells` what its tokens are apart from the white space
before them, and `Spells.pieces` is the step for a row of pieces that ends a line.
-/

namespace PlatformClasses.Source

/-- What a token is apart from what stands before it. -/
abbrev Face := TokenKind × String

/-- The face of a token. -/
def Token.face (t : Token) : Face := (t.kind, t.text)

/-- Trivia that is no directive. -/
def IsPlainTrivia (piece : Trivia) : Prop := piece.kind = .blank ∨ piece.kind = .comment

/-- Tokens with given faces, up to the end of the source, and no directives between them. -/
structure Spelled (faces : List Face) (ts : List Token) : Prop where
  faces : ts.map Token.face = faces ++ [(.stop, "")]
  directives : ∀ t ∈ ts, t.directives = []

/-- A text has tokens with the given faces, after any white space that it begins with. -/
def Spells (cs : List Char) (faces : List Face) : Prop :=
  ∀ fuel lead, (cs.dropWhile isSpace).length < fuel → (∀ piece ∈ lead, IsPlainTrivia piece) →
    ∃ ts, tokensFrom? fuel lead (cs.dropWhile isSpace) = some ts ∧ Spelled faces ts

/-- White space and comments hold no lines for the preprocessor. -/
theorem directives_of_plain {lead : List Trivia} (h : ∀ piece ∈ lead, IsPlainTrivia piece)
    (kind : TokenKind) (text : String) : (Token.mk lead.reverse kind text).directives = [] := by
  refine List.filterMap_eq_nil_iff.2 fun piece hpiece => ?_
  rcases h piece (List.mem_reverse.1 hpiece) with hkind | hkind <;> rw [hkind]

namespace Spells

theorem nil : Spells [] [] := by
  intro fuel lead hfuel hlead
  obtain ⟨fuel, rfl⟩ := Nat.exists_eq_add_one_of_ne_zero (by omega : fuel ≠ 0)
  refine ⟨[⟨lead.reverse, .stop, ""⟩], rfl, rfl, ?_⟩
  intro t ht
  rw [List.mem_singleton.1 ht]
  exact directives_of_plain hlead .stop ""

/-- Space in front does not change the tokens. -/
theorem spaces {blank rest : List Char} {faces : List Face} (hblank : blank.all isSpace = true)
    (h : Spells rest faces) : Spells (blank ++ rest) faces := by
  unfold Spells
  rw [List.dropWhile_append_of_pos (List.all_eq_true.1 hblank)]
  exact h

/-- The tokens of a text that may begin with white space. -/
theorem tokens {cs : List Char} {faces : List Face} (h : Spells cs faces) {fuel : Nat}
    (hfuel : cs.length < fuel) {lead : List Trivia} (hlead : ∀ piece ∈ lead, IsPlainTrivia piece) :
    ∃ ts, tokensFrom? fuel lead cs = some ts ∧ Spelled faces ts := by
  cases cs with
  | nil => exact h fuel lead hfuel hlead
  | cons c rest =>
      by_cases hc : isSpace c = true
      · obtain ⟨fuel, rfl⟩ := Nat.exists_eq_add_one_of_ne_zero (by omega : fuel ≠ 0)
        have hdrop : (c :: rest).dropWhile isSpace = rest.dropWhile isSpace := by
          rw [List.dropWhile_cons_of_pos hc]
        have hshort : (rest.dropWhile isSpace).length ≤ rest.length :=
          (List.dropWhile_sublist _).length_le
        have hplain : ∀ piece ∈ Trivia.mk .blank (String.ofList (c :: rest.takeWhile isSpace)) :: lead,
            IsPlainTrivia piece := by
          intro piece hpiece
          rcases List.mem_cons.1 hpiece with rfl | hpiece
          · exact .inl rfl
          · exact hlead piece hpiece
        rw [List.length_cons] at hfuel
        have htokens := h fuel _ (by rw [hdrop]; omega) hplain
        rw [hdrop] at htokens
        simpa only [tokensFrom?, hc, if_true] using htokens
      · have hdrop : (c :: rest).dropWhile isSpace = c :: rest :=
          List.dropWhile_cons_of_neg hc
        have htokens := h fuel lead (by rw [hdrop]; exact hfuel) hlead
        rwa [hdrop] at htokens

/-- A token at the front of a text. -/
theorem token {c : Char} {text rest : List Char} {kind : TokenKind} {faces : List Face}
    (hspace : isSpace c = false) (hslash : c ≠ '/') (hsign : c ≠ '#')
    (htoken : ∀ lead, tokenAt? lead (c :: text ++ rest) =
      some (⟨lead, kind, String.ofList (c :: text)⟩, rest))
    (h : Spells rest faces) :
    Spells (c :: text ++ rest) ((kind, String.ofList (c :: text)) :: faces) := by
  intro fuel lead hfuel hlead
  have hdrop : (c :: text ++ rest).dropWhile isSpace = c :: (text ++ rest) :=
    List.dropWhile_cons_of_neg (by simp [hspace])
  rw [hdrop] at hfuel ⊢
  rw [List.length_cons, List.length_append] at hfuel
  obtain ⟨fuel, rfl⟩ := Nat.exists_eq_add_one_of_ne_zero (by omega : fuel ≠ 0)
  have hnone : ∀ piece ∈ ([] : List Trivia), IsPlainTrivia piece := by simp
  obtain ⟨ts, hts, hspelled⟩ := h.tokens (by omega : rest.length < fuel) hnone
  have hfirst := htoken lead.reverse
  rw [List.cons_append] at hfirst
  refine ⟨⟨lead.reverse, kind, String.ofList (c :: text)⟩ :: ts, ?_, ?_, ?_⟩
  · simp only [tokensFrom?, hspace, Bool.false_eq_true, if_false, beq_iff_eq, hslash, hsign,
      Bool.and_eq_true, false_and, hfirst, Option.bind_eq_bind, Option.bind_some, hts]
    rfl
  · rw [List.map_cons, hspelled.faces]
    rfl
  · intro t ht
    rcases List.mem_cons.1 ht with rfl | ht
    · exact directives_of_plain hlead _ _
    · exact hspelled.directives t ht

/-- A comment that goes to the end of its line. -/
theorem comment {text rest : List Char} {faces : List Face} (htext : text.all isLineChar = true)
    (h : Spells rest faces) : Spells ('/' :: '/' :: text ++ '\n' :: rest) faces := by
  intro fuel lead hfuel hlead
  have hline : ('/' :: (text ++ '\n' :: rest)).dropWhile isLineChar = '\n' :: rest := by
    rw [List.dropWhile_cons_of_pos (by decide), List.dropWhile_append_of_pos (List.all_eq_true.1 htext),
      List.dropWhile_cons_of_neg (by decide)]
  have hdrop : ('/' :: '/' :: text ++ '\n' :: rest).dropWhile isSpace =
      '/' :: '/' :: (text ++ '\n' :: rest) :=
    List.dropWhile_cons_of_neg (by decide)
  rw [hdrop] at hfuel ⊢
  simp only [List.length_cons, List.length_append] at hfuel
  obtain ⟨fuel, rfl⟩ := Nat.exists_eq_add_one_of_ne_zero (by omega : fuel ≠ 0)
  have hrest : Spells ('\n' :: rest) faces := spaces (by decide : ['\n'].all isSpace = true) h
  have hplain : ∀ piece ∈ Trivia.mk .comment
      (String.ofList ('/' :: ('/' :: (text ++ '\n' :: rest)).takeWhile isLineChar)) :: lead,
        IsPlainTrivia piece := by
    intro piece hpiece
    rcases List.mem_cons.1 hpiece with rfl | hpiece
    · exact .inr rfl
    · exact hlead piece hpiece
  obtain ⟨ts, hts, hspelled⟩ :=
    hrest.tokens (by rw [List.length_cons]; omega : ('\n' :: rest).length < fuel) hplain
  refine ⟨ts, ?_, hspelled⟩
  have hslash : isSpace '/' = false := by decide
  simp only [tokensFrom?, hslash, Bool.false_eq_true, if_false, beq_self_eq_true, List.head?_cons,
    Bool.and_self, if_true, hline]
  exact hts

end Spells

/-! ## Words -/

/-- The characters of an identifier. -/
def isIdentifier : List Char → Bool
  | [] => false
  | c :: rest => Text.isIdentifierStart c && rest.all Text.isIdentifierPart

/-- The characters of a word: an identifier, perhaps with an `@` before it. -/
def isWordText : List Char → Bool
  | '@' :: rest => isIdentifier rest
  | cs => isIdentifier cs

/-- A text that is one word. -/
def IsWord (s : String) : Prop := isWordText s.toList = true

instance (s : String) : Decidable (IsWord s) := inferInstanceAs (Decidable (_ = true))

/-- What follows does not go on with a word. -/
def EndsWord (cs : List Char) : Prop :=
  ∀ c rest, cs = c :: rest → Text.isIdentifierPart c = false ∧ c ≠ '\\'

/-- A run of characters of identifiers is taken whole. -/
theorem identifierParts_append {cs rest : List Char} (hcs : cs.all Text.isIdentifierPart = true)
    (hrest : EndsWord rest) {fuel : Nat} (hfuel : cs.length ≤ fuel) :
    identifierParts fuel false (cs ++ rest) = (cs, rest) := by
  induction cs generalizing fuel with
  | nil =>
      cases fuel with
      | zero => rfl
      | succ fuel =>
          cases rest with
          | nil => rfl
          | cons c rest =>
              obtain ⟨hpart, hescape⟩ := hrest c rest rfl
              simp [identifierParts, hpart, hescape]
  | cons c cs ih =>
      rw [List.length_cons] at hfuel
      obtain ⟨fuel, rfl⟩ := Nat.exists_eq_add_one_of_ne_zero (by omega : fuel ≠ 0)
      rw [List.all_cons, Bool.and_eq_true] at hcs
      simp [identifierParts, hcs.1, ih hcs.2 (by omega : cs.length ≤ fuel)]

/-- An identifier is taken whole where it ends as a word. -/
theorem identifierParts_identifier {cs rest : List Char} (hcs : isIdentifier cs = true)
    (hrest : EndsWord rest) {fuel : Nat} (hfuel : cs.length ≤ fuel) :
    identifierParts fuel true (cs ++ rest) = (cs, rest) := by
  cases cs with
  | nil => simp [isIdentifier] at hcs
  | cons c cs =>
      rw [List.length_cons] at hfuel
      obtain ⟨fuel, rfl⟩ := Nat.exists_eq_add_one_of_ne_zero (by omega : fuel ≠ 0)
      rw [isIdentifier, Bool.and_eq_true] at hcs
      have htail := identifierParts_append hcs.2 hrest (by omega : cs.length ≤ fuel)
      simp [identifierParts, hcs.1, htail]

theorem ne_of_isIdentifierStart {c d : Char} (hc : Text.isIdentifierStart c = true)
    (hd : Text.isIdentifierStart d = false) : c ≠ d := by
  rintro rfl
  rw [hc] at hd
  simp at hd

/-- No text in quotes begins with an identifier. -/
theorem quotedAt?_of_start {c : Char} {rest : List Char} (hc : Text.isIdentifierStart c = true) :
    quotedAt? (c :: rest) = none := by
  have hquote : c ≠ '\'' := ne_of_isIdentifierStart hc (by decide)
  have hdouble : c ≠ '"' := ne_of_isIdentifierStart hc (by decide)
  have hdollar : c ≠ '$' := ne_of_isIdentifierStart hc (by decide)
  have hat : c ≠ '@' := ne_of_isIdentifierStart hc (by decide)
  unfold quotedAt?
  split <;> simp_all

/-- A word that ends is taken as a token. -/
theorem tokenAt?_word {s : String} (hs : IsWord s) {rest : List Char} (hrest : EndsWord rest)
    (lead : List Trivia) : tokenAt? lead (s.toList ++ rest) = some (⟨lead, .word, s⟩, rest) := by
  have hname : identifierText (s.toList ++ rest) = (s.toList, rest) ∧
      quotedAt? (s.toList ++ rest) = none := by
    unfold IsWord isWordText at hs
    split at hs
    · next name hname =>
      cases name with
      | nil => simp [isIdentifier] at hs
      | cons c name =>
          have hc : Text.isIdentifierStart c = true := by
            rw [isIdentifier, Bool.and_eq_true] at hs
            exact hs.1
          have hdouble : c ≠ '"' := ne_of_isIdentifierStart hc (by decide)
          have hdollar : c ≠ '$' := ne_of_isIdentifierStart hc (by decide)
          have hparts := identifierParts_identifier hs hrest
            (by simp : (c :: name).length ≤ (c :: name ++ rest).length)
          rw [hname]
          constructor
          · show identifierText ('@' :: (c :: name ++ rest)) = ('@' :: c :: name, rest)
            simp only [identifierText, hparts]
            rfl
          · unfold quotedAt?
            split <;> simp_all
    · next hat =>
      cases hcs : s.toList with
      | nil => simp [hcs, isIdentifier] at hs
      | cons c cs =>
          rw [hcs] at hs hat
          have hc : Text.isIdentifierStart c = true := by
            rw [isIdentifier, Bool.and_eq_true] at hs
            exact hs.1
          have hparts := identifierParts_identifier hs hrest
            (by simp : (c :: cs).length ≤ (c :: cs ++ rest).length)
          refine ⟨?_, quotedAt?_of_start hc⟩
          have hne : c ≠ '@' := ne_of_isIdentifierStart hc (by decide)
          unfold identifierText
          split
          · simp_all
          · exact hparts
  have hne : s.toList ≠ [] := by
    intro hnil
    simp [IsWord, hnil, isWordText, isIdentifier] at hs
  have hempty : s.toList.isEmpty = false := by simpa using hne
  simp only [tokenAt?, hname.2, hname.1, hempty, Bool.not_false, if_true, String.ofList_toList]

/-! ## Marks -/

/-- The marks that generated code is written with. -/
def codeMarks : List String :=
  ["\x7b", "\x7d", "(", ")", "[", "]", "<", ">", ";", ",", ":", ".", "=", "?", "=>"]

/-- A character after which a mark would be a longer one, or a dot a number. -/
def joinsMark (m : String) (c : Char) : Bool :=
  (longMarks.any fun long => (m.toList ++ [c]).isPrefixOf long.toList) ||
    (m == "." && Text.isAsciiDigit c)

/-- What follows does not go on with a mark. -/
def EndsMark (m : String) (cs : List Char) : Prop :=
  ∀ c rest, cs = c :: rest → joinsMark m c = false

/-- What may follow a mark makes no longer mark of it. -/
theorem isPrefixOf_longMark {m : String} {rest : List Char} (hrest : EndsMark m rest) {long : String}
    (hlong : long ∈ longMarks) :
    long.toList.isPrefixOf (m.toList ++ rest) = long.toList.isPrefixOf m.toList := by
  rw [Bool.eq_iff_iff, List.isPrefixOf_iff_prefix, List.isPrefixOf_iff_prefix]
  refine ⟨fun h => ?_, fun h => h.trans (List.prefix_append _ _)⟩
  have hm : m.toList <+: m.toList ++ rest := List.prefix_append _ _
  rcases Nat.le_total long.toList.length m.toList.length with hle | hle
  · exact List.prefix_of_prefix_length_le h hm hle
  · obtain ⟨more, hmore⟩ := List.prefix_of_prefix_length_le hm h hle
    cases more with
    | nil =>
        rw [List.append_nil] at hmore
        exact hmore ▸ List.prefix_rfl
    | cons c more =>
        -- a longer mark would have to go on with what follows
        rw [← hmore, List.prefix_append_right_inj] at h
        obtain ⟨tail, rfl⟩ := h
        have hjoins := hrest c (more ++ tail) rfl
        simp only [joinsMark, Bool.or_eq_false_iff, List.any_eq_false] at hjoins
        refine absurd (List.isPrefixOf_iff_prefix.2 ?_) (hjoins.1 long hlong)
        rw [← hmore]
        exact ⟨more, by simp⟩

/-- A mark that ends is taken whole. -/
theorem markAt?_append {m : String} (hm : markAt? m.toList = some (m.toList, [])) {rest : List Char}
    (hrest : EndsMark m rest) : markAt? (m.toList ++ rest) = some (m.toList, rest) := by
  have hfind : (longMarks.find? fun long => long.toList.isPrefixOf (m.toList ++ rest)) =
      longMarks.find? fun long => long.toList.isPrefixOf m.toList := by
    have hsame : ∀ long ∈ longMarks, long.toList.isPrefixOf (m.toList ++ rest) =
        long.toList.isPrefixOf m.toList := fun long hlong => isPrefixOf_longMark hrest hlong
    generalize longMarks = marks at hsame
    induction marks with
    | nil => rfl
    | cons long marks ih =>
        rw [List.find?_cons, List.find?_cons, hsame long List.mem_cons_self,
          ih fun other hother => hsame other (List.mem_cons_of_mem long hother)]
  unfold markAt? at hm ⊢
  rw [hfind]
  cases hlong : longMarks.find? fun long => long.toList.isPrefixOf m.toList with
  | some long =>
      simp only [hlong, Option.some.injEq, Prod.mk.injEq] at hm ⊢
      simp [hm.1, ← String.length_toList]
  | none =>
      simp only [hlong] at hm ⊢
      split at hm
      · next c after hc =>
        split at hm
        · next hshort =>
          obtain ⟨htext, rfl⟩ := Prod.mk.inj (Option.some.inj hm)
          rw [← htext, List.singleton_append]
          simp only [hshort, if_true]
        · simp at hm
      · simp at hm

/-- A character that can only begin a mark. -/
def isMarkStart (c : Char) : Bool :=
  !(Text.isIdentifierStart c || Text.isAsciiDigit c || isSpace c ||
    ['\\', '\'', '"', '$', '@', '/', '#'].contains c)

/-- Generated code has marks of its own, each of which begins like a mark. -/
theorem codeMark_facts : ∀ m ∈ codeMarks, markAt? m.toList = some (m.toList, []) ∧
    m.toList.head?.map isMarkStart = some true ∧
      m.toList.head?.map Text.isIdentifierPart = some false ∧
        (m.toList.head? = some '.' → m = ".") := by
  decide

/-- A mark that ends is taken as a token. -/
theorem tokenAt?_mark {m : String} (hm : m ∈ codeMarks) {rest : List Char} (hrest : EndsMark m rest)
    (lead : List Trivia) : tokenAt? lead (m.toList ++ rest) = some (⟨lead, .mark, m⟩, rest) := by
  obtain ⟨hself, hstart, -, hdot⟩ := codeMark_facts m hm
  have hmark := markAt?_append hself hrest
  cases hcs : m.toList with
  | nil => simp [hcs] at hstart
  | cons c cs =>
      rw [hcs] at hstart hdot
      have hc : isMarkStart c = true := by simpa using hstart
      simp only [isMarkStart, Bool.not_eq_true', Bool.or_eq_false_iff, List.contains_cons,
        beq_eq_false_iff_ne] at hc
      obtain ⟨⟨⟨hletter, hdigit⟩, -⟩, hescape, hquote, hdouble, hdollar, hat, -⟩ := hc
      have hquoted : quotedAt? (c :: (cs ++ rest)) = none := by
        unfold quotedAt?
        split <;> simp_all
      have hname : identifierText (c :: (cs ++ rest)) = ([], c :: (cs ++ rest)) := by
        unfold identifierText
        split
        · simp_all
        · simp [identifierParts, hletter, hescape]
      rw [hcs, List.cons_append] at hmark
      rw [List.cons_append]
      simp only [tokenAt?, hquoted, hname, List.isEmpty_nil, Bool.not_true, Bool.false_eq_true,
        if_false, hmark, Option.map_some]
      rw [if_neg, ← hcs, String.ofList_toList]
      -- no number begins here
      rw [Bool.not_eq_true]
      split
      · next d after heq =>
        obtain ⟨rfl, htail⟩ := List.cons.inj heq
        obtain rfl := hdot rfl
        obtain rfl : cs = [] := by
          have hlength := congrArg List.length hcs
          simpa using hlength.symm
        have hjoins := hrest d after (by simpa using htail)
        simp only [joinsMark, Bool.or_eq_false_iff, beq_self_eq_true, Bool.true_and] at hjoins
        exact hjoins.2
      · next d after _ heq =>
        obtain ⟨rfl, -⟩ := List.cons.inj heq
        exact hdigit
      · rfl

/-! ## Pieces of a line -/

/-- What a line of code is put together from. -/
inductive Piece where
  /-- A space. -/
  | gap
  | word (text : String)
  | mark (text : String)
deriving Repr, DecidableEq

namespace Piece

/-- The text of a piece. -/
def text : Piece → String
  | gap => " "
  | word s | mark s => s

/-- The face of the token that a piece spells. -/
def face? : Piece → Option Face
  | gap => none
  | word s => some (.word, s)
  | mark s => some (.mark, s)

/-- A piece whose text is of its kind. -/
def IsProper : Piece → Prop
  | gap => True
  | word s => IsWord s
  | mark s => s ∈ codeMarks

/-- Two pieces that do not go on into each other. -/
def MayMeet : Piece → Piece → Prop
  | word _, word _ => False
  | mark m, mark m' => m'.toList.head?.all (fun c => !joinsMark m c) = true
  | _, _ => True

instance (p : Piece) : Decidable p.IsProper := by
  cases p <;> unfold IsProper <;> infer_instance

instance (p q : Piece) : Decidable (p.MayMeet q) := by
  cases p <;> cases q <;> unfold MayMeet <;> infer_instance

/-- The text of pieces. -/
def textOf (ps : List Piece) : String := ps.foldr (fun p rest => p.text ++ rest) ""

/-- The faces of the tokens that pieces spell. -/
def facesOf (ps : List Piece) : List Face := ps.filterMap face?

@[simp] theorem textOf_nil : textOf [] = "" := rfl

@[simp] theorem textOf_cons (p : Piece) (ps : List Piece) : textOf (p :: ps) = p.text ++ textOf ps :=
  rfl

@[simp] theorem textOf_append (ps qs : List Piece) : textOf (ps ++ qs) = textOf ps ++ textOf qs := by
  induction ps with
  | nil => simp
  | cons p ps ih => simp [ih, String.append_assoc]

@[simp] theorem facesOf_nil : facesOf [] = [] := rfl

@[simp] theorem facesOf_gap (ps : List Piece) : facesOf (.gap :: ps) = facesOf ps := rfl

@[simp] theorem facesOf_word (s : String) (ps : List Piece) :
    facesOf (.word s :: ps) = (.word, s) :: facesOf ps := rfl

@[simp] theorem facesOf_mark (s : String) (ps : List Piece) :
    facesOf (.mark s :: ps) = (.mark, s) :: facesOf ps := rfl

@[simp] theorem facesOf_append (ps qs : List Piece) : facesOf (ps ++ qs) = facesOf ps ++ facesOf qs :=
  List.filterMap_append

end Piece

/-- Pieces that are cut apart again when they are written one after the other. -/
structure WellSpelled (ps : List Piece) : Prop where
  proper : ∀ p ∈ ps, p.IsProper
  apart : ps.IsChain Piece.MayMeet

theorem WellSpelled.nil : WellSpelled [] := ⟨by simp, .nil⟩

/-- A piece in front of others is well spelled with them if it may meet the first of them. -/
theorem WellSpelled.cons {p : Piece} {ps : List Piece} (hp : p.IsProper) (hps : WellSpelled ps)
    (hmeet : ∀ q ∈ ps.head?, p.MayMeet q) : WellSpelled (p :: ps) where
  proper := by
    intro q hq
    rcases List.mem_cons.1 hq with rfl | hq
    · exact hp
    · exact hps.proper q hq
  apart := hps.apart.cons hmeet

theorem WellSpelled.word {s : String} (hs : IsWord s) : WellSpelled [.word s] :=
  .cons hs .nil (by simp)

theorem WellSpelled.mark {m : String} (hm : m ∈ codeMarks) : WellSpelled [.mark m] :=
  .cons hm .nil (by simp)

/-- A word may meet any mark. -/
theorem WellSpelled.word_mark {s m : String} (hs : IsWord s) {ps : List Piece}
    (h : WellSpelled (.mark m :: ps)) : WellSpelled (.word s :: .mark m :: ps) := by
  refine h.cons hs fun q hq => ?_
  obtain rfl : Piece.mark m = q := by simpa using hq
  trivial

/-- A mark may meet any word. -/
theorem WellSpelled.mark_word {s m : String} (hm : m ∈ codeMarks) {ps : List Piece}
    (h : WellSpelled (.word s :: ps)) : WellSpelled (.mark m :: .word s :: ps) := by
  refine h.cons hm fun q hq => ?_
  obtain rfl : Piece.word s = q := by simpa using hq
  trivial

/-- Pieces with a space between them do not touch. -/
theorem WellSpelled.append_gap {ps qs : List Piece} (hps : WellSpelled ps) (hqs : WellSpelled qs) :
    WellSpelled (ps ++ .gap :: qs) := by
  have hgap : WellSpelled (.gap :: qs) := hqs.cons trivial fun q _ => by cases q <;> trivial
  refine ⟨fun p hp => ?_, ?_⟩
  · rcases List.mem_append.1 hp with hp | hp
    · exact hps.proper p hp
    · exact hgap.proper p hp
  · refine List.isChain_append.2 ⟨hps.apart, hgap.apart, fun p _ q hq => ?_⟩
    obtain rfl : Piece.gap = q := by simpa using hq
    cases p <;> trivial

/-! What may stand between two pieces. -/

/-- The characters of white space. -/
def spaceChars : List Char :=
  ['\t', '\n', '\x0b', '\x0c', '\r', ' ', '\u00a0', '\ufeff', '\u3000']

theorem mem_spaceChars {c : Char} (h : isSpace c = true) : c ∈ spaceChars := by
  have hcode : c.toNat = 9 ∨ c.toNat = 10 ∨ c.toNat = 11 ∨ c.toNat = 12 ∨ c.toNat = 13 ∨
      c.toNat = 0x20 ∨ c.toNat = 0xa0 ∨ c.toNat = 0xfeff ∨ c.toNat = 0x3000 := by
    simp only [isSpace, Bool.or_eq_true, Bool.and_eq_true, decide_eq_true_eq, beq_iff_eq] at h
    omega
  have hchar : ∀ d : Char, c.toNat = d.toNat → c = d := fun d hd => Char.toNat_inj.1 hd
  unfold spaceChars
  rcases hcode with h | h | h | h | h | h | h | h | h
  · simp [hchar '\t' h]
  · simp [hchar '\n' h]
  · simp [hchar '\x0b' h]
  · simp [hchar '\x0c' h]
  · simp [hchar '\r' h]
  · simp [hchar ' ' h]
  · simp [hchar '\u00a0' h]
  · simp [hchar '\ufeff' h]
  · simp [hchar '\u3000' h]

/-- Space ends words. -/
theorem not_isIdentifierPart_of_isSpace {c : Char} (h : isSpace c = true) :
    Text.isIdentifierPart c = false ∧ c ≠ '\\' := by
  have hall : (spaceChars.all fun c => !Text.isIdentifierPart c && c != '\\') = true := by
    decide +kernel
  simpa using List.all_eq_true.1 hall c (mem_spaceChars h)

theorem not_isAsciiDigit_of_isIdentifierStart {c : Char} (h : Text.isIdentifierStart c = true) :
    Text.isAsciiDigit c = false := by
  rw [← Bool.not_eq_true]
  intro hdigit
  simp only [Text.isAsciiDigit, Bool.and_eq_true, decide_eq_true_eq] at hdigit
  have hsmall : c.toNat < 128 := by omega
  simp only [Text.isIdentifierStart, hsmall, if_true, Text.isAsciiLetter, Bool.or_eq_true,
    Bool.and_eq_true, decide_eq_true_eq, beq_iff_eq] at h
  rcases h with h | rfl
  · omega
  · simp at hdigit

/-- Only characters of longer marks go on with a mark. -/
theorem joinsMark_eq_false {c : Char} (hc : ∀ long ∈ longMarks, c ∉ long.toList)
    (hdigit : Text.isAsciiDigit c = false) (m : String) : joinsMark m c = false := by
  simp only [joinsMark, hdigit, Bool.and_false, Bool.or_false, List.any_eq_false]
  intro long hlong hprefix
  have hmem : c ∈ m.toList ++ [c] := by simp
  exact hc long hlong ((List.isPrefixOf_iff_prefix.1 hprefix).subset hmem)

/-- Space ends marks. -/
theorem joinsMark_of_isSpace {c : Char} (h : isSpace c = true) (m : String) :
    joinsMark m c = false := by
  have hall : (spaceChars.all fun c => decide (∀ long ∈ longMarks, c ∉ long.toList) &&
      !Text.isAsciiDigit c) = true := by
    decide +kernel
  have hc := List.all_eq_true.1 hall c (mem_spaceChars h)
  rw [Bool.and_eq_true, decide_eq_true_eq, Bool.not_eq_true'] at hc
  exact joinsMark_eq_false hc.1 hc.2 m

theorem joinsMark_of_isIdentifierStart {c : Char} (h : Text.isIdentifierStart c = true) (m : String) :
    joinsMark m c = false := by
  have hall : ∀ long ∈ longMarks, (long.toList.any Text.isIdentifierStart) = false := by decide
  refine joinsMark_eq_false ?_ (not_isAsciiDigit_of_isIdentifierStart h) m
  intro long hlong hmem
  exact List.any_eq_false.1 (hall long hlong) c hmem h

/-- A word begins like an identifier or with an `@`. -/
theorem IsWord.head {s : String} (h : IsWord s) : ∃ c rest, s.toList = c :: rest ∧
    (Text.isIdentifierStart c = true ∨ c = '@') := by
  unfold IsWord isWordText at h
  split at h
  · next rest hs => exact ⟨'@', rest, hs, .inr rfl⟩
  · cases hs : s.toList with
    | nil => simp [hs, isIdentifier] at h
    | cons c rest =>
        rw [hs, isIdentifier, Bool.and_eq_true] at h
        exact ⟨c, rest, rfl, .inl h.1⟩

/-- A word ends any mark before it. -/
theorem joinsMark_of_word {s : String} (hs : IsWord s) {c : Char} {rest : List Char}
    (hc : s.toList = c :: rest) (m : String) : joinsMark m c = false := by
  obtain ⟨d, more, hd, hstart⟩ := hs.head
  rw [hc] at hd
  obtain ⟨rfl, -⟩ := List.cons.inj hd
  rcases hstart with hstart | rfl
  · exact joinsMark_of_isIdentifierStart hstart m
  · exact joinsMark_eq_false (by decide) (by decide) m

/-- Words and marks begin with characters that begin nothing else. -/
theorem isMarkStart_or_word {c : Char}
    (h : isMarkStart c = true ∨ Text.isIdentifierStart c = true ∨ c = '@') :
    isSpace c = false ∧ c ≠ '/' ∧ c ≠ '#' := by
  rcases h with h | h | rfl
  · simp only [isMarkStart, Bool.not_eq_true', Bool.or_eq_false_iff, List.contains_cons,
      beq_eq_false_iff_ne] at h
    exact ⟨h.1.2, h.2.2.2.2.2.2.1, h.2.2.2.2.2.2.2.1⟩
  · refine ⟨?_, ne_of_isIdentifierStart h (by decide), ne_of_isIdentifierStart h (by decide)⟩
    rw [← Bool.not_eq_true]
    intro hspace
    have hall : (spaceChars.any Text.isIdentifierStart) = false := by decide +kernel
    exact List.any_eq_false.1 hall c (mem_spaceChars hspace) h
  · decide

/-- A word in front spells its token, if what follows ends it. -/
theorem Spells.word {s : String} (hs : IsWord s) {rest : List Char} (hrest : EndsWord rest)
    {faces : List Face} (h : Spells rest faces) :
    Spells (s.toList ++ rest) ((.word, s) :: faces) := by
  obtain ⟨c, text, hc, hstart⟩ := hs.head
  obtain ⟨hspace, hslash, hsign⟩ := isMarkStart_or_word (.inr hstart)
  have hname : String.ofList (c :: text) = s := by rw [← hc, String.ofList_toList]
  have htoken : ∀ lead, tokenAt? lead (c :: text ++ rest) =
      some (⟨lead, .word, String.ofList (c :: text)⟩, rest) := by
    intro lead
    rw [hname, ← hc]
    exact tokenAt?_word hs hrest lead
  have hspells := Spells.token hspace hslash hsign htoken h
  rwa [hname, ← hc] at hspells

/-- A mark in front spells its token, if what follows ends it. -/
theorem Spells.mark {m : String} (hm : m ∈ codeMarks) {rest : List Char} (hrest : EndsMark m rest)
    {faces : List Face} (h : Spells rest faces) :
    Spells (m.toList ++ rest) ((.mark, m) :: faces) := by
  have hstart := (codeMark_facts m hm).2.1
  cases hc : m.toList with
  | nil => simp [hc] at hstart
  | cons c text =>
      rw [hc] at hstart
      obtain ⟨hspace, hslash, hsign⟩ := isMarkStart_or_word (c := c) (.inl (by simpa using hstart))
      have hname : String.ofList (c :: text) = m := by rw [← hc, String.ofList_toList]
      have htoken : ∀ lead, tokenAt? lead (c :: text ++ rest) =
          some (⟨lead, .mark, String.ofList (c :: text)⟩, rest) := by
        intro lead
        rw [hname, ← hc]
        exact tokenAt?_mark hm hrest lead
      have hspells := Spells.token hspace hslash hsign htoken h
      rwa [hname] at hspells

/-- What follows a piece in a line begins with white space or with the next piece. -/
theorem WellSpelled.head_cases {p : Piece} {ps : List Piece} (h : WellSpelled (p :: ps)) {c : Char}
    (hc : isSpace c = true) {rest : List Char} {d : Char} {after : List Char}
    (hd : (Piece.textOf ps).toList ++ c :: rest = d :: after) :
    isSpace d = true ∨
      ∃ q, p.MayMeet q ∧ q.IsProper ∧ ∃ more, q.text.toList = d :: more := by
  cases ps with
  | nil =>
      obtain ⟨rfl, -⟩ := List.cons.inj hd
      exact .inl hc
  | cons q ps =>
      have hq := h.proper q (by simp)
      have hmeet : p.MayMeet q := (List.isChain_cons_cons.1 h.apart).1
      rw [Piece.textOf_cons, String.toList_append, List.append_assoc] at hd
      cases hq_text : q.text.toList with
      | nil =>
          have hempty : q.text = "" := String.toList_inj.1 hq_text
          cases q with
          | gap => exact absurd hempty (by decide)
          | word s =>
              obtain rfl : s = "" := hempty
              exact absurd hq (by decide)
          | mark m =>
              obtain rfl : m = "" := hempty
              exact absurd hq (by decide)
      | cons d' more =>
          rw [hq_text, List.cons_append] at hd
          obtain ⟨rfl, -⟩ := List.cons.inj hd
          exact .inr ⟨q, hmeet, hq, more, hq_text⟩

/-- A line of pieces spells their faces, if what follows begins with white space. -/
theorem Spells.pieces {ps : List Piece} (hps : WellSpelled ps) {c : Char} {rest : List Char}
    {faces : List Face} (hc : isSpace c = true) (h : Spells (c :: rest) faces) :
    Spells ((Piece.textOf ps).toList ++ c :: rest) (Piece.facesOf ps ++ faces) := by
  induction ps with
  | nil => exact h
  | cons p ps ih =>
      have htail := ih ⟨fun q hq => hps.proper q (List.mem_cons_of_mem p hq), hps.apart.tail⟩
      have hp := hps.proper p List.mem_cons_self
      rw [Piece.textOf_cons, String.toList_append, List.append_assoc]
      cases p with
      | gap => exact htail.spaces (by decide : [' '].all isSpace = true)
      | word s =>
          refine Spells.word hp ?_ htail
          intro d after hd
          rcases hps.head_cases hc hd with hspace | ⟨q, hmeet, hq, more, hmore⟩
          · exact not_isIdentifierPart_of_isSpace hspace
          · cases q with
            | gap =>
                obtain ⟨rfl, -⟩ : ' ' = d ∧ [] = more := List.cons.inj hmore
                exact not_isIdentifierPart_of_isSpace (by decide)
            | word s => exact absurd hmeet id
            | mark m =>
                have hmore : m.toList = d :: more := hmore
                obtain ⟨-, hstart, hpart, -⟩ := codeMark_facts m hq
                simp only [hmore, List.head?_cons, Option.map_some, Option.some.injEq] at hstart hpart
                refine ⟨hpart, ?_⟩
                rintro rfl
                exact absurd hstart (by decide)
      | mark m =>
          refine Spells.mark hp ?_ htail
          intro d after hd
          rcases hps.head_cases hc hd with hspace | ⟨q, hmeet, hq, more, hmore⟩
          · exact joinsMark_of_isSpace hspace m
          · cases q with
            | gap =>
                obtain ⟨rfl, -⟩ : ' ' = d ∧ [] = more := List.cons.inj hmore
                exact joinsMark_of_isSpace (by decide) m
            | word s => exact joinsMark_of_word hq hmore m
            | mark m' =>
                have hmore : m'.toList = d :: more := hmore
                have hjoins : ((d :: more).head?.all fun c => !joinsMark m c) = true := hmore ▸ hmeet
                simpa using hjoins

/-- The tokens of a whole source by what it spells. -/
theorem tokens?_of_spells {cs : List Char} {faces : List Face} (h : Spells cs faces)
    (hstart : cs.head? ≠ some '#') : ∃ ts, tokens? cs = some ts ∧ Spelled faces ts := by
  have hnone : ∀ piece ∈ ([] : List Trivia), IsPlainTrivia piece := by simp
  have htokens := h.tokens (Nat.lt_succ_self _) hnone
  unfold tokens?
  split
  · simp at hstart
  · exact htokens

end PlatformClasses.Source
