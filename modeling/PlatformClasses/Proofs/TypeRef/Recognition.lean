import PlatformClasses.Proofs.Source.Names
import PlatformClasses.TypeRef.Basic

/-!
# References to types in a source

The canonical text of a reference to a type is recognised as a type wherever it is put into a source, if
its names are names there: built-in types, or dotted names without reserved words.  The proofs follow the
reference, with the lists of its type arguments taken after their first.
-/

namespace PlatformClasses

namespace TypeRef

open Source Recogniser Phrase

/-! ## Pieces of a reference -/

/-- The pieces of array ranks. -/
def rankPieces (ranks : List String) : List Piece :=
  ranks.flatMap fun rank => .mark "[" :: (rank.toList.map fun _ => .mark ",") ++ [.mark "]"]

/-- The pieces of the marks after a reference's name and its type arguments. -/
def suffixPieces (nullable : Bool) (ranks : List String) : List Piece :=
  (if nullable then [.mark "?"] else []) ++ rankPieces ranks

mutual
/-- The pieces of a reference's canonical text. -/
def pieces : TypeRef → List Piece
  | mk name arguments nullable ranks =>
    namePieces name ++ (argumentPieces arguments ++ suffixPieces nullable ranks)

/-- The pieces of type arguments in their brackets; nothing if there are none. -/
def argumentPieces : List TypeRef → List Piece
  | [] => []
  | t :: rest => .mark "<" :: (pieces t ++ morePieces rest)

/-- The pieces of the arguments after the first, up to the closing bracket. -/
def morePieces : List TypeRef → List Piece
  | [] => [.mark ">"]
  | t :: rest => .mark "," :: .gap :: (pieces t ++ morePieces rest)
end

/-- A rank whose text is commas. -/
def isCommas (rank : String) : Bool := rank.toList.all (· == ',')

/-- A name that a source takes as that of a type. -/
def IsTypeName (name : String) (isGeneric : Bool) : Prop :=
  IsQualified name ∨ (isGeneric = false ∧ name ∈ builtInTypes)

instance (name : String) (isGeneric : Bool) : Decidable (IsTypeName name isGeneric) :=
  inferInstanceAs (Decidable (_ ∨ _))

mutual
/-- Whether a source takes a reference's text as a type. -/
def isPlain : TypeRef → Bool
  | mk name arguments _ ranks =>
    decide (IsTypeName name (!arguments.isEmpty)) && arePlain arguments && ranks.all isCommas

/-- Whether a source takes the texts of several references as types. -/
def arePlain : List TypeRef → Bool
  | [] => true
  | t :: rest => isPlain t && arePlain rest
end

/-- The names of built-in types are words without dots. -/
theorem builtIn_facts : ∀ s ∈ builtInTypes, Text.pieces '.' s = [s] ∧ IsWord s ∧ s ≠ "ref" ∧
    s ≠ "delegate" := by
  decide +kernel

/-- The pieces of ranks are what is written for them. -/
theorem textOf_rankPieces {ranks : List String} (h : ranks.all isCommas = true) :
    Piece.textOf (rankPieces ranks) = rankText ranks := by
  have hcommas : ∀ cs : List Char, cs.all (· == ',') = true →
      Piece.textOf (cs.map fun _ => .mark ",") = String.ofList cs := by
    intro cs hcs
    induction cs with
    | nil => rfl
    | cons c cs ih =>
        rw [List.all_cons, Bool.and_eq_true, beq_iff_eq] at hcs
        obtain ⟨rfl, hcs⟩ := hcs
        rw [List.map_cons, Piece.textOf_cons, ih hcs, ← String.toList_inj]
        simp [Piece.text]
  induction ranks with
  | nil => rfl
  | cons rank ranks ih =>
      rw [List.all_cons, Bool.and_eq_true] at h
      have hrank := hcommas rank.toList h.1
      rw [String.ofList_toList] at hrank
      show Piece.textOf ((.mark "[" :: (rank.toList.map fun _ => .mark ",") ++ [.mark "]"]) ++
        rankPieces ranks) = "[" ++ rank ++ "]" ++ rankText ranks
      rw [Piece.textOf_append, ih h.2, List.cons_append, Piece.textOf_cons, Piece.textOf_append, hrank]
      simp [Piece.text, String.append_assoc]

mutual
/-- The pieces of a reference make up its canonical text. -/
theorem textOf_pieces : ∀ t : TypeRef, t.isPlain = true → Piece.textOf t.pieces = t.render
  | mk name arguments nullable ranks, h => by
    simp only [isPlain, Bool.and_eq_true] at h
    have hsuffix : Piece.textOf (suffixPieces nullable ranks) =
        (if nullable then "?" else "") ++ rankText ranks := by
      rw [suffixPieces, Piece.textOf_append, textOf_rankPieces h.2]
      cases nullable <;> rfl
    rw [pieces, render, Piece.textOf_append, Piece.textOf_append, textOf_namePieces,
      textOf_argumentPieces arguments h.1.2, hsuffix]
    simp only [String.append_assoc]

/-- The pieces of type arguments are what is written for them. -/
theorem textOf_argumentPieces : ∀ ts : List TypeRef, arePlain ts = true →
    Piece.textOf (argumentPieces ts) = renderArguments ts
  | [], _ => rfl
  | t :: rest, h => by
    simp only [arePlain, Bool.and_eq_true] at h
    rw [argumentPieces, renderArguments, Piece.textOf_cons, Piece.textOf_append,
      textOf_pieces t h.1, textOf_morePieces rest h.2, String.append_assoc]
    rfl

theorem textOf_morePieces : ∀ ts : List TypeRef, arePlain ts = true →
    Piece.textOf (morePieces ts) = renderRest ts
  | [], _ => rfl
  | t :: rest, h => by
    simp only [arePlain, Bool.and_eq_true] at h
    rw [morePieces, renderRest, Piece.textOf_cons, Piece.textOf_cons, Piece.textOf_append,
      textOf_pieces t h.1, textOf_morePieces rest h.2]
    simp only [Piece.text, ← String.append_assoc]
    rfl
end

/-! ### The pieces are cut apart again -/

/-- What may follow a reference without marks. -/
def FollowsName : Piece → Prop
  | .gap => True
  | .word _ => False
  | .mark m => m ∈ [">", ",", "[", "?"]

/-- What may follow a reference. -/
def FollowsType : Piece → Prop
  | .gap => True
  | .word _ => False
  | .mark m => m ∈ [">", ",", "["]

theorem FollowsType.followsName {q : Piece} (h : FollowsType q) : FollowsName q := by
  cases q with
  | gap => trivial
  | word s => exact h
  | mark m =>
      have hmem : m ∈ [">", ",", "["] := h
      exact (by decide : ∀ m ∈ [">", ",", "["], m ∈ [">", ",", "[", "?"]) m hmem

theorem FollowsName.followsWord {q : Piece} (h : FollowsName q) : q.FollowsWord := by
  cases q with
  | gap => trivial
  | word s => exact h
  | mark m => trivial

theorem mayMeet_of_followsType {m : String} (hm : m ∈ ["?", ">", "]", "[", ","]) {q : Piece}
    (hq : FollowsType q) : (Piece.mark m).MayMeet q := by
  cases q with
  | gap => trivial
  | word s => exact absurd hq id
  | mark m' =>
      have hmem : m' ∈ [">", ",", "["] := hq
      exact (by decide : ∀ m ∈ ["?", ">", "]", "[", ","], ∀ m' ∈ [">", ",", "["],
        (Piece.mark m).MayMeet (.mark m')) m hm m' hmem

theorem mayMeet_of_followsName {q : Piece} (hq : FollowsName q) : (Piece.mark ">").MayMeet q := by
  cases q with
  | gap => trivial
  | word s => exact absurd hq id
  | mark m' =>
      have hmem : m' ∈ [">", ",", "[", "?"] := hq
      exact (by decide : ∀ m' ∈ [">", ",", "[", "?"], (Piece.mark ">").MayMeet (.mark m')) m' hmem

/-- Ranks are well spelled in front of what may follow a type. -/
theorem wellSpelled_rankPieces_append (ranks : List String) {qs : List Piece} (hqs : WellSpelled qs)
    (hfollow : ∀ q ∈ qs.head?, FollowsType q) :
    WellSpelled (rankPieces ranks ++ qs) ∧ ∀ q ∈ (rankPieces ranks ++ qs).head?, FollowsType q := by
  induction ranks with
  | nil => exact ⟨hqs, hfollow⟩
  | cons rank ranks ih =>
      obtain ⟨htail, hhead⟩ := ih
      have hclosed : WellSpelled (.mark "]" :: (rankPieces ranks ++ qs)) :=
        htail.cons (by decide) fun q hq => mayMeet_of_followsType (by decide) (hhead q hq)
      have hcommas : ∀ cs : List Char, ∃ m ps,
          (cs.map fun _ => Piece.mark ",") ++ .mark "]" :: (rankPieces ranks ++ qs) = .mark m :: ps ∧
            m ∈ [",", "]"] ∧ WellSpelled (.mark m :: ps) := by
        intro cs
        induction cs with
        | nil => exact ⟨"]", _, rfl, by decide, hclosed⟩
        | cons c cs ih =>
            obtain ⟨m, ps, heq, hm, hps⟩ := ih
            refine ⟨",", _, by rw [List.map_cons, List.cons_append, heq], by decide, ?_⟩
            refine hps.cons (by decide) fun q hq => ?_
            obtain rfl : Piece.mark m = q := by simpa using hq
            exact (by decide : ∀ m ∈ [",", "]"], (Piece.mark ",").MayMeet (.mark m)) m hm
      obtain ⟨m, ps, heq, hm, hps⟩ := hcommas rank.toList
      have hform : rankPieces (rank :: ranks) ++ qs = .mark "[" :: .mark m :: ps := by
        rw [← heq]
        simp [rankPieces]
      rw [hform]
      refine ⟨hps.cons (by decide) fun q hq => ?_, fun q hq => ?_⟩
      · obtain rfl : Piece.mark m = q := by simpa using hq
        exact (by decide : ∀ m ∈ [",", "]"], (Piece.mark "[").MayMeet (.mark m)) m hm
      · obtain rfl : Piece.mark "[" = q := by simpa using hq
        exact (by decide : "[" ∈ [">", ",", "["])

theorem wellSpelled_suffixPieces_append (nullable : Bool) (ranks : List String) {qs : List Piece}
    (hqs : WellSpelled qs) (hfollow : ∀ q ∈ qs.head?, FollowsType q) :
    WellSpelled (suffixPieces nullable ranks ++ qs) ∧
      ∀ q ∈ (suffixPieces nullable ranks ++ qs).head?, FollowsName q := by
  obtain ⟨hranks, hhead⟩ := wellSpelled_rankPieces_append ranks hqs hfollow
  cases nullable with
  | false => exact ⟨hranks, fun q hq => (hhead q hq).followsName⟩
  | true =>
      refine ⟨hranks.cons (by decide) fun q hq => mayMeet_of_followsType (by decide) (hhead q hq), ?_⟩
      intro q hq
      obtain rfl : Piece.mark "?" = q := by simpa [suffixPieces] using hq
      exact (by decide : "?" ∈ [">", ",", "[", "?"])

/-- The name of a type is well spelled in front of what may follow a word. -/
theorem wellSpelled_typeName_append {name : String} {isGeneric : Bool}
    (h : IsTypeName name isGeneric) {qs : List Piece} (hqs : WellSpelled qs)
    (hfollow : ∀ q ∈ qs.head?, q.FollowsWord) : WellSpelled (namePieces name ++ qs) := by
  rcases h with hname | ⟨-, hbuiltIn⟩
  · exact wellSpelled_namePieces_append hname hqs hfollow
  · obtain ⟨hcut, hword, -⟩ := builtIn_facts name hbuiltIn
    rw [namePieces, hcut]
    exact wellSpelled_partPieces_append hword (by simp) hqs hfollow

/-- A reference begins with a word, after which a mark comes if anything. -/
theorem exists_pieces_eq (t : TypeRef) (ht : t.isPlain = true) : ∃ s ps, t.pieces = .word s :: ps ∧
    (s ∉ reservedWords ∨ s ∈ builtInTypes) ∧ ∀ p ∈ ps.head?, ∃ m, p = .mark m ∧ m ≠ "(" := by
  obtain ⟨name, arguments, nullable, ranks⟩ := t
  simp only [isPlain, Bool.and_eq_true, decide_eq_true_eq] at ht
  obtain ⟨first, parts, hcut⟩ := exists_pieces name
  refine ⟨first, dottedPieces parts ++ (argumentPieces arguments ++ suffixPieces nullable ranks), ?_,
    ?_, ?_⟩
  · rw [pieces, namePieces, hcut, partPieces, List.cons_append]
  · rcases ht.1.1 with hname | ⟨-, hbuiltIn⟩
    · exact .inl (hname first (by simp [hcut])).free
    · obtain ⟨hone, -⟩ := builtIn_facts name hbuiltIn
      obtain ⟨rfl, -⟩ := List.cons.inj (hcut.symm.trans hone)
      exact .inr hbuiltIn
  · intro p hp
    cases parts with
    | cons part parts => exact ⟨".", by simpa using hp.symm, by decide⟩
    | nil =>
        cases arguments with
        | cons t rest => exact ⟨"<", by simpa [dottedPieces, argumentPieces] using hp.symm, by decide⟩
        | nil =>
            cases nullable with
            | true =>
                exact ⟨"?", by simpa [dottedPieces, argumentPieces, suffixPieces] using hp.symm,
                  by decide⟩
            | false =>
                cases ranks with
                | nil => simp [dottedPieces, argumentPieces, suffixPieces, rankPieces] at hp
                | cons rank ranks =>
                    exact ⟨"[", by
                      simpa [dottedPieces, argumentPieces, suffixPieces, rankPieces] using hp.symm,
                      by decide⟩

mutual
/-- A plain type is well spelled in front of what may follow a type. -/
theorem wellSpelled_pieces_append : ∀ t : TypeRef, t.isPlain = true → ∀ {qs : List Piece},
    WellSpelled qs → (∀ q ∈ qs.head?, FollowsType q) → WellSpelled (t.pieces ++ qs)
  | mk name arguments nullable ranks, h, qs, hqs, hfollow => by
    simp only [isPlain, Bool.and_eq_true, decide_eq_true_eq] at h
    obtain ⟨hsuffix, hsuffixHead⟩ := wellSpelled_suffixPieces_append nullable ranks hqs hfollow
    obtain ⟨hargs, hargsHead⟩ := wellSpelled_argumentPieces_append arguments h.1.2 hsuffix hsuffixHead
    rw [pieces, List.append_assoc, List.append_assoc]
    exact wellSpelled_typeName_append h.1.1 hargs hargsHead

/-- Type arguments are well spelled in front of what may follow a name. -/
theorem wellSpelled_argumentPieces_append : ∀ ts : List TypeRef, arePlain ts = true →
    ∀ {qs : List Piece}, WellSpelled qs → (∀ q ∈ qs.head?, FollowsName q) →
      WellSpelled (argumentPieces ts ++ qs) ∧ ∀ q ∈ (argumentPieces ts ++ qs).head?, q.FollowsWord
  | [], _, _, hqs, hfollow => ⟨hqs, fun q hq => (hfollow q hq).followsWord⟩
  | t :: rest, h, qs, hqs, hfollow => by
    simp only [arePlain, Bool.and_eq_true] at h
    obtain ⟨hmore, hmoreHead⟩ := wellSpelled_morePieces_append rest h.2 hqs hfollow
    have hall := wellSpelled_pieces_append t h.1 hmore hmoreHead
    obtain ⟨s, ps, hps, -⟩ := t.exists_pieces_eq h.1
    rw [argumentPieces, List.cons_append, List.append_assoc]
    refine ⟨hall.cons (by decide) fun q hq => ?_, fun q hq => ?_⟩
    · obtain rfl : Piece.word s = q := by simpa [hps] using hq
      trivial
    · obtain rfl : Piece.mark "<" = q := by simpa using hq
      trivial

theorem wellSpelled_morePieces_append : ∀ ts : List TypeRef, arePlain ts = true →
    ∀ {qs : List Piece}, WellSpelled qs → (∀ q ∈ qs.head?, FollowsName q) →
      WellSpelled (morePieces ts ++ qs) ∧ ∀ q ∈ (morePieces ts ++ qs).head?, FollowsType q
  | [], _, qs, hqs, hfollow => by
    refine ⟨hqs.cons (by decide) fun q hq => mayMeet_of_followsName (hfollow q hq), fun q hq => ?_⟩
    obtain rfl : Piece.mark ">" = q := by simpa [morePieces] using hq
    exact (by decide : ">" ∈ [">", ",", "["])
  | t :: rest, h, qs, hqs, hfollow => by
    simp only [arePlain, Bool.and_eq_true] at h
    obtain ⟨hmore, hmoreHead⟩ := wellSpelled_morePieces_append rest h.2 hqs hfollow
    have hall := wellSpelled_pieces_append t h.1 hmore hmoreHead
    obtain ⟨s, ps, hps, -⟩ := t.exists_pieces_eq h.1
    have hgap : WellSpelled (.gap :: (t.pieces ++ (morePieces rest ++ qs))) :=
      hall.cons trivial fun q hq => by cases q <;> trivial
    rw [morePieces, List.cons_append, List.cons_append, List.append_assoc]
    refine ⟨hgap.cons (by decide) fun q hq => ?_, fun q hq => ?_⟩
    · obtain rfl : Piece.gap = q := by simpa using hq
      trivial
    · obtain rfl : Piece.mark "," = q := by simpa using hq
      exact (by decide : "," ∈ [">", ",", "["])
end

end TypeRef

/-! ## Recognising a reference -/

namespace Source

open Recogniser Phrase
open TypeRef (rankPieces suffixPieces argumentPieces morePieces arePlain)

section

variable {l : Phrases} (hl : l.Refuse)
include hl

theorem arrayRank_append (cs : List Char) {ts : List Token} (rest : List Token)
    (hts : ts.map Token.face =
      Piece.facesOf (.mark "[" :: (cs.map fun _ => .mark ",") ++ [.mark "]"])) :
    arrayRank l (ts ++ rest) = some rest := by
  obtain ⟨a, inside, rfl, hinside⟩ := exists_of_map_face hts
  have hnone : l.expression (inside ++ rest) = .none ∧
      sequence [repeated (sequence [mark ",", maybe l.expression]), mark "]"] (inside ++ rest) =
        some rest := by
    clear hts
    induction cs generalizing inside with
    | nil =>
        obtain ⟨b, more, rfl, hmore⟩ := exists_of_map_face hinside
        obtain rfl := List.map_eq_nil_iff.1 hmore
        refine ⟨hl.expression b "]" _ (by decide), ?_⟩
        have hend : repeated (sequence [mark ",", maybe l.expression]) (⟨b, .mark, "]"⟩ :: rest) =
            some (⟨b, .mark, "]"⟩ :: rest) :=
          repeated_of_none (by simp [sequence_cons])
        simp [sequence_cons, hend]
    | cons c cs ih =>
        obtain ⟨b, more, rfl, hmore⟩ := exists_of_map_face hinside
        obtain ⟨hexpression, hrest⟩ := ih more hmore
        refine ⟨hl.expression b "," _ (by decide), ?_⟩
        have hstep : sequence [mark ",", maybe l.expression] (⟨b, .mark, ","⟩ :: (more ++ rest)) =
            some (more ++ rest) := by
          simp [sequence_cons, maybe_eq, hexpression]
        rw [List.cons_append, sequence_cons, repeated_of_some hstep (by simp), ← sequence_cons]
        exact hrest
  obtain ⟨hexpression, hrest⟩ := hnone
  rw [sequence_cons] at hrest
  simpa [arrayRank, sequence_cons, maybe_eq, hexpression] using hrest

/-- Ranks are recognised as far as they go. -/
theorem repeated_ranks_append (ranks : List String) {ts rest : List Token} (hrest : EndsType rest)
    (hts : ts.map Token.face = Piece.facesOf (rankPieces ranks)) :
    repeated (choice [mark "?", mark "*", arrayRank l]) (ts ++ rest) = some rest := by
  induction ranks generalizing ts with
  | nil =>
      obtain rfl := List.map_eq_nil_iff.1 hts
      exact hrest.repeated_marks
  | cons rank ranks ih =>
      rw [rankPieces, List.flatMap_cons, Piece.facesOf_append] at hts
      obtain ⟨first, more, rfl, hfirst, hmore⟩ := List.map_eq_append_iff.1 hts
      have hstep := arrayRank_append hl rank.toList (more ++ rest) hfirst
      obtain ⟨a, inside, rfl, -⟩ := exists_of_map_face hfirst
      have hchoice : choice [mark "?", mark "*", arrayRank l]
          (⟨a, .mark, "["⟩ :: (inside ++ (more ++ rest))) = some (more ++ rest) := by
        simpa [choice_cons] using hstep
      rw [List.append_assoc, List.cons_append,
        repeated_of_some hchoice (by simp only [List.length_cons, List.length_append]; omega)]
      exact ih hmore

/-- The marks after a reference's name and its type arguments. -/
theorem repeated_suffix_append (nullable : Bool) (ranks : List String) {ts rest : List Token}
    (hrest : EndsType rest)
    (hts : ts.map Token.face = Piece.facesOf (suffixPieces nullable ranks)) :
    repeated (choice [mark "?", mark "*", arrayRank l]) (ts ++ rest) = some rest := by
  cases nullable with
  | false => exact repeated_ranks_append hl ranks hrest hts
  | true =>
      obtain ⟨a, more, rfl, hmore⟩ := exists_of_map_face hts
      have hstep : choice [mark "?", mark "*", arrayRank l] (⟨a, .mark, "?"⟩ :: (more ++ rest)) =
          some (more ++ rest) := by
        simp [choice_cons]
      rw [List.cons_append, repeated_of_some hstep (by simp)]
      exact repeated_ranks_append hl ranks hrest hmore

end

/-- The name of a type, with its type arguments. -/
theorem typeHead_of_typeName {l : Phrases} [l.LeaveSuffix] {name : String} {isGeneric : Bool}
    (hname : TypeRef.IsTypeName name isGeneric) {last after : List Token}
    (hlast : maybe (typeArguments l) last = some after) (hsame : isGeneric = false → last = after)
    (hcolons : mark "::" last = none) (hdot : mark "." after = none) {ts : List Token}
    (hts : ts.map Token.face = Piece.facesOf (namePieces name)) :
    typeHead l (ts ++ last) = some after ∧ word "ref" (ts ++ last) = none := by
  rcases hname with hname | ⟨hgeneric, hbuiltIn⟩
  · obtain ⟨first, parts, hcut⟩ := exists_pieces name
    unfold IsQualified at hname
    rw [namePieces, hcut] at hts
    rw [hcut] at hname
    have hfirst := (hname first List.mem_cons_self).free
    have hparts : ∀ part ∈ parts, part ∉ reservedWords :=
      fun part h => (hname part (List.mem_cons_of_mem first h)).free
    refine ⟨typeHead_parts l hfirst hparts hlast hcolons hdot hts, ?_⟩
    have href : "ref" ≠ first := ne_of_mem_of_not_mem (by decide) hfirst
    obtain ⟨a, more, rfl, -⟩ := exists_of_map_face hts
    simp [href.symm]
  · obtain ⟨hcut, -, href, hdelegate⟩ := TypeRef.builtIn_facts name hbuiltIn
    rw [namePieces, hcut] at hts
    obtain ⟨a, more, rfl, hmore⟩ := exists_of_map_face hts
    obtain rfl := List.map_eq_nil_iff.1 hmore
    obtain rfl := hsame hgeneric
    constructor
    · simp [typeHead, functionPointer, tupleType, choice_cons, sequence_cons, hdelegate, hbuiltIn]
    · simp [href]

/-- What follows a name and its type arguments does not go on with them. -/
theorem endsName_of_suffix (nullable : Bool) (ranks : List String) {ts rest : List Token}
    (hrest : EndsType rest)
    (hts : ts.map Token.face = Piece.facesOf (suffixPieces nullable ranks)) :
    ∀ s ∈ ["::", "<", "."], mark s (ts ++ rest) = none := by
  intro s hs
  have hne : ∀ m ∈ ["?", "["], m ≠ s := by
    rintro m hm rfl
    exact absurd hs ((by decide : ∀ m ∈ ["?", "["], m ∉ ["::", "<", "."]) m hm)
  have hend : mark s rest = none :=
    hrest s ((by decide : ∀ s ∈ ["::", "<", "."], s ∈ ["::", "<", ".", "?", "*", "["]) s hs)
  cases nullable with
  | true =>
      obtain ⟨a, more, rfl, -⟩ := exists_of_map_face hts
      simp [hne "?" (by decide)]
  | false =>
      cases ranks with
      | nil =>
          obtain rfl := List.map_eq_nil_iff.1 hts
          exact hend
      | cons rank ranks =>
          obtain ⟨a, more, rfl, -⟩ := exists_of_map_face hts
          simp [hne "[" (by decide)]

theorem endsType_more (ts : List TypeRef) {args : List Token}
    (hargs : args.map Token.face = Piece.facesOf (morePieces ts)) (rest : List Token) :
    EndsType (args ++ rest) := by
  cases ts with
  | nil =>
      obtain ⟨a, inside, rfl, -⟩ := exists_of_map_face hargs
      exact endsType_mark a (by decide) _
  | cons t more =>
      obtain ⟨a, inside, rfl, -⟩ := exists_of_map_face hargs
      exact endsType_mark a (by decide) _

mutual
/-- The text of a reference is recognised as a type. -/
theorem type_append : ∀ t : TypeRef, t.isPlain = true → ∀ {n : Nat} {ts rest : List Token},
    ts.map Token.face = Piece.facesOf t.pieces → ts.length ≤ n → EndsType rest →
      type (Phrases.ofDepth n) (ts ++ rest) = some rest
  | .mk name arguments nullable ranks, h, n, ts, rest, hts, hn, hrest => by
    simp only [TypeRef.isPlain, Bool.and_eq_true, decide_eq_true_eq] at h
    rw [TypeRef.pieces, Piece.facesOf_append, Piece.facesOf_append] at hts
    obtain ⟨named, more, rfl, hnamed, hmore⟩ := List.map_eq_append_iff.1 hts
    obtain ⟨args, marks, rfl, hargs, hmarks⟩ := List.map_eq_append_iff.1 hmore
    simp only [List.length_append] at hn
    have hends := endsName_of_suffix nullable ranks hrest hmarks
    have harguments := typeArguments_append arguments h.1.2 hargs (by omega : args.length ≤ n)
      (hends "<" (by decide))
    have hcolons : mark "::" (args ++ (marks ++ rest)) = none := by
      cases arguments with
      | nil =>
          obtain rfl := List.map_eq_nil_iff.1 hargs
          exact hends "::" (by decide)
      | cons t rest =>
          obtain ⟨a, inside, rfl, -⟩ := exists_of_map_face hargs
          simp
    have hsame : (!arguments.isEmpty) = false → args ++ (marks ++ rest) = marks ++ rest := by
      intro hempty
      obtain rfl : arguments = [] := by simpa using hempty
      obtain rfl := List.map_eq_nil_iff.1 hargs
      rfl
    obtain ⟨hhead, href⟩ := typeHead_of_typeName h.1.1 harguments hsame hcolons
      (hends "." (by decide)) hnamed
    have hsuffix := repeated_suffix_append (Phrases.refuse_ofDepth n) nullable ranks hrest hmarks
    simp only [List.append_assoc]
    simp [type, choice_cons, sequence_cons, href, hhead, hsuffix]

/-- Type arguments are recognised as far as they go, in phrases that are deep enough. -/
theorem typeArguments_append : ∀ ts : List TypeRef, arePlain ts = true → ∀ {n : Nat}
    {args rest : List Token}, args.map Token.face = Piece.facesOf (argumentPieces ts) →
      args.length ≤ n → mark "<" rest = none →
        maybe (typeArguments (Phrases.ofDepth n)) (args ++ rest) = some rest
  | [], _, n, args, rest, hargs, _, hrest => by
    obtain rfl := List.map_eq_nil_iff.1 hargs
    simp [maybe_eq, typeArguments, sequence_cons, hrest]
  | t :: more, h, n, args, rest, hargs, hn, hrest => by
    simp only [arePlain, Bool.and_eq_true] at h
    obtain ⟨a, inside, rfl, hinside⟩ := exists_of_map_face hargs
    obtain ⟨first, others, rfl, hfirst, hothers⟩ :=
      List.map_eq_append_iff.1 (hinside.trans (Piece.facesOf_append t.pieces (morePieces more)))
    rw [List.length_cons, List.length_append] at hn
    obtain ⟨n, rfl⟩ := Nat.exists_eq_add_one_of_ne_zero (by omega : n ≠ 0)
    have htype := type_append t h.1 hfirst (by omega : first.length ≤ n)
      (endsType_more more hothers rest)
    have hmore := moreArguments_append more h.2 rest hothers (by omega : others.length ≤ n + 1)
    have hnext : (Phrases.ofDepth (n + 1)).type (first ++ (others ++ rest)) =
        some (others ++ rest) := htype
    rw [sequence_cons] at hmore
    obtain ⟨mid, hmid, hclose⟩ := Option.bind_eq_some_iff.1 hmore
    simp only [sequence_cons] at hclose
    simp [maybe_eq, typeArguments, separated, sequence_cons, choice_cons, hnext, hmid, hclose]

/-- The arguments after the first are recognised up to the closing bracket. -/
theorem moreArguments_append : ∀ ts : List TypeRef, arePlain ts = true → ∀ {n : Nat}
    {args : List Token} (rest : List Token), args.map Token.face = Piece.facesOf (morePieces ts) →
      args.length ≤ n →
        sequence [repeated (sequence [mark ",", (Phrases.ofDepth n).type]), mark ">"] (args ++ rest) =
          some rest
  | [], _, n, _, rest, hargs, _ => by
    obtain ⟨a, inside, rfl, hinside⟩ := exists_of_map_face hargs
    obtain rfl := List.map_eq_nil_iff.1 hinside
    have hend : repeated (sequence [mark ",", (Phrases.ofDepth n).type]) (⟨a, .mark, ">"⟩ :: rest) =
        some (⟨a, .mark, ">"⟩ :: rest) :=
      repeated_of_none (by simp [sequence_cons])
    simp [sequence_cons, hend]
  | t :: more, h, n, args, rest, hargs, hn => by
    simp only [arePlain, Bool.and_eq_true] at h
    obtain ⟨a, inside, rfl, hinside⟩ := exists_of_map_face hargs
    obtain ⟨first, others, rfl, hfirst, hothers⟩ :=
      List.map_eq_append_iff.1 (hinside.trans (Piece.facesOf_append t.pieces (morePieces more)))
    rw [List.length_cons, List.length_append] at hn
    obtain ⟨n, rfl⟩ := Nat.exists_eq_add_one_of_ne_zero (by omega : n ≠ 0)
    have htype := type_append t h.1 hfirst (by omega : first.length ≤ n)
      (endsType_more more hothers rest)
    have hmore := moreArguments_append more h.2 rest hothers (by omega : others.length ≤ n + 1)
    have hstep : sequence [mark ",", (Phrases.ofDepth (n + 1)).type]
        (⟨a, .mark, ","⟩ :: (first ++ (others ++ rest))) = some (others ++ rest) := by
      rw [sequence_cons, mark_mark, if_pos rfl, Option.bind_some, sequence_cons]
      exact congrArg (Option.bind · (sequence [])) htype
    rw [List.cons_append, List.append_assoc, sequence_cons,
      repeated_of_some hstep (by simp only [List.length_cons, List.length_append]; omega), ← sequence_cons]
    exact hmore
end

end Source

end PlatformClasses
