import PlatformClasses.Proofs.Source.Recognition
import PlatformClasses.Proofs.Source.Spelling
import PlatformClasses.Proofs.Target.Placement

/-!
# Names in a source

A name is a word that is not reserved, and a qualified name is made of names with dots between them.  Its
pieces make up its text and are cut apart again, and they are taken as a name where they stand.
-/

namespace PlatformClasses.Source

open Recogniser Phrase

/-! ## Faces of tokens -/

/-- The first token has the first face, with some trivia before it. -/
theorem exists_of_map_face {ts : List Token} {kind : TokenKind} {text : String} {faces : List Face}
    (h : ts.map Token.face = (kind, text) :: faces) :
    ∃ lead rest, ts = ⟨lead, kind, text⟩ :: rest ∧ rest.map Token.face = faces := by
  cases ts with
  | nil => simp at h
  | cons t rest =>
      obtain ⟨hface, hrest⟩ := List.cons.inj h
      obtain ⟨rfl, rfl⟩ := Prod.mk.inj hface
      exact ⟨t.lead, rest, rfl, hrest⟩

/-- Tokens with given faces, and something before each of them. -/
def withLeads (leads : Nat → List Trivia) : List Face → List Token
  | [] => []
  | (kind, text) :: faces => ⟨leads 0, kind, text⟩ :: withLeads (fun i => leads (i + 1)) faces

/-- Tokens are their faces with trivia before them. -/
theorem exists_leads {ts : List Token} {faces : List Face} (h : ts.map Token.face = faces) :
    ∃ leads, ts = withLeads leads faces := by
  induction faces generalizing ts with
  | nil => exact ⟨fun _ => [], List.map_eq_nil_iff.1 h⟩
  | cons face faces ih =>
      obtain ⟨kind, text⟩ := face
      obtain ⟨lead, rest, rfl, hrest⟩ := exists_of_map_face h
      obtain ⟨leads, rfl⟩ := ih hrest
      exact ⟨fun i => Nat.casesOn i lead leads, rfl⟩

/-! ## Pieces -/

/-- What does not go on with the word before it. -/
def Piece.FollowsWord : Piece → Prop
  | .word _ => False
  | _ => True

theorem Piece.mayMeet_of_followsWord {q : Piece} (hq : q.FollowsWord) (s : String) :
    (Piece.word s).MayMeet q := by
  cases q with
  | gap => trivial
  | word s => exact absurd hq id
  | mark m => trivial

/-! ## Names -/

/-- A word that can be a name in types and expressions. -/
structure IsName (s : String) : Prop where
  word : IsWord s
  free : s ∉ reservedWords

instance (s : String) : Decidable (IsName s) :=
  decidable_of_iff (IsWord s ∧ s ∉ reservedWords) ⟨fun h => ⟨h.1, h.2⟩, fun h => ⟨h.word, h.free⟩⟩

/-- Names with dots between them. -/
def IsQualified (s : String) : Prop := ∀ part ∈ Text.pieces '.' s, IsName part

instance (s : String) : Decidable (IsQualified s) :=
  inferInstanceAs (Decidable (∀ part ∈ Text.pieces '.' s, IsName part))

/-- The pieces of words that each stand after a dot. -/
def dottedPieces (parts : List String) : List Piece :=
  parts.flatMap fun part => [.mark ".", .word part]

/-- The pieces of words with dots between them. -/
def partPieces : List String → List Piece
  | [] => []
  | first :: parts => .word first :: dottedPieces parts

/-- The pieces of a dotted name. -/
def namePieces (s : String) : List Piece := partPieces (Text.pieces '.' s)

@[simp] theorem dottedPieces_cons (part : String) (parts : List String) :
    dottedPieces (part :: parts) = .mark "." :: .word part :: dottedPieces parts := rfl

theorem exists_pieces (s : String) : ∃ first parts, Text.pieces '.' s = first :: parts := by
  cases hcut : Text.piecesOf '.' s.toList with
  | nil => exact absurd hcut (Text.piecesOf_ne_nil '.' s.toList)
  | cons first parts => exact ⟨_, _, by rw [Text.pieces, hcut, List.map_cons]⟩

/-- The pieces of a dotted name are its text. -/
theorem textOf_dottedPieces (parts : List String) :
    Piece.textOf (dottedPieces parts) = Text.dotted parts := by
  induction parts with
  | nil => rfl
  | cons part parts ih => simp [ih, Piece.text, Text.dotted, String.append_assoc]

/-- The pieces of a dotted name make up the name. -/
theorem textOf_namePieces (s : String) : Piece.textOf (namePieces s) = s := by
  obtain ⟨first, parts, hparts⟩ := exists_pieces s
  have hdotted := Text.dotted_pieces s
  rw [hparts, Text.dotted, String.append_assoc] at hdotted
  have htext : first ++ Text.dotted parts = s := by simpa using hdotted
  rw [namePieces, hparts, partPieces, Piece.textOf_cons, textOf_dottedPieces]
  exact htext

/-- Words with dots between them are well spelled in front of what may follow a word. -/
theorem wellSpelled_partPieces_append {first : String} {parts : List String} {qs : List Piece}
    (hfirst : IsWord first) (hparts : ∀ part ∈ parts, IsWord part) (hqs : WellSpelled qs)
    (hfollow : ∀ q ∈ qs.head?, q.FollowsWord) : WellSpelled (partPieces (first :: parts) ++ qs) := by
  induction parts generalizing first with
  | nil => exact hqs.cons hfirst fun q hq => Piece.mayMeet_of_followsWord (hfollow q hq) first
  | cons part parts ih =>
      have hpart := hparts part List.mem_cons_self
      have htail := ih hpart fun part' h => hparts part' (List.mem_cons_of_mem part h)
      have hdot : WellSpelled (.mark "." :: (partPieces (part :: parts) ++ qs)) := by
        refine htail.cons (by decide) fun q hq => ?_
        obtain rfl : Piece.word part = q := by simpa [partPieces] using hq
        trivial
      refine hdot.cons hfirst fun q hq => ?_
      obtain rfl : Piece.mark "." = q := by simpa using hq
      trivial

/-- A qualified name is well spelled in front of what may follow a word. -/
theorem wellSpelled_namePieces_append {s : String} (hs : IsQualified s) {qs : List Piece}
    (hqs : WellSpelled qs) (hfollow : ∀ q ∈ qs.head?, q.FollowsWord) :
    WellSpelled (namePieces s ++ qs) := by
  obtain ⟨first, parts, hparts⟩ := exists_pieces s
  rw [namePieces, hparts]
  unfold IsQualified at hs
  rw [hparts] at hs
  exact wellSpelled_partPieces_append (hs first List.mem_cons_self).word
    (fun part h => (hs part (List.mem_cons_of_mem first h)).word) hqs hfollow

/-! ## Recognising names -/

section

variable (l : Phrases) [l.LeaveSuffix]

/-- Parts of a name, of which the last may have type arguments. -/
theorem sequence_simpleName {first : String} {parts : List String} (hfirst : first ∉ reservedWords)
    (hparts : ∀ part ∈ parts, part ∉ reservedWords) {last after : List Token}
    (hlast : maybe (typeArguments l) last = some after) (hdot : mark "." after = none)
    {ts : List Token} (hts : ts.map Token.face = Piece.facesOf (partPieces (first :: parts))) :
    sequence [simpleName l, repeated (sequence [mark ".", simpleName l])] (ts ++ last) =
      some after := by
  induction parts generalizing first ts with
  | nil =>
      obtain ⟨a, more, rfl, hmore⟩ := exists_of_map_face hts
      obtain rfl := List.map_eq_nil_iff.1 hmore
      have hend : repeated (sequence [mark ".", simpleName l]) after = some after :=
        repeated_of_none (by rw [sequence_cons, hdot]; rfl)
      simp [sequence_cons, simpleName, hfirst, hlast, hend]
  | cons part parts ih =>
      obtain ⟨a, dotted, rfl, hdotted⟩ := exists_of_map_face hts
      obtain ⟨b, named, rfl, hnamed⟩ := exists_of_map_face hdotted
      have htail := ih (hparts part List.mem_cons_self)
        (fun part' h => hparts part' (List.mem_cons_of_mem part h)) hnamed
      rw [sequence_cons] at htail
      obtain ⟨mid, hmid, hrest⟩ := Option.bind_eq_some_iff.1 htail
      have hstep : sequence [mark ".", simpleName l] (⟨b, .mark, "."⟩ :: (named ++ last)) =
          some mid := by
        simp [sequence_cons, hmid]
      have hshort : mid.length ≤ (named ++ last).length := (LeavesSuffix.suffix hmid).length_le
      have hnext := repeated_of_some hstep (by rw [List.length_cons]; omega)
      have harguments : typeArguments l (⟨b, .mark, "."⟩ :: (named ++ last)) = none := by
        simp [typeArguments, sequence_cons]
      have hfirstName : simpleName l (⟨a, .word, first⟩ :: ⟨b, .mark, "."⟩ :: (named ++ last)) =
          some (⟨b, .mark, "."⟩ :: (named ++ last)) := by
        simp [sequence_cons, simpleName, hfirst, maybe_eq, harguments]
      simpa [sequence_cons, hfirstName, hnext] using hrest

/-- A dotted name, of which the last part may have type arguments, after a name that is no alias. -/
theorem qualifiedName_parts {first : String} {parts : List String} (hfirst : first ∉ reservedWords)
    (hparts : ∀ part ∈ parts, part ∉ reservedWords) {last after : List Token}
    (hlast : maybe (typeArguments l) last = some after) (hcolons : mark "::" last = none)
    (hdot : mark "." after = none) {ts : List Token}
    (hts : ts.map Token.face = Piece.facesOf (partPieces (first :: parts))) :
    qualifiedName l (ts ++ last) = some after := by
  have hnames := sequence_simpleName l hfirst hparts hlast hdot hts
  have halias : sequence [name, mark "::"] (ts ++ last) = none := by
    obtain ⟨a, more, rfl, hmore⟩ := exists_of_map_face hts
    have hmark : mark "::" (more ++ last) = none := by
      cases parts with
      | nil =>
          obtain rfl := List.map_eq_nil_iff.1 hmore
          exact hcolons
      | cons part parts =>
          obtain ⟨b, named, rfl, -⟩ := exists_of_map_face hmore
          simp
    simp [sequence_cons, hfirst, hmark]
  rw [qualifiedName, sequence_cons, maybe_eq, halias]
  exact hnames

/-- A type without marks that is given by its name. -/
theorem typeHead_parts {first : String} {parts : List String} (hfirst : first ∉ reservedWords)
    (hparts : ∀ part ∈ parts, part ∉ reservedWords) {last after : List Token}
    (hlast : maybe (typeArguments l) last = some after) (hcolons : mark "::" last = none)
    (hdot : mark "." after = none) {ts : List Token}
    (hts : ts.map Token.face = Piece.facesOf (partPieces (first :: parts))) :
    typeHead l (ts ++ last) = some after := by
  have hqualified := qualifiedName_parts l hfirst hparts hlast hcolons hdot hts
  have hdelegate : "delegate" ≠ first := ne_of_mem_of_not_mem (by decide) hfirst
  have hbuiltIn : first ∉ builtInTypes := fun h => hfirst (List.mem_append_right _ h)
  obtain ⟨a, more, rfl, -⟩ := exists_of_map_face hts
  rw [List.cons_append] at hqualified ⊢
  simp [typeHead, functionPointer, tupleType, choice_cons, sequence_cons, hqualified, hbuiltIn,
    hdelegate.symm]

end

/-! ## What ends a type -/

/-- Tokens that do not go on with a type. -/
def EndsType (ts : List Token) : Prop :=
  ∀ s ∈ ["::", "<", ".", "?", "*", "["], mark s ts = none

/-- A word ends a type. -/
theorem endsType_word (a : List Trivia) (x : String) (ts : List Token) :
    EndsType (⟨a, .word, x⟩ :: ts) :=
  fun s _ => mark_word a s x ts

/-- A mark ends a type unless a type can go on with it. -/
theorem endsType_mark (a : List Trivia) {m : String} (hm : m ∉ ["::", "<", ".", "?", "*", "["])
    (ts : List Token) : EndsType (⟨a, .mark, m⟩ :: ts) := by
  intro s hs
  rw [mark_mark, if_neg]
  rintro rfl
  exact hm hs

/-- Behind the end of a type there are no more ranks. -/
theorem EndsType.repeated_marks {l : Phrases} {ts : List Token} (h : EndsType ts) :
    repeated (choice [mark "?", mark "*", arrayRank l]) ts = some ts := by
  refine repeated_of_none ?_
  have hquestion := h "?" (by decide)
  have hstar := h "*" (by decide)
  have hsquare := h "[" (by decide)
  simp [choice_cons, arrayRank, sequence_cons, hquestion, hstar, hsquare]

theorem EndsType.maybe_typeArguments {l : Phrases} {ts : List Token} (h : EndsType ts) :
    maybe (typeArguments l) ts = some ts := by
  have hless := h "<" (by decide)
  simp [maybe_eq, typeArguments, sequence_cons, hless]

/-- A type that is given by its name alone. -/
theorem type_parts (l : Phrases) [l.LeaveSuffix] {first : String} {parts : List String}
    (hfirst : first ∉ reservedWords) (hparts : ∀ part ∈ parts, part ∉ reservedWords)
    {rest : List Token} (hrest : EndsType rest) {ts : List Token}
    (hts : ts.map Token.face = Piece.facesOf (partPieces (first :: parts))) :
    type l (ts ++ rest) = some rest := by
  have hhead := typeHead_parts l hfirst hparts hrest.maybe_typeArguments (hrest "::" (by decide))
    (hrest "." (by decide)) hts
  have href : "ref" ≠ first := ne_of_mem_of_not_mem (by decide) hfirst
  obtain ⟨a, more, rfl, -⟩ := exists_of_map_face hts
  rw [List.cons_append] at hhead ⊢
  simp [type, choice_cons, sequence_cons, hhead, hrest.repeated_marks, href.symm]

end PlatformClasses.Source
