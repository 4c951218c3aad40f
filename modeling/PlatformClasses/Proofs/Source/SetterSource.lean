import PlatformClasses.Proofs.Declaration.Reading
import PlatformClasses.Proofs.Source.Members

/-!
# Sources of setter methods

A source of setter methods has using directives and a namespace with one class of such methods.  Its
tokens are read to their end (`treeOfTokens?_source`), and no interface is found in what is read
(`AreSetterNodes.ofTree`).
-/

namespace PlatformClasses.Source

open Recogniser Phrase Reader

/-- A source that declares a class of setter methods. -/
structure SetterSource where
  usings : List String
  nameSpace : String
  members : SetterClass

namespace SetterSource

/-- The line of a using directive. -/
def usingLine (name : String) : List Piece := .word "using" :: .gap :: (namePieces name ++ [.mark ";"])

/-- The line that declares the namespace. -/
def nameSpaceLine (s : SetterSource) : List Piece :=
  .word "namespace" :: .gap :: namePieces s.nameSpace

/-- The faces of the source's tokens. -/
def faces (s : SetterSource) : List Face :=
  s.usings.flatMap (fun name => Piece.facesOf (usingLine name)) ++ (Piece.facesOf s.nameSpaceLine ++
    ((.mark, "\x7b") :: (s.members.faces ++ [(.mark, "\x7d")])))

/-- A source whose names and types can stand where they do. -/
structure IsPlain (s : SetterSource) : Prop where
  usings : ∀ name ∈ s.usings, IsQualified name
  nameSpace : IsQualified s.nameSpace
  members : s.members.IsPlain

end SetterSource

/-- A dotted name, before a mark that does not go on with it. -/
theorem qualifiedName_mark {l : Phrases} [l.LeaveSuffix] {s : String} (hs : IsQualified s)
    {a : List Trivia} {m : String} (hm : m ∉ ["::", "<", ".", "?", "*", "["]) {ts : List Token}
    (hts : ts.map Token.face = Piece.facesOf (namePieces s)) (rest : List Token) :
    qualifiedName l (ts ++ ⟨a, .mark, m⟩ :: rest) = some (⟨a, .mark, m⟩ :: rest) := by
  obtain ⟨first, parts, hcut⟩ := exists_pieces s
  unfold IsQualified at hs
  rw [namePieces, hcut] at hts
  rw [hcut] at hs
  have hends := endsType_mark a hm rest
  exact qualifiedName_parts l (hs first List.mem_cons_self).free
    (fun part h => (hs part (List.mem_cons_of_mem first h)).free) hends.maybe_typeArguments
    (hends "::" (by decide)) (hends "." (by decide)) hts

/-- A dotted name begins with a name, and what follows this is a dot if it is in the name. -/
theorem exists_name_tokens {s : String} (hs : IsQualified s) {ts : List Token}
    (hts : ts.map Token.face = Piece.facesOf (namePieces s)) : ∃ a first more,
      ts = ⟨a, .word, first⟩ :: more ∧ first ∉ reservedWords ∧
        (more = [] ∨ ∃ b rest, more = ⟨b, .mark, "."⟩ :: rest) := by
  obtain ⟨first, parts, hcut⟩ := exists_pieces s
  have hfirst : first ∉ reservedWords := (hs first (by simp [hcut])).free
  rw [namePieces, hcut] at hts
  obtain ⟨a, more, rfl, hmore⟩ := exists_of_map_face hts
  refine ⟨a, first, more, rfl, hfirst, ?_⟩
  cases parts with
  | nil => exact .inl (List.map_eq_nil_iff.1 hmore)
  | cons part parts =>
      obtain ⟨b, rest, rfl, -⟩ := exists_of_map_face hmore
      exact .inr ⟨b, rest, rfl⟩

/-! ## The items -/

section

variable {l : Phrases} [l.LeaveSuffix]

theorem readUsing_line {name : String} (hname : IsQualified name) {ts : List Token}
    (hts : ts.map Token.face = Piece.facesOf (SetterSource.usingLine name)) (rest : List Token) :
    ∃ directive, readUsing l (ts ++ rest) = some (.usingDirective directive, rest) := by
  obtain ⟨a, more, rfl, hmore⟩ := exists_of_map_face hts
  obtain ⟨named, last, rfl, hnamed, hlast⟩ := List.map_eq_append_iff.1
    (hmore.trans (Piece.facesOf_append (namePieces name) [.mark ";"]))
  obtain ⟨b, nothing, rfl, hnothing⟩ := exists_of_map_face hlast
  obtain rfl := List.map_eq_nil_iff.1 hnothing
  have hqualified := qualifiedName_mark (l := l) hname (a := b) (by decide : ";" ∉ _) hnamed rest
  obtain ⟨c, first, tail, rfl, hfirst, htail⟩ := exists_name_tokens hname hnamed
  have hstatic : "static" ≠ first := ne_of_mem_of_not_mem (by decide) hfirst
  have hunsafe : "unsafe" ≠ first := ne_of_mem_of_not_mem (by decide) hfirst
  have halias : mark "=" (tail ++ ⟨b, .mark, ";"⟩ :: rest) = none := by
    rcases htail with rfl | ⟨d, inside, rfl⟩ <;> simp
  simp only [List.cons_append, List.append_assoc, List.nil_append] at hqualified ⊢
  simp [readUsing, choice_cons, sequence_cons, maybe_eq, hstatic.symm, hunsafe.symm, hfirst, halias,
    hqualified]

theorem readTopLevelItem_using {name : String} (hname : IsQualified name) {ts : List Token}
    (hts : ts.map Token.face = Piece.facesOf (SetterSource.usingLine name))
    (inner : Reader (List Node)) (rest : List Token) : ∃ directive,
      readTopLevelItem l inner (ts ++ rest) = some (.usingDirective directive, rest) := by
  obtain ⟨directive, hread⟩ := readUsing_line (l := l) hname hts rest
  obtain ⟨a, more, rfl, -⟩ := exists_of_map_face hts
  refine ⟨directive, ?_⟩
  rw [List.cons_append] at hread ⊢
  simp [readTopLevelItem, sequence_cons, hread]

/-- A namespace whose members are read to the end of its braces. -/
theorem readTopLevelItem_nameSpace {nameSpace : String} (hname : IsQualified nameSpace)
    {ts : List Token}
    (hts : ts.map Token.face = Piece.facesOf (.word "namespace" :: .gap :: namePieces nameSpace))
    {inner : Reader (List Node)} {a b : List Trivia} {inside rest : List Token} {members : List Node}
    (hinner : inner inside = some (members, ⟨b, .mark, "\x7d"⟩ :: rest))
    (hrest : adjacentMark ";" rest = none) : ∃ text,
      readTopLevelItem l inner (ts ++ ⟨a, .mark, "\x7b"⟩ :: inside) =
        some (.namespaceBlock text members, rest) := by
  obtain ⟨c, named, rfl, hnamed⟩ := exists_of_map_face hts
  have hqualified := qualifiedName_mark (l := l) hname (a := a) (by decide : "\x7b" ∉ _) hnamed inside
  refine ⟨Token.verbatim (Token.before (named ++ ⟨a, .mark, "\x7b"⟩ :: inside)
    (⟨a, .mark, "\x7b"⟩ :: inside)), ?_⟩
  simp [readTopLevelItem, readUsing, readNamespace, textOf, readBody, sequence_cons, hqualified,
    hinner, bodyEnd_closing b hrest]

end

/-! ## The source -/

/-- The nodes of a source of setter methods. -/
inductive AreSetterNodes : List Node → Prop
  | nameSpace (text : String) {methods : List Node} (h : ∀ node ∈ methods, ∃ m, node = .method m) :
    AreSetterNodes [.namespaceBlock text [.typeDeclaration .classType methods]]
  | directive (d : UsingNode) {nodes : List Node} (h : AreSetterNodes nodes) :
    AreSetterNodes (.usingDirective d :: nodes)

theorem adjacentMark_stop {t : Token} (ht : t.kind = .stop) (m : String) :
    adjacentMark m [t] = none := by
  simp [adjacentMark, token, Token.isMark, ht]

/-- The namespace at the end of the source. -/
theorem readItems_nameSpace {s : SetterSource} (hs : s.IsPlain) {n : Nat} {ts : List Token}
    (hts : ts.map Token.face = Piece.facesOf s.nameSpaceLine ++
      ((.mark, "\x7b") :: (s.members.faces ++ [(.mark, "\x7d")]))) (hn : ts.length ≤ n)
    (hdirectives : ∀ t ∈ ts, t.directives = []) {t : Token} (ht : t.kind = .stop)
    (hstop : t.directives = []) (depth fuel : Nat) :
    ∃ nodes, readItems (readTopLevelItem (Phrases.ofDepth n)
      (readMembers (Phrases.ofDepth n) (depth + 2))) (fuel + 2) (ts ++ [t]) = some (nodes, [t]) ∧
        AreSetterNodes nodes := by
  obtain ⟨named, more, rfl, hnamed, hmore⟩ := List.map_eq_append_iff.1 hts
  obtain ⟨a, inside, rfl, hinside⟩ := exists_of_map_face hmore
  obtain ⟨classed, last, rfl, hclassed, hlast⟩ := List.map_eq_append_iff.1 hinside
  obtain ⟨b, nothing, rfl, hnothing⟩ := exists_of_map_face hlast
  obtain rfl := List.map_eq_nil_iff.1 hnothing
  simp only [List.length_append, List.length_cons] at hn
  have hclosing : adjacentMark ";" (⟨b, .mark, "\x7d"⟩ :: [t]) = none := by
    simp [adjacentMark, token, Token.isMark]
  obtain ⟨methods, hclass, hmethods⟩ := readMember_setterClass hs.members hclassed
    (by omega : classed.length ≤ n) (fun u hu => hdirectives u (by simp [hu])) depth hclosing
  -- the class is all that the namespace holds
  have hmembers : readMembers (Phrases.ofDepth n) (depth + 2) (classed ++ ⟨b, .mark, "\x7d"⟩ :: [t]) =
      some ([.typeDeclaration .classType methods], ⟨b, .mark, "\x7d"⟩ :: [t]) := by
    obtain ⟨c, tail, rfl, -⟩ := exists_of_map_face hclassed
    have hend : ∀ fuel, readItems (readMember (Phrases.ofDepth n)
        (readMembers (Phrases.ofDepth n) (depth + 1))) (fuel + 1) (⟨b, .mark, "\x7d"⟩ :: [t]) =
          some ([], ⟨b, .mark, "\x7d"⟩ :: [t]) :=
      fun fuel => readItems_end (hdirectives _ (by simp)) (endsItems_closing b)
    exact readItems_cons (hdirectives _ (by simp)) (endsItems_word c "public") (by simp) hclass
      (hend _)
  obtain ⟨text, hread⟩ := readTopLevelItem_nameSpace (l := Phrases.ofDepth n) (a := a) hs.nameSpace
    hnamed hmembers (adjacentMark_stop ht ";")
  have hstopped : readItems (readTopLevelItem (Phrases.ofDepth n)
      (readMembers (Phrases.ofDepth n) (depth + 2))) (fuel + 1) [t] = some ([], [t]) :=
    readItems_end hstop (by simp [endsItems, ht])
  obtain ⟨c, tail, rfl, -⟩ := exists_of_map_face hnamed
  refine ⟨_, ?_, .nameSpace text hmethods⟩
  simp only [List.append_assoc, List.cons_append, List.nil_append] at hread ⊢
  exact readItems_cons (hdirectives _ (by simp)) (endsItems_word c "namespace") (by simp) hread
    hstopped

theorem readItems_source {s : SetterSource} (hs : s.IsPlain) {usings : List String}
    (husings : ∀ name ∈ usings, IsQualified name) {n : Nat} {ts : List Token}
    (hts : ts.map Token.face = usings.flatMap (fun name => Piece.facesOf (SetterSource.usingLine name)) ++
      (Piece.facesOf s.nameSpaceLine ++ ((.mark, "\x7b") :: (s.members.faces ++ [(.mark, "\x7d")]))))
    (hn : ts.length ≤ n) (hdirectives : ∀ t ∈ ts, t.directives = []) {t : Token}
    (ht : t.kind = .stop) (hstop : t.directives = []) (depth : Nat) {fuel : Nat}
    (hfuel : usings.length + 1 < fuel) :
    ∃ nodes, readItems (readTopLevelItem (Phrases.ofDepth n)
      (readMembers (Phrases.ofDepth n) (depth + 2))) fuel (ts ++ [t]) = some (nodes, [t]) ∧
        AreSetterNodes nodes := by
  induction usings generalizing ts fuel with
  | nil =>
      obtain ⟨fuel, rfl⟩ : ∃ k, fuel = k + 2 := ⟨fuel - 2, by omega⟩
      exact readItems_nameSpace hs hts hn hdirectives ht hstop depth fuel
  | cons name usings ih =>
      rw [List.flatMap_cons, List.append_assoc] at hts
      obtain ⟨line, more, rfl, hline, hmore⟩ := List.map_eq_append_iff.1 hts
      rw [List.length_append] at hn
      rw [List.length_cons] at hfuel
      obtain ⟨fuel, rfl⟩ := Nat.exists_eq_add_one_of_ne_zero (by omega : fuel ≠ 0)
      obtain ⟨directive, hread⟩ := readTopLevelItem_using (l := Phrases.ofDepth n)
        (husings name List.mem_cons_self) hline (readMembers (Phrases.ofDepth n) (depth + 2))
        (more ++ [t])
      obtain ⟨nodes, hnodes, hall⟩ := ih (fun u hu => husings u (List.mem_cons_of_mem name hu)) hmore
        (by omega) (fun u hu => hdirectives u (List.mem_append_right line hu))
        (by omega : usings.length + 1 < fuel)
      obtain ⟨a, rest, rfl, -⟩ := exists_of_map_face hline
      refine ⟨.usingDirective directive :: nodes, ?_, .directive directive hall⟩
      rw [List.append_assoc]
      exact readItems_cons (hdirectives _ (by simp)) (endsItems_word a "using") (by simp) hread hnodes

/-- A source of setter methods is well formed. -/
theorem treeOfTokens?_source {s : SetterSource} (hs : s.IsPlain) {ts : List Token}
    (hts : Spelled s.faces ts) : ∃ nodes, treeOfTokens? ts = some nodes ∧ AreSetterNodes nodes := by
  obtain ⟨front, last, rfl, hfront, hlast⟩ := List.map_eq_append_iff.1 hts.faces
  obtain ⟨a, nothing, rfl, hnothing⟩ := exists_of_map_face hlast
  obtain rfl := List.map_eq_nil_iff.1 hnothing
  have hlength : s.usings.length + 2 ≤ front.length := by
    have hcount : front.length = s.faces.length := by
      simpa using congrArg List.length hfront
    have hlines := length_le_length_flatMap
      (fun name => by simp [SetterSource.usingLine] : ∀ name : String,
        Piece.facesOf (SetterSource.usingLine name) ≠ []) s.usings
    rw [hcount, SetterSource.faces, List.length_append, List.length_append, List.length_cons,
      List.length_append, List.length_singleton]
    omega
  obtain ⟨depth, hdepth⟩ : ∃ depth, (front ++ [(⟨a, .stop, ""⟩ : Token)]).length = depth + 2 := by
    rw [List.length_append, List.length_singleton]
    exact ⟨front.length + 1 - 2, by omega⟩
  have hdirectives := hts.directives
  obtain ⟨nodes, hnodes, hall⟩ := readItems_source hs hs.usings hfront
    (by rw [List.length_append]; omega : front.length ≤ (front ++ [(⟨a, .stop, ""⟩ : Token)]).length)
    (fun t ht => hdirectives t (List.mem_append_left _ ht)) (rfl : (⟨a, .stop, ""⟩ : Token).kind = .stop)
    (hdirectives _ (by simp)) depth
    (by rw [List.length_append]; omega :
      s.usings.length + 1 < 2 * (front ++ [(⟨a, .stop, ""⟩ : Token)]).length + 2)
  refine ⟨nodes, ?_, hall⟩
  rw [hdepth] at hnodes
  simp only [treeOfTokens?]
  rw [hdepth, hnodes]
  rfl

/-! ## No interfaces -/

theorem interfacesOfAll_methods {methods : List Node} (h : ∀ node ∈ methods, ∃ m, node = .method m)
    (around : List String) : Declaration.interfacesOfAll around methods = [] := by
  induction methods with
  | nil => rfl
  | cons node methods ih =>
      obtain ⟨m, rfl⟩ := h node List.mem_cons_self
      have htail := ih fun node hnode => h node (List.mem_cons_of_mem _ hnode)
      rw [Declaration.interfacesOfAll, htail]
      rfl

namespace AreSetterNodes

variable {nodes : List Node} (h : AreSetterNodes nodes)
include h

theorem interfacesOfAll (around : List String) : Declaration.interfacesOfAll around nodes = [] := by
  induction h with
  | nameSpace text h =>
      simp [Declaration.interfacesOfAll, Declaration.interfacesOf, interfacesOfAll_methods h]
  | directive d _ ih =>
      rw [Declaration.interfacesOfAll, ih]
      rfl

theorem namespacesOf (origin : String) : ∃ text, Declaration.namespacesOf origin nodes = .ok [text] := by
  induction h with
  | nameSpace text _ => exact ⟨text, rfl⟩
  | directive d _ ih => exact ih

/-- Setter methods make no model elements. -/
theorem ofTree (origin : String) (sourceFile : Option Path) :
    ModelElement.ofTree origin sourceFile nodes = .ok [] := by
  obtain ⟨text, htext⟩ := h.namespacesOf origin
  exact ModelElement.ofTree_eq_nil htext (h.interfacesOfAll _) sourceFile

end AreSetterNodes

end PlatformClasses.Source
