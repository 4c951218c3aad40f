import Mathlib.Data.List.Forall2
import PlatformClasses.Proofs.Source.Cutting
import PlatformClasses.Proofs.Source.InterfaceNames
import PlatformClasses.Proofs.Source.Recognition

/-!
# Using directives among tokens

Each using directive of a syntax tree is read from tokens of its own, from the word `global` or `using` up to
a semicolon (`UsingTokens`), and what the tree says of it is what these tokens say.  The tokens of the
directives at the top level stand in the source in the order of the directives (`readFrom_treeOfTokens?`).
Where only white space is between the tokens of a directive, they stand in the text as a row
(`UsingTokens.exists_laidOut`).
-/

namespace PlatformClasses.Source

open Recogniser Phrase Reader

theorem isWord_eq_true {t : Token} {text : String} :
    t.isWord text = true ↔ t.kind = .word ∧ t.text = text := by
  simp [Token.isWord]

theorem isMark_eq_true {t : Token} {text : String} :
    t.isMark text = true ↔ t.kind = .mark ∧ t.text = text := by
  simp [Token.isMark]

/-- The tokens of a using directive. -/
structure UsingTokens where
  /-- The word `global`, if it is there. -/
  scope : Option Token
  /-- The word `using`. -/
  keyword : Token
  /-- The word `static`, if it is there. -/
  modifier : Option Token
  /-- What is imported: a name, or an alias with its type. -/
  imported : List Token
  semicolon : Token
deriving Repr, DecidableEq

namespace UsingTokens

/-- What stands between the keyword and the semicolon. -/
def operand (d : UsingTokens) : List Token := d.modifier.toList ++ d.imported

/-- The tokens up to the semicolon. -/
def front (d : UsingTokens) : List Token := d.scope.toList ++ d.keyword :: d.operand

/-- All tokens. -/
def all (d : UsingTokens) : List Token := d.front ++ [d.semicolon]

/-- The tokens without `global`. -/
def unscoped (d : UsingTokens) : List Token := d.keyword :: d.operand ++ [d.semicolon]

theorem front_of_none {d : UsingTokens} (h : d.scope = none) : d.front = d.keyword :: d.operand := by
  rw [front, h, Option.toList_none, List.nil_append]

theorem front_of_some {d : UsingTokens} {t : Token} (h : d.scope = some t) :
    d.front = t :: d.keyword :: d.operand := by
  rw [front, h, Option.toList_some, List.singleton_append]

/-- The words and the semicolon are those of a directive. -/
structure IsProper (d : UsingTokens) : Prop where
  scope : ∀ t ∈ d.scope, t.isWord "global" = true
  keyword : d.keyword.isWord "using" = true
  modifier : ∀ t ∈ d.modifier, t.isWord "static" = true
  imported : ∃ t ts, d.imported = t :: ts ∧ t.kind = .word ∧ t.text ≠ "static"
  semicolon : d.semicolon.isMark ";" = true

end UsingTokens

/-- Only white space stands between the tokens of a directive. -/
def UsingTokens.IsSpaced (d : UsingTokens) : Prop := ∀ t ∈ d.all.tail, t.IsPart ∧ t.IsSpaced

instance (d : UsingTokens) : Decidable d.IsSpaced :=
  inferInstanceAs (Decidable (∀ t ∈ d.all.tail, t.IsPart ∧ t.IsSpaced))

/-- The tokens of a directive stand in a text one after the other, with white space between them. -/
structure UsingTokens.LaidOut (d : UsingTokens) (body after : List Char) : Prop where
  row : Row body d.front (leadChars d.semicolon.lead ++ ';' :: after)
  gap : (leadChars d.semicolon.lead).all isSpace = true

/-- A using directive of a syntax tree has the given tokens. -/
structure UsingTokens.Spell (d : UsingTokens) (node : UsingNode) : Prop where
  proper : d.IsProper
  text : node.text = Token.verbatim d.all
  isGlobal : node.isGlobal = d.scope.isSome
  isStatic : node.isStatic = d.modifier.isSome

/-- Directives stand among tokens one after the other. -/
inductive StandIn : List UsingTokens → List Token → Prop
  | nil (ts : List Token) : StandIn [] ts
  | cons {d : UsingTokens} {ds : List UsingTokens} (front : List Token) {rest : List Token}
      (hds : StandIn ds rest) : StandIn (d :: ds) (front ++ (d.all ++ rest))

/-- What stands in an end part of the tokens stands in all of them. -/
theorem StandIn.mono {ds : List UsingTokens} {ts rest : List Token} (h : StandIn ds rest)
    (hrest : rest <:+ ts) : StandIn ds ts := by
  obtain ⟨front, rfl⟩ := hrest
  cases h with
  | nil => exact .nil _
  | cons front' hds =>
      rw [← List.append_assoc]
      exact .cons (front ++ front') hds

/-- Each of the directives stands at the front of an end part of the tokens. -/
theorem StandIn.exists_suffix {ds : List UsingTokens} {ts : List Token} (h : StandIn ds ts)
    {d : UsingTokens} (hd : d ∈ ds) : ∃ rest, d.all ++ rest <:+ ts := by
  induction h with
  | nil ts => simp at hd
  | @cons e ds front rest hds ih =>
      rcases List.mem_cons.1 hd with rfl | hd
      · exact ⟨rest, List.suffix_append _ _⟩
      · obtain ⟨more, hmore⟩ := ih hd
        exact ⟨more, hmore.trans ((List.suffix_append _ _).trans (List.suffix_append _ _))⟩

/-- The using directives among nodes. -/
def usingNodes (nodes : List Node) : List UsingNode :=
  nodes.filterMap fun
    | .usingDirective node => some node
    | _ => none

/-! ## One directive -/

/-- A single token is taken if it is accepted. -/
theorem token_eq_some {accepts : Token → Bool} {ts rest : List Token} :
    token accepts ts = some rest ↔ ∃ t, ts = t :: rest ∧ accepts t = true := by
  cases ts with
  | nil => simp [token]
  | cons t ts =>
      show (if accepts t = true then some ts else none) = some rest ↔ _
      rw [Option.ite_none_right_eq_some, Option.some_inj]
      constructor
      · rintro ⟨ht, rfl⟩
        exact ⟨t, rfl, ht⟩
      · rintro ⟨u, heq, hu⟩
        obtain ⟨rfl, rfl⟩ := List.cons.inj heq
        exact ⟨hu, rfl⟩

/-- An optional word is there as a token, or the tokens stay as they are. -/
theorem exists_of_getD_word (text : String) (ts : List Token) : ∃ t : Option Token,
    ts = t.toList ++ (word text ts).getD ts ∧ ∀ u ∈ t, u.isWord text = true := by
  cases hword : word text ts with
  | none => exact ⟨none, rfl, by simp⟩
  | some rest =>
      obtain ⟨t, rfl, ht⟩ := token_eq_some.1 hword
      exact ⟨some t, rfl, by simpa using ht⟩

/-- A word that may be there is what is passed over. -/
theorem getD_word {text : String} {t : Option Token} (ht : ∀ u ∈ t, u.isWord text = true) {u : Token}
    (hu : u.text ≠ text) (rest : List Token) :
    (word text (t.toList ++ u :: rest)).getD (t.toList ++ u :: rest) = u :: rest := by
  cases t with
  | none =>
      have hnone : word text (u :: rest) = none := by
        refine if_neg ?_
        rw [isWord_eq_true]
        exact fun h => hu h.2
      rw [Option.toList_none, List.nil_append, hnone, Option.getD_none]
  | some v =>
      have hsome : word text (v :: u :: rest) = some (u :: rest) := if_pos (ht v rfl)
      rw [Option.toList_some, List.singleton_append, hsome, Option.getD_some]

theorem length_lt_toList_append (t : Option Token) (ts : List Token) :
    decide (ts.length < (t.toList ++ ts).length) = t.isSome := by
  cases t <;> simp

/-- Two sequences one after the other are one. -/
theorem sequence_append (ps qs : List Recogniser) (ts : List Token) :
    sequence (ps ++ qs) ts = (sequence ps ts).bind (sequence qs) := by
  induction ps generalizing ts with
  | nil => rfl
  | cons p ps ih =>
      rw [List.cons_append, sequence_cons, sequence_cons]
      cases p ts with
      | none => rfl
      | some rest => exact ih rest

/-- A phrase that begins with a name. -/
def BeginsWithName (p : Recogniser) : Prop :=
  ∀ {ts rest}, p ts = some rest →
    ∃ t more, ts = t :: more ∧ t.kind = .word ∧ t.text ≠ "static" ∧ rest <:+ more

theorem beginsWithName_name : BeginsWithName name := by
  intro ts rest h
  obtain ⟨t, rfl, ht⟩ := token_eq_some.1 h
  simp only [Bool.and_eq_true, beq_iff_eq, Bool.not_eq_true'] at ht
  refine ⟨t, rest, rfl, ht.1, ?_, List.suffix_rfl⟩
  intro htext
  rw [htext] at ht
  exact absurd ht.2 (by decide)

/-- A sequence begins with a name if its first phrase does. -/
theorem BeginsWithName.sequence_cons {p : Recogniser} (hp : BeginsWithName p)
    (ps : List Recogniser) [AllLeaveSuffix ps] : BeginsWithName (sequence (p :: ps)) := by
  intro ts rest h
  rw [Recogniser.sequence_cons] at h
  obtain ⟨after, hafter, hrest⟩ := Option.bind_eq_some_iff.1 h
  obtain ⟨t, more, rfl, hkind, htext, hsuffix⟩ := hp hafter
  exact ⟨t, more, rfl, hkind, htext, (suffix_of_sequence AllLeaveSuffix.each hrest).trans hsuffix⟩

variable (l : Phrases) [l.LeaveSuffix]

/-- A qualified name begins with a name. -/
theorem beginsWithName_qualifiedName : BeginsWithName (qualifiedName l) := by
  have hsimple : BeginsWithName (simpleName l) := beginsWithName_name.sequence_cons [_]
  intro ts rest h
  have h : sequence [maybe (sequence [name, mark "::"]), simpleName l,
      repeated (sequence [mark ".", simpleName l])] ts = some rest := h
  rw [sequence_cons, maybe_eq, Option.bind_some] at h
  cases halias : sequence [name, mark "::"] ts with
  | none =>
      rw [halias] at h
      exact hsimple.sequence_cons [_] h
  | some after =>
      rw [halias] at h
      obtain ⟨t, more, rfl, hkind, htext, hsuffix⟩ := beginsWithName_name.sequence_cons [_] halias
      have hrest : rest <:+ after := suffix_of_sequence AllLeaveSuffix.each h
      exact ⟨t, more, rfl, hkind, htext, hrest.trans hsuffix⟩

omit [l.LeaveSuffix] in
/-- What is imported begins with a name, perhaps with the word `unsafe` before it, and goes up to a
semicolon. -/
theorem exists_imported {p : Recogniser} (hp : BeginsWithName p) (ps : List Recogniser)
    [hps : AllLeaveSuffix ps] {ts rest : List Token}
    (h : sequence (maybe (word "unsafe") :: p :: (ps ++ [mark ";"])) ts = some rest) :
    ∃ t inside semicolon, ts = t :: inside ++ semicolon :: rest ∧ t.kind = .word ∧
      t.text ≠ "static" ∧ semicolon.isMark ";" = true := by
  obtain ⟨modifier, hmodifier, hmarked⟩ := exists_of_getD_word "unsafe" ts
  rw [sequence_cons, maybe_eq, Option.bind_some, sequence_cons] at h
  obtain ⟨named, hnamed, h⟩ := Option.bind_eq_some_iff.1 h
  rw [sequence_append] at h
  obtain ⟨last, hlast, h⟩ := Option.bind_eq_some_iff.1 h
  rw [sequence_cons] at h
  obtain ⟨after, hafter, h⟩ := Option.bind_eq_some_iff.1 h
  obtain rfl : after = rest := Option.some.inj h
  obtain ⟨semicolon, rfl, hsemicolon⟩ := token_eq_some.1 hafter
  have hend : semicolon :: after <:+ named := suffix_of_sequence hps.each hlast
  obtain ⟨t, more, hstart, hkind, htext, hsuffix⟩ := hp hnamed
  rw [hstart] at hmodifier
  cases modifier with
  | none =>
      obtain ⟨inside, rfl⟩ := hend.trans hsuffix
      exact ⟨t, inside, semicolon, hmodifier, hkind, htext, hsemicolon⟩
  | some u =>
      obtain ⟨inside, rfl⟩ := hend.trans hsuffix
      have hu := isWord_eq_true.1 (hmarked u rfl)
      refine ⟨u, t :: inside, semicolon, hmodifier, hu.1, ?_, hsemicolon⟩
      rw [hu.2]
      decide

variable {l}

/-- A directive that is read is spelled by the tokens that are taken. -/
theorem exists_tokens_of_readUsing {ts rest : List Token} {node : Node}
    (h : readUsing l ts = some (node, rest)) :
    ∃ (d : UsingTokens) (text : UsingNode),
      node = .usingDirective text ∧ ts = d.all ++ rest ∧ d.Spell text := by
  obtain ⟨scope, hscope, hglobal⟩ := exists_of_getD_word "global" ts
  obtain ⟨start, hstart, h⟩ := Option.bind_eq_some_iff.1 h
  obtain ⟨after, hafter, h⟩ := Option.bind_eq_some_iff.1 h
  obtain ⟨rfl, rfl⟩ := Prod.mk.inj (Option.some.inj h)
  obtain ⟨keyword, hkeyword, husing⟩ := token_eq_some.1 hstart
  rw [hkeyword] at hscope
  obtain ⟨modifier, t, inside, semicolon, hstarts, hmodifier, hkind, htext, hsemicolon⟩ :
      ∃ (modifier : Option Token) (t : Token) (inside : List Token) (semicolon : Token),
        start = modifier.toList ++ (t :: inside ++ semicolon :: after) ∧
          (∀ u ∈ modifier, u.isWord "static" = true) ∧ t.kind = .word ∧ t.text ≠ "static" ∧
            semicolon.isMark ";" = true := by
    rw [choice_cons] at hafter
    rcases Option.or_eq_some_iff.1 hafter with hafter | ⟨-, hafter⟩
    · obtain ⟨t, inside, semicolon, hall, hrest⟩ :=
        exists_imported beginsWithName_name [mark "=", type l] hafter
      exact ⟨none, t, inside, semicolon, hall, by simp, hrest⟩
    · obtain ⟨modifier, hmodifier, hstatic⟩ := exists_of_getD_word "static" start
      rw [choice_cons, choice_nil, Option.or_none, sequence_cons, maybe_eq, Option.bind_some] at hafter
      obtain ⟨t, inside, semicolon, hall, hrest⟩ :=
        exists_imported (beginsWithName_qualifiedName l) [] hafter
      rw [hall] at hmodifier
      exact ⟨modifier, t, inside, semicolon, hmodifier, hstatic, hrest⟩
  have hall : ts = UsingTokens.all ⟨scope, keyword, modifier, t :: inside, semicolon⟩ ++ after := by
    rw [hscope, hstarts]
    simp [UsingTokens.all, UsingTokens.front, UsingTokens.operand]
  refine ⟨_, _, rfl, hall, ⟨hglobal, husing, hmodifier, ⟨t, inside, rfl, hkind, htext⟩, hsemicolon⟩,
    ?_, ?_, ?_⟩
  · show Token.verbatim (Token.before ts after) = _
    rw [hall]
    simp [Token.before]
  · have hne : keyword.text ≠ "global" := by
      rw [(isWord_eq_true.1 husing).2]
      decide
    show decide (((word "global" ts).getD ts).length < ts.length) = scope.isSome
    rw [hscope, getD_word hglobal hne, length_lt_toList_append]
  · show decide (((word "static" start).getD start).length < start.length) = modifier.isSome
    rw [hstarts, List.cons_append, getD_word hmodifier htext, length_lt_toList_append]

/-! ## A directive in a text -/

open UsingTokens in
/-- A directive begins with a word. -/
theorem UsingTokens.IsProper.exists_front {d : UsingTokens} (h : d.IsProper) :
    ∃ t ts, d.front = t :: ts ∧ t.kind = .word := by
  cases hscope : d.scope with
  | none => exact ⟨d.keyword, _, front_of_none hscope, (isWord_eq_true.1 h.keyword).1⟩
  | some t => exact ⟨t, _, front_of_some hscope, (isWord_eq_true.1 (h.scope t hscope)).1⟩

open UsingTokens in
/-- A directive among the tokens of a text stands in the text. -/
theorem UsingTokens.exists_laidOut {d : UsingTokens} (hproper : d.IsProper) (hspaced : d.IsSpaced)
    {fuel : Nat} {lead : List Trivia} {cs : List Char} {all rest : List Token}
    (h : tokensFrom? fuel lead cs = some all) (hall : d.all ++ rest <:+ all) :
    ∃ body after, d.LaidOut body after := by
  obtain ⟨t, ts, hfront, hkind⟩ := hproper.exists_front
  have htail : d.all.tail = ts ++ [d.semicolon] := by rw [UsingTokens.all, hfront]; rfl
  have hparts : ∀ u ∈ ts ++ [d.semicolon], u.IsPart ∧ u.IsSpaced := htail ▸ hspaced
  obtain ⟨hpart, hlead⟩ := hparts d.semicolon (by simp)
  have hstart : d.all ++ rest = t :: ts ++ (d.semicolon :: rest) := by
    rw [UsingTokens.all, hfront]
    simp
  rw [hstart] at hall
  obtain ⟨fuel', lead', cs', hcs'⟩ := exists_of_suffix h hall (by simp)
  obtain ⟨body, left, fuel'', hrow, hleft, -⟩ :=
    exists_row hcs' ⟨by simp [hkind], by simp [hkind]⟩
      fun u hu => hparts u (List.mem_append_left _ hu)
  obtain ⟨last, after, -, hstands, -, -, hgap⟩ := exists_standsAt hleft hpart
  obtain ⟨gap, hspace, hcs, hchars⟩ := hgap hlead
  obtain rfl : leadChars d.semicolon.lead = gap := hchars
  have htext := hstands.text
  rw [(isMark_eq_true.1 hproper.semicolon).2] at htext
  refine ⟨body, after, ?_, hspace⟩
  rw [hfront]
  rwa [hcs, ← htext] at hrow

/-! ## The top level -/

/-- The using directives among nodes have their tokens among the given ones. -/
def ReadFrom (nodes : List Node) (ts : List Token) : Prop :=
  ∃ ds, List.Forall₂ UsingTokens.Spell ds (usingNodes nodes) ∧ StandIn ds ts

omit [l.LeaveSuffix] in
/-- No type is a using directive. -/
theorem usingNodes_readType {inner : Reader (List Node)} {ts rest : List Token} {node : Node}
    (h : readType l inner ts = some (node, rest)) : usingNodes [node] = [] := by
  have hkeyword : ∀ {kind : TypeKind} {start : List Token},
      readTypeAfterKeyword l inner kind start = some (node, rest) → usingNodes [node] = [] := by
    intro kind start hread
    obtain ⟨named, -, hread⟩ := Option.bind_eq_some_iff.1 hread
    obtain ⟨⟨members, close⟩, -, hread⟩ := Option.bind_eq_some_iff.1 hread
    obtain ⟨rfl, -⟩ := Prod.mk.inj (Option.some.inj hread)
    rfl
  unfold readType at h
  simp only at h
  split at h
  · obtain ⟨⟨name, named⟩, -, h⟩ := Option.bind_eq_some_iff.1 h
    obtain ⟨⟨members, close⟩, -, h⟩ := Option.bind_eq_some_iff.1 h
    obtain ⟨rfl, -⟩ := Prod.mk.inj (Option.some.inj h)
    rfl
  split at h
  · exact hkeyword h
  split at h
  · exact hkeyword h
  split at h
  · obtain ⟨named, -, h⟩ := Option.bind_eq_some_iff.1 h
    obtain ⟨after, -, h⟩ := Option.bind_eq_some_iff.1 h
    obtain ⟨rfl, -⟩ := Prod.mk.inj (Option.some.inj h)
    rfl
  split at h
  · obtain ⟨after, -, h⟩ := Option.bind_eq_some_iff.1 h
    obtain ⟨rfl, -⟩ := Prod.mk.inj (Option.some.inj h)
    rfl
  split at h
  · exact hkeyword h
  · simp at h

omit [l.LeaveSuffix] in
/-- An item at the top of a source is read as a using directive or is none. -/
theorem readTopLevelItem_cases {inner : Reader (List Node)} {ts rest : List Token} {node : Node}
    (h : readTopLevelItem l inner ts = some (node, rest)) :
    usingNodes [node] = [] ∨ readUsing l ts = some (node, rest) := by
  unfold readTopLevelItem at h
  split at h
  · obtain ⟨rfl, -⟩ := Prod.mk.inj (Option.some.inj h)
    exact .inl rfl
  split at h
  · next result hresult =>
    exact .inr (hresult.trans h)
  split at h
  · obtain ⟨rfl, -⟩ := Prod.mk.inj (Option.some.inj h)
    exact .inl rfl
  split at h
  · obtain ⟨rfl, -⟩ := Prod.mk.inj (Option.some.inj h)
    exact .inl rfl
  split at h
  · next result hresult =>
    obtain rfl : result = (node, rest) := Option.some.inj h
    obtain ⟨start, -, hresult⟩ := Option.bind_eq_some_iff.1 hresult
    obtain ⟨⟨name, named⟩, -, hresult⟩ := Option.bind_eq_some_iff.1 hresult
    obtain ⟨⟨members, close⟩, -, hresult⟩ := Option.bind_eq_some_iff.1 hresult
    obtain ⟨rfl, -⟩ := Prod.mk.inj (Option.some.inj hresult)
    exact .inl rfl
  simp only at h
  split at h
  · next result hresult =>
    obtain rfl : result = (node, rest) := Option.some.inj h
    exact .inl (usingNodes_readType hresult)
  · obtain ⟨after, -, heq⟩ := Option.map_eq_some_iff.1 h
    obtain ⟨rfl, -⟩ := Prod.mk.inj heq
    exact .inl rfl

theorem usingNodes_append (nodes more : List Node) :
    usingNodes (nodes ++ more) = usingNodes nodes ++ usingNodes more :=
  List.filterMap_append

theorem usingNodes_directives (kinds : List DirectiveKind) :
    usingNodes (kinds.map Node.directive) = [] := by
  induction kinds with
  | nil => rfl
  | cons kind kinds ih => exact ih

/-- What stands in a branch is no directive of the source. -/
theorem usingNodes_readBranch {item : Reader Node} {kind : BranchKind} {fuel : Nat}
    {ts rest : List Token} {node : Node} (h : readBranch item kind fuel ts = some (node, rest)) :
    usingNodes [node] = [] := by
  cases fuel with
  | zero => simp [readBranch] at h
  | succ fuel =>
      unfold readBranch at h
      split at h
      · simp at h
      split at h
      · simp at h
      split at h
      · simp at h
      split at h
      · obtain ⟨rfl, -⟩ := Prod.mk.inj (Option.some.inj h)
        rfl
      split at h
      · simp at h
      · simp only at h
        split at h
        · simp at h
        · obtain ⟨rfl, -⟩ := Prod.mk.inj (Option.some.inj h)
          rfl

/-- The directives among the items of a source are those that stand in its tokens, in order. -/
theorem readFrom_readItems {inner : Reader (List Node)} (hinner : ReadsNodes inner) {fuel : Nat}
    {ts rest : List Token} {nodes : List Node}
    (h : readItems (readTopLevelItem l inner) fuel ts = some (nodes, rest)) : ReadFrom nodes ts := by
  induction fuel generalizing ts nodes rest with
  | zero => simp [readItems] at h
  | succ fuel ih =>
      cases ts with
      | nil => simp [readItems] at h
      | cons t ts =>
          unfold readItems at h
          simp only at h
          split at h
          · obtain ⟨rfl, -⟩ := Prod.mk.inj (Option.some.inj h)
            exact ⟨[], by rw [usingNodes_directives]; exact .nil, .nil _⟩
          split at h
          · simp at h
          · next node after hone =>
            split at h
            · simp at h
            · next more last hmore =>
              obtain ⟨rfl, -⟩ := Prod.mk.inj (Option.some.inj h)
              obtain ⟨ds, hds, hstand⟩ := ih hmore
              have hnodes : usingNodes (t.directives.map Node.directive ++ node :: more) =
                  usingNodes [node] ++ usingNodes more := by
                rw [usingNodes_append, usingNodes_directives, List.nil_append, ← usingNodes_append]
                rfl
              have hitem := readsNode_readTopLevelItem l hinner
              -- another node leaves an end part of the tokens, among which the directives stand
              have hother : usingNodes [node] = [] → after <:+ t :: ts →
                  ReadFrom (t.directives.map Node.directive ++ node :: more) (t :: ts) := by
                intro hnode hafter
                refine ⟨ds, ?_, hstand.mono hafter⟩
                rwa [hnodes, hnode, List.nil_append]
              split at hone
              · have hbranch := (readsNodes_readItems hitem fuel).2 .ifBranch ts node after hone
                exact hother (usingNodes_readBranch hone) (hbranch.1.trans (List.suffix_cons t ts))
              · rcases readTopLevelItem_cases hone with hnode | hread
                · exact hother hnode (hitem (t :: ts) node after hone).1
                · obtain ⟨d, text, rfl, hall, hspell⟩ := exists_tokens_of_readUsing hread
                  refine ⟨d :: ds, ?_, ?_⟩
                  · rw [hnodes]
                    exact .cons hspell hds
                  · rw [hall]
                    exact .cons [] hstand

omit l [l.LeaveSuffix] in
/-- The using directives at the top level of a syntax tree, in their order, stand in the source. -/
theorem readFrom_treeOfTokens? {ts : List Token} {nodes : List Node}
    (h : treeOfTokens? ts = some nodes) : ReadFrom nodes ts := by
  unfold treeOfTokens? at h
  simp only at h
  split at h
  · next items t hitems =>
    split at h
    · obtain rfl : items = nodes := Option.some.inj h
      exact readFrom_readItems (readsNodes_readMembers (Phrases.ofDepth ts.length) ts.length) hitems
    · simp at h
  · simp at h

end PlatformClasses.Source
