import PlatformClasses.Declaration.Reading
import PlatformClasses.Proofs.Source.Remainder

/-!
# The names of interfaces are words of the source

Readers, like recognisers, leave an end part of the tokens.  So whatever is read anywhere in a source is
read from tokens of this source, and the name of each interface in a syntax tree is the text of one of its
words.  Words are made of letters, digits, underscores and escapes.
-/

namespace PlatformClasses.Source

open Recogniser Phrase

namespace Reader

/-- A reader leaves an end part of the tokens. -/
class ReadsFront {α : Type} (p : Reader α) : Prop where
  suffix : ∀ {ts a rest}, p ts = some (a, rest) → rest <:+ ts

/-! ## Readers -/

section

variable {α : Type}

instance (p : Recogniser) [LeavesSuffix p] : ReadsFront (textOf p) where
  suffix {ts a rest} h := by
    obtain ⟨after, hafter, heq⟩ := Option.map_eq_some_iff.1 h
    obtain rfl : after = rest := (Prod.mk.inj heq).2
    exact LeavesSuffix.suffix hafter

instance (p : Reader α) [ReadsFront p] : LeavesSuffix fun ts => (p ts).map (·.2) where
  suffix {ts rest} h := by
    obtain ⟨⟨a, after⟩, hafter, rfl⟩ := Option.map_eq_some_iff.1 h
    exact ReadsFront.suffix hafter

theorem suffix_manyAtMost (p : Reader α) [ReadsFront p] (fuel : Nat) (ts : List Token) :
    (manyAtMost p fuel ts).2 <:+ ts := by
  induction fuel generalizing ts with
  | zero => exact List.suffix_rfl
  | succ fuel ih =>
      unfold manyAtMost
      split
      · next a rest hrest =>
        split
        · exact (ih rest).trans (ReadsFront.suffix hrest)
        · exact List.suffix_rfl
      · exact List.suffix_rfl

/-- A reader that is repeated leaves an end part of the tokens. -/
theorem suffix_many (p : Reader α) [ReadsFront p] (ts : List Token) : (many p ts).2 <:+ ts :=
  suffix_manyAtMost p ts.length ts

instance (q : Recogniser) (p : Reader α) [LeavesSuffix q] [ReadsFront p] :
    ReadsFront fun ts => (do p (← q ts)) where
  suffix {ts a rest} h := by
    obtain ⟨after, hafter, h⟩ := Option.bind_eq_some_iff.1 h
    exact (ReadsFront.suffix h).trans (LeavesSuffix.suffix hafter)

instance (p : Reader α) [ReadsFront p] : ReadsFront (commaSeparated p) where
  suffix {ts a rest} h := by
    obtain ⟨⟨first, afterFirst⟩, hfirst, h⟩ := Option.bind_eq_some_iff.1 h
    obtain rfl : _ = rest := (Prod.mk.inj (Option.some.inj h)).2
    exact (suffix_many _ afterFirst).trans (ReadsFront.suffix hfirst)

end

end Reader

open Reader

variable (l : Phrases) [l.LeaveSuffix]

/-! ## Parts of declarations -/

instance : ReadsFront (readAttribute l) where
  suffix {ts a rest} h := by
    obtain ⟨⟨name, afterName⟩, hname, h⟩ := Option.bind_eq_some_iff.1 h
    have hfront : afterName <:+ ts := ReadsFront.suffix hname
    simp only at h
    split at h
    · next arguments after hafter =>
      obtain rfl : after = rest := (Prod.mk.inj (Option.some.inj h)).2
      exact (ReadsFront.suffix hafter).trans hfront
    · obtain rfl : afterName = rest := (Prod.mk.inj (Option.some.inj h)).2
      exact hfront

instance : ReadsFront (readAttributeList l) where
  suffix {ts a rest} h := by
    obtain ⟨open_, hopen, h⟩ := Option.bind_eq_some_iff.1 h
    obtain ⟨⟨attributes, inside⟩, hinside, h⟩ := Option.bind_eq_some_iff.1 h
    obtain ⟨close, hclose, h⟩ := Option.bind_eq_some_iff.1 h
    obtain rfl : close = rest := (Prod.mk.inj (Option.some.inj h)).2
    exact (LeavesSuffix.suffix hclose).trans
      ((ReadsFront.suffix hinside).trans (LeavesSuffix.suffix hopen))

/-- An optional phrase leaves an end part of the tokens. -/
theorem suffix_getD {p : Recogniser} [LeavesSuffix p] (ts : List Token) :
    (p ts).getD ts <:+ ts := by
  cases hp : p ts with
  | none => exact List.suffix_rfl
  | some rest => exact LeavesSuffix.suffix hp

/-- What stands in front of a declaration is taken from the front. -/
theorem suffix_readHead (ts : List Token) : (readHead l ts).2 <:+ ts :=
  (suffix_getD _).trans (suffix_many (readAttributeList l) ts)

instance : ReadsFront (readParameter l) where
  suffix {ts a rest} h := by
    obtain ⟨start, hstart, h⟩ := Option.bind_eq_some_iff.1 h
    have hfront : start <:+ ts := LeavesSuffix.suffix hstart
    split at h
    · next after hafter =>
      obtain rfl : after = rest := (Prod.mk.inj (Option.some.inj h)).2
      exact (LeavesSuffix.suffix hafter).trans hfront
    · simp only at h
      split at h
      · next result hresult =>
        obtain rfl : result = (a, rest) := Option.some.inj h
        obtain ⟨modified, hmodified, hresult⟩ := Option.bind_eq_some_iff.1 hresult
        obtain ⟨⟨typeText, typed⟩, htyped, hresult⟩ := Option.bind_eq_some_iff.1 hresult
        obtain ⟨⟨name, named⟩, hnamed, hresult⟩ := Option.bind_eq_some_iff.1 hresult
        obtain ⟨after, hafter, hresult⟩ := Option.bind_eq_some_iff.1 hresult
        obtain rfl : after = rest := (Prod.mk.inj (Option.some.inj hresult)).2
        have hvalue : after <:+ named := LeavesSuffix.suffix hafter
        have hname : named <:+ typed := ReadsFront.suffix hnamed
        have htype : typed <:+ modified := ReadsFront.suffix htyped
        exact hvalue.trans (hname.trans (htype.trans
          ((LeavesSuffix.suffix hmodified).trans hfront)))
      · obtain ⟨⟨name, named⟩, hnamed, h⟩ := Option.bind_eq_some_iff.1 h
        obtain ⟨after, hafter, h⟩ := Option.bind_eq_some_iff.1 h
        obtain rfl : after = rest := (Prod.mk.inj (Option.some.inj h)).2
        have hvalue : after <:+ named := LeavesSuffix.suffix hafter
        exact hvalue.trans ((ReadsFront.suffix hnamed).trans hfront)

instance : ReadsFront (readParameters l) where
  suffix {ts a rest} h := by
    obtain ⟨start, hstart, h⟩ := Option.bind_eq_some_iff.1 h
    have hfront : start <:+ ts := LeavesSuffix.suffix hstart
    split at h
    · next after hafter =>
      obtain rfl : after = rest := (Prod.mk.inj (Option.some.inj h)).2
      exact (LeavesSuffix.suffix hafter).trans hfront
    · obtain ⟨⟨parameters, inside⟩, hinside, h⟩ := Option.bind_eq_some_iff.1 h
      obtain ⟨close, hclose, h⟩ := Option.bind_eq_some_iff.1 h
      obtain rfl : close = rest := (Prod.mk.inj (Option.some.inj h)).2
      exact (LeavesSuffix.suffix hclose).trans ((ReadsFront.suffix hinside).trans hfront)

instance : ReadsFront (readAccessor l) where
  suffix {ts a rest} h := by
    obtain ⟨⟨name, named⟩, hnamed, h⟩ := Option.bind_eq_some_iff.1 h
    obtain ⟨after, hafter, h⟩ := Option.bind_eq_some_iff.1 h
    obtain rfl : after = rest := (Prod.mk.inj (Option.some.inj h)).2
    have hbody : after <:+ named := LeavesSuffix.suffix hafter
    exact hbody.trans ((ReadsFront.suffix hnamed).trans (suffix_readHead l ts))

instance : ReadsFront (readAccessors l) where
  suffix {ts a rest} h := by
    obtain ⟨start, hstart, h⟩ := Option.bind_eq_some_iff.1 h
    obtain ⟨close, hclose, h⟩ := Option.bind_eq_some_iff.1 h
    obtain rfl : close = rest := (Prod.mk.inj (Option.some.inj h)).2
    have hinside : (many (readAccessor l) start).2 <:+ start := suffix_many _ start
    exact (LeavesSuffix.suffix hclose).trans (hinside.trans (LeavesSuffix.suffix hstart))

instance (fuel : Nat) : ReadsFront (readPathEnd l fuel) where
  suffix {ts a rest} h := by
    induction fuel generalizing ts with
    | zero => simp [readPathEnd] at h
    | succ fuel ih =>
        cases ts with
        | nil => simp [readPathEnd] at h
        | cons t ts =>
            unfold readPathEnd at h
            split at h
            · split at h
              · next after hafter =>
                have hfront : after <:+ ts := LeavesSuffix.suffix hafter
                exact (ih h).trans (hfront.trans (List.suffix_cons t ts))
              · obtain rfl : ts = rest := (Prod.mk.inj (Option.some.inj h)).2
                exact List.suffix_cons t ts
            · simp at h

instance : ReadsFront (readBaseList l) where
  suffix {ts a rest} h := by
    obtain ⟨start, hstart, h⟩ := Option.bind_eq_some_iff.1 h
    have : ReadsFront fun ts => (do
        let (base, rest) ← textOf (type l) ts
        return (base, ← maybe (arguments l) rest) : Option (String × List Token)) :=
      ⟨fun h => by
        obtain ⟨⟨base, based⟩, hbased, h⟩ := Option.bind_eq_some_iff.1 h
        obtain ⟨after, hafter, h⟩ := Option.bind_eq_some_iff.1 h
        obtain rfl : after = _ := (Prod.mk.inj (Option.some.inj h)).2
        exact (LeavesSuffix.suffix hafter).trans (ReadsFront.suffix hbased)⟩
    exact (ReadsFront.suffix h).trans (LeavesSuffix.suffix hstart)

/-- What may stand between the name of a type and its body is taken from the front. -/
theorem suffix_readTypeHead (takesParameters : Bool) (ts : List Token) :
    (readTypeHead l takesParameters ts).2 <:+ ts := by
  unfold readTypeHead
  simp only
  refine (suffix_getD _).trans ?_
  refine @suffix_many _ _ ?_ ts
  constructor
  intro ts a rest h
  split at h
  · next after hafter =>
    obtain rfl : after = rest := (Prod.mk.inj (Option.some.inj h)).2
    exact LeavesSuffix.suffix hafter
  · split at h
    · next result hresult =>
      obtain rfl : result = (a, rest) := Option.some.inj h
      exact ReadsFront.suffix hresult
    · split at h
      · obtain ⟨after, hafter, heq⟩ := Option.map_eq_some_iff.1 h
        obtain rfl : after = rest := (Prod.mk.inj heq).2
        exact LeavesSuffix.suffix hafter
      · simp at h

/-! ## Members without interfaces -/

instance : LeavesSuffix bodyEnd := by unfold bodyEnd; infer_instance

instance : ReadsFront (readEnum l) where
  suffix {ts a rest} h := by
    obtain ⟨named, hnamed, h⟩ := Option.bind_eq_some_iff.1 h
    obtain ⟨after, hafter, h⟩ := Option.bind_eq_some_iff.1 h
    obtain rfl : after = rest := (Prod.mk.inj (Option.some.inj h)).2
    have hbody : after <:+ (readTypeHead l false named).2 := LeavesSuffix.suffix hafter
    exact hbody.trans ((suffix_readTypeHead l false named).trans (LeavesSuffix.suffix hnamed))

instance : ReadsFront (readDelegate l) where
  suffix {ts a rest} h := by
    obtain ⟨after, hafter, h⟩ := Option.bind_eq_some_iff.1 h
    obtain rfl : after = rest := (Prod.mk.inj (Option.some.inj h)).2
    exact LeavesSuffix.suffix hafter

instance : ReadsFront (readUsing l) where
  suffix {ts a rest} h := by
    obtain ⟨start, hstart, h⟩ := Option.bind_eq_some_iff.1 h
    obtain ⟨after, hafter, h⟩ := Option.bind_eq_some_iff.1 h
    obtain rfl : after = rest := (Prod.mk.inj (Option.some.inj h)).2
    have hend : after <:+ start := LeavesSuffix.suffix hafter
    exact hend.trans ((LeavesSuffix.suffix hstart).trans (suffix_getD ts))

instance (attributes : List Attribute) (typeText name : String) :
    ReadsFront (readPropertyEnd l attributes typeText name) where
  suffix {ts a rest} h := by
    unfold readPropertyEnd at h
    split at h
    · next after hafter =>
      obtain rfl : after = rest := (Prod.mk.inj (Option.some.inj h)).2
      exact LeavesSuffix.suffix hafter
    · obtain ⟨⟨accessors, close⟩, hclose, h⟩ := Option.bind_eq_some_iff.1 h
      obtain rfl : _ = rest := (Prod.mk.inj (Option.some.inj h)).2
      exact (suffix_getD close).trans (ReadsFront.suffix hclose)

instance (returnType name : String) : ReadsFront (readMethodEnd l returnType name) where
  suffix {ts a rest} h := by
    -- Type parameters may be missing, so this step cannot fail.
    obtain ⟨⟨parameters, close⟩, hclose, h⟩ := Option.bind_eq_some_iff.1 h
    obtain ⟨after, hafter, h⟩ := Option.bind_eq_some_iff.1 h
    obtain rfl : after = rest := (Prod.mk.inj (Option.some.inj h)).2
    have hbody : after <:+ close := LeavesSuffix.suffix hafter
    exact hbody.trans ((ReadsFront.suffix hclose).trans (suffix_getD ts))

instance : LeavesSuffix declaredOperator := by unfold declaredOperator; infer_instance

set_option synthInstance.maxSize 400 in
instance : LeavesSuffix (otherMember l) where
  suffix {ts rest} h := by
    have : LeavesSuffix fun ts => (readPathEnd l ts.length ts).map (·.2) :=
      ⟨fun h => by
        obtain ⟨⟨t, after⟩, hafter, rfl⟩ := Option.map_eq_some_iff.1 h
        exact ReadsFront.suffix hafter⟩
    refine suffix_of_choice ?_ h
    exact AllLeaveSuffix.each

instance (attributes : List Attribute) : ReadsFront (readTypedMember l attributes) where
  suffix {ts a rest} h := by
    obtain ⟨⟨typeText, typed⟩, htyped, h⟩ := Option.bind_eq_some_iff.1 h
    obtain ⟨⟨name, named⟩, hnamed, h⟩ := Option.bind_eq_some_iff.1 h
    have hfront : named <:+ ts := (ReadsFront.suffix hnamed).trans (ReadsFront.suffix htyped)
    simp only at h
    split at h
    · split at h
      · next result hresult =>
        obtain rfl : result = (a, rest) := Option.some.inj h
        exact (ReadsFront.suffix hresult).trans hfront
      · exact (ReadsFront.suffix h).trans hfront
    · simp at h

/-! ## Interfaces -/

/-- A text is one of the words among tokens. -/
def IsWordOf (ts : List Token) (text : String) : Prop := ∃ t ∈ ts, t.kind = .word ∧ t.text = text

/-- A word of an end part is a word of the whole. -/
theorem IsWordOf.mono {ts rest : List Token} {text : String} (h : IsWordOf rest text)
    (hrest : rest <:+ ts) : IsWordOf ts text := by
  obtain ⟨t, ht, hword⟩ := h
  exact ⟨t, hrest.subset ht, hword⟩

/-- The interfaces of several nodes are named by words among tokens. -/
def NamedIn (ts : List Token) (nodes : List Node) : Prop :=
  ∀ around, ∀ i ∈ Declaration.interfacesOfAll around nodes, IsWordOf ts i.name

namespace NamedIn

variable {ts rest : List Token}

theorem nil (ts : List Token) : NamedIn ts [] := fun _ _ h => by
  simp [Declaration.interfacesOfAll] at h

/-- Nodes that are named in an end part are named in the whole. -/
theorem mono {nodes : List Node} (h : NamedIn rest nodes) (hrest : rest <:+ ts) :
    NamedIn ts nodes :=
  fun around i hi => (h around i hi).mono hrest

theorem cons {node : Node} {nodes : List Node} (h : NamedIn ts [node]) (hs : NamedIn ts nodes) :
    NamedIn ts (node :: nodes) := by
  intro around i hi
  rcases List.mem_append.1 hi with hi | hi
  · exact h around i (by simpa [Declaration.interfacesOfAll] using hi)
  · exact hs around i hi

/-- Two lists of nodes are named in the tokens if each of them is. -/
theorem append {nodes more : List Node} (h : NamedIn ts nodes) (hmore : NamedIn ts more) :
    NamedIn ts (nodes ++ more) := by
  induction nodes with
  | nil => exact hmore
  | cons node nodes ih =>
      have hnode : NamedIn ts [node] := fun around i hi =>
        h around i (by
          simp only [Declaration.interfacesOfAll, List.append_nil] at hi
          exact List.mem_append_left _ hi)
      have hnodes : NamedIn ts nodes := fun around i hi =>
        h around i (List.mem_append_right _ hi)
      exact cons hnode (ih hnodes)

/-- A node without interfaces. -/
theorem of_nil {node : Node} (h : ∀ around, Declaration.interfacesOf around node = []) :
    NamedIn ts [node] := by
  intro around i hi
  simp [Declaration.interfacesOfAll, h] at hi

/-- A namespace is named in the tokens if its members are; its own name does not count. -/
theorem namespaceBlock {members : List Node} (name : String) (h : NamedIn ts members) :
    NamedIn ts [.namespaceBlock name members] := by
  intro around i hi
  simp only [Declaration.interfacesOfAll, Declaration.interfacesOf, List.append_nil] at hi
  exact h _ i hi

theorem typeDeclaration {members : List Node} (kind : TypeKind) (h : NamedIn ts members) :
    NamedIn ts [.typeDeclaration kind members] := by
  intro around i hi
  simp only [Declaration.interfacesOfAll, Declaration.interfacesOf, List.append_nil] at hi
  exact h _ i hi

theorem branch {members : List Node} (kind : BranchKind) (h : NamedIn ts members) :
    NamedIn ts [.branch kind members] := by
  intro around i hi
  simp only [Declaration.interfacesOfAll, Declaration.interfacesOf, List.append_nil] at hi
  exact h _ i hi

/-- An interface is named in the tokens if its name is a word there and its members are. -/
theorem interfaceBlock {members : List Node} {name : String} (bases : List String)
    (hname : IsWordOf ts name) (h : NamedIn ts members) :
    NamedIn ts [.interfaceBlock name bases members] := by
  intro around i hi
  simp only [Declaration.interfacesOfAll, Declaration.interfacesOf, List.append_nil,
    List.mem_cons] at hi
  rcases hi with rfl | hi
  · exact hname
  · exact h _ i hi

end NamedIn

/-- The name that is read from one token is the text of this token. -/
theorem isWordOf_declaredName {ts rest : List Token} {name : String}
    (h : textOf declaredName ts = some (name, rest)) : IsWordOf ts name := by
  obtain ⟨after, hafter, heq⟩ := Option.map_eq_some_iff.1 h
  obtain ⟨hname, rfl⟩ := Prod.mk.inj heq
  cases ts with
  | nil => simp [declaredName, token] at hafter
  | cons t ts =>
      unfold declaredName token at hafter
      simp only at hafter
      split at hafter
      · next haccepted =>
        obtain rfl : ts = after := Option.some.inj hafter
        have hkind : t.kind = .word := by
          simp only [Bool.and_eq_true, beq_iff_eq] at haccepted
          exact haccepted.1.1
        refine ⟨t, by simp, hkind, ?_⟩
        rw [← hname]
        simp [Token.before, Token.verbatim, Token.textAfter]
      · simp at hafter

/-! ## Readers of nodes -/

/-- A reader of a node leaves an end part of the tokens, and takes the names of interfaces from the words
among the tokens. -/
def ReadsNode (p : Reader Node) : Prop :=
  ∀ ts node rest, p ts = some (node, rest) → rest <:+ ts ∧ NamedIn ts [node]

/-- A reader of several nodes does the same. -/
def ReadsNodes (p : Reader (List Node)) : Prop :=
  ∀ ts nodes rest, p ts = some (nodes, rest) → rest <:+ ts ∧ NamedIn ts nodes

/-- What is read behind a front part is named in the tokens as well. -/
theorem ReadsNode.after {p : Reader Node} (h : ReadsNode p) {ts start rest : List Token} {node : Node}
    (hstart : start <:+ ts) (hread : p start = some (node, rest)) :
    rest <:+ ts ∧ NamedIn ts [node] := by
  obtain ⟨hfront, hnamed⟩ := h start node rest hread
  exact ⟨hfront.trans hstart, hnamed.mono hstart⟩

theorem ReadsNodes.after {p : Reader (List Node)} (h : ReadsNodes p) {ts start rest : List Token}
    {nodes : List Node} (hstart : start <:+ ts) (hread : p start = some (nodes, rest)) :
    rest <:+ ts ∧ NamedIn ts nodes := by
  obtain ⟨hfront, hnamed⟩ := h start nodes rest hread
  exact ⟨hfront.trans hstart, hnamed.mono hstart⟩

variable {inner : Reader (List Node)}

/-- A body in braces reads nodes if what it holds is read as nodes. -/
theorem readsNodes_readBody (h : ReadsNodes inner) : ReadsNodes (readBody inner) := by
  intro ts nodes rest hread
  obtain ⟨start, hstart, hread⟩ := Option.bind_eq_some_iff.1 hread
  obtain ⟨⟨members, close⟩, hclose, hread⟩ := Option.bind_eq_some_iff.1 hread
  obtain ⟨after, hafter, hread⟩ := Option.bind_eq_some_iff.1 hread
  obtain ⟨rfl, rfl⟩ := Prod.mk.inj (Option.some.inj hread)
  obtain ⟨hfront, hnamed⟩ := h.after (LeavesSuffix.suffix hstart) hclose
  exact ⟨(LeavesSuffix.suffix hafter).trans hfront, hnamed⟩

theorem readsNodes_readBodyOrNone (h : ReadsNodes inner) : ReadsNodes (readBodyOrNone inner) := by
  intro ts nodes rest hread
  unfold readBodyOrNone at hread
  split at hread
  · next after hafter =>
    obtain ⟨rfl, rfl⟩ := Prod.mk.inj (Option.some.inj hread)
    exact ⟨LeavesSuffix.suffix hafter, NamedIn.nil ts⟩
  · exact readsNodes_readBody h ts nodes rest hread

/-- A type behind its keyword reads a node if what it holds is read as nodes. -/
theorem readsNode_readTypeAfterKeyword (h : ReadsNodes inner) (kind : TypeKind) :
    ReadsNode (readTypeAfterKeyword l inner kind) := by
  intro ts node rest hread
  obtain ⟨named, hname, hread⟩ := Option.bind_eq_some_iff.1 hread
  obtain ⟨⟨members, close⟩, hclose, hread⟩ := Option.bind_eq_some_iff.1 hread
  obtain ⟨rfl, rfl⟩ := Prod.mk.inj (Option.some.inj hread)
  have hstart := (suffix_readTypeHead l true named).trans (LeavesSuffix.suffix hname)
  obtain ⟨hfront, hnamed⟩ := (readsNodes_readBodyOrNone h).after hstart hclose
  exact ⟨hfront, hnamed.typeDeclaration kind⟩

/-- The name of an interface is the word behind its keyword. -/
theorem readsNode_readInterface (h : ReadsNodes inner) : ReadsNode (readInterface l inner) := by
  intro ts node rest hread
  obtain ⟨⟨name, named⟩, hname, hread⟩ := Option.bind_eq_some_iff.1 hread
  obtain ⟨⟨members, close⟩, hclose, hread⟩ := Option.bind_eq_some_iff.1 hread
  obtain ⟨rfl, rfl⟩ := Prod.mk.inj (Option.some.inj hread)
  have hstart := (suffix_readTypeHead l false named).trans (ReadsFront.suffix hname)
  obtain ⟨hfront, hnamed⟩ := (readsNodes_readBodyOrNone h).after hstart hclose
  exact ⟨hfront, hnamed.interfaceBlock _ (isWordOf_declaredName hname)⟩

/-- A namespace reads a node if its members are read as nodes. -/
theorem readsNode_readNamespace (h : ReadsNodes inner) : ReadsNode (readNamespace l inner) := by
  intro ts node rest hread
  obtain ⟨start, hstart, hread⟩ := Option.bind_eq_some_iff.1 hread
  obtain ⟨⟨name, named⟩, hname, hread⟩ := Option.bind_eq_some_iff.1 hread
  obtain ⟨⟨members, close⟩, hclose, hread⟩ := Option.bind_eq_some_iff.1 hread
  obtain ⟨rfl, rfl⟩ := Prod.mk.inj (Option.some.inj hread)
  have hbody := (ReadsFront.suffix hname).trans (LeavesSuffix.suffix hstart)
  obtain ⟨hfront, hnamed⟩ := (readsNodes_readBody h).after hbody hclose
  exact ⟨hfront, hnamed.namespaceBlock name⟩

omit [l.LeaveSuffix] in
/-- A node that is no interface and has no members. -/
theorem readsNode_of_readsFront {p : Reader Node} [ReadsFront p]
    (h : ∀ ts node rest, p ts = some (node, rest) →
      ∀ around, Declaration.interfacesOf around node = []) : ReadsNode p :=
  fun ts node rest hread => ⟨ReadsFront.suffix hread, NamedIn.of_nil (h ts node rest hread)⟩

theorem readsNode_readEnum : ReadsNode (readEnum l) := by
  refine readsNode_of_readsFront fun ts node rest hread around => ?_
  obtain ⟨named, -, hread⟩ := Option.bind_eq_some_iff.1 hread
  obtain ⟨after, -, hread⟩ := Option.bind_eq_some_iff.1 hread
  obtain ⟨rfl, -⟩ := Prod.mk.inj (Option.some.inj hread)
  rfl

theorem readsNode_readDelegate : ReadsNode (readDelegate l) := by
  refine readsNode_of_readsFront fun ts node rest hread around => ?_
  obtain ⟨after, -, hread⟩ := Option.bind_eq_some_iff.1 hread
  obtain ⟨rfl, -⟩ := Prod.mk.inj (Option.some.inj hread)
  rfl

/-- A using directive names no interface. -/
theorem readsNode_readUsing : ReadsNode (readUsing l) := by
  refine readsNode_of_readsFront fun ts node rest hread around => ?_
  obtain ⟨start, -, hread⟩ := Option.bind_eq_some_iff.1 hread
  obtain ⟨after, -, hread⟩ := Option.bind_eq_some_iff.1 hread
  obtain ⟨rfl, -⟩ := Prod.mk.inj (Option.some.inj hread)
  rfl

/-- A property or a method names no interface. -/
theorem readsNode_readTypedMember (attributes : List Attribute) :
    ReadsNode (readTypedMember l attributes) := by
  refine readsNode_of_readsFront fun ts node rest hread around => ?_
  obtain ⟨⟨typeText, typed⟩, -, hread⟩ := Option.bind_eq_some_iff.1 hread
  obtain ⟨⟨name, named⟩, -, hread⟩ := Option.bind_eq_some_iff.1 hread
  simp only at hread
  split at hread
  · split at hread
    · next result hresult =>
      obtain rfl : result = (node, rest) := Option.some.inj hread
      obtain ⟨⟨parameters, close⟩, -, hresult⟩ := Option.bind_eq_some_iff.1 hresult
      obtain ⟨after, -, hresult⟩ := Option.bind_eq_some_iff.1 hresult
      obtain ⟨rfl, -⟩ := Prod.mk.inj (Option.some.inj hresult)
      rfl
    · unfold readPropertyEnd at hread
      split at hread
      · obtain ⟨rfl, -⟩ := Prod.mk.inj (Option.some.inj hread)
        rfl
      · obtain ⟨⟨accessors, close⟩, -, hread⟩ := Option.bind_eq_some_iff.1 hread
        obtain ⟨rfl, -⟩ := Prod.mk.inj (Option.some.inj hread)
        rfl
  · simp at hread

theorem readsNode_readType (h : ReadsNodes inner) : ReadsNode (readType l inner) := by
  intro ts node rest hread
  unfold readType at hread
  simp only at hread
  split at hread
  · next start hstart =>
    exact (readsNode_readInterface l h).after (LeavesSuffix.suffix hstart) hread
  split at hread
  · next start hstart =>
    exact (readsNode_readTypeAfterKeyword l h _).after (LeavesSuffix.suffix hstart) hread
  split at hread
  · next start hstart =>
    exact (readsNode_readTypeAfterKeyword l h _).after (LeavesSuffix.suffix hstart) hread
  split at hread
  · next start hstart =>
    exact (readsNode_readEnum l).after (LeavesSuffix.suffix hstart) hread
  split at hread
  · next start hstart =>
    exact (readsNode_readDelegate l).after (LeavesSuffix.suffix hstart) hread
  split at hread
  · next start hstart =>
    have hkind := (suffix_getD (p := wordOf ["class", "struct"]) start).trans
      (LeavesSuffix.suffix hstart)
    exact (readsNode_readTypeAfterKeyword l h _).after hkind hread
  · simp at hread

/-- Members read nodes, one inside the other. -/
theorem readsNode_readMember (h : ReadsNodes inner) : ReadsNode (readMember l inner) := by
  intro ts node rest hread
  unfold readMember at hread
  split at hread
  · next result hresult =>
    obtain rfl : result = (node, rest) := Option.some.inj hread
    exact readsNode_readNamespace l h ts node rest hresult
  split at hread
  · next result hresult =>
    obtain rfl : result = (node, rest) := Option.some.inj hread
    exact readsNode_readUsing l ts node rest hresult
  have hhead := suffix_readHead l ts
  simp only at hread
  split at hread
  · next result hresult =>
    obtain rfl : result = (node, rest) := Option.some.inj hread
    exact (readsNode_readType l h).after hhead hresult
  split at hread
  · next result hresult =>
    obtain rfl : result = (node, rest) := Option.some.inj hread
    exact (readsNode_readTypedMember l _).after hhead hresult
  · obtain ⟨after, hafter, heq⟩ := Option.map_eq_some_iff.1 hread
    obtain ⟨rfl, rfl⟩ := Prod.mk.inj heq
    exact ⟨(LeavesSuffix.suffix hafter).trans hhead, NamedIn.of_nil fun _ => rfl⟩

/-- Whatever stands at the top of a source reads a node. -/
theorem readsNode_readTopLevelItem (h : ReadsNodes inner) :
    ReadsNode (readTopLevelItem l inner) := by
  intro ts node rest hread
  unfold readTopLevelItem at hread
  split at hread
  · next after hafter =>
    obtain ⟨rfl, rfl⟩ := Prod.mk.inj (Option.some.inj hread)
    exact ⟨LeavesSuffix.suffix hafter, NamedIn.of_nil fun _ => rfl⟩
  split at hread
  · next result hresult =>
    obtain rfl : result = (node, rest) := Option.some.inj hread
    exact readsNode_readUsing l ts node rest hresult
  split at hread
  · next after hafter =>
    obtain ⟨rfl, rfl⟩ := Prod.mk.inj (Option.some.inj hread)
    exact ⟨LeavesSuffix.suffix hafter, NamedIn.of_nil fun _ => rfl⟩
  split at hread
  · next after hafter =>
    obtain ⟨rfl, rfl⟩ := Prod.mk.inj (Option.some.inj hread)
    exact ⟨LeavesSuffix.suffix hafter, NamedIn.of_nil fun _ => rfl⟩
  split at hread
  · next result hresult =>
    obtain rfl : result = (node, rest) := Option.some.inj hread
    exact readsNode_readNamespace l h ts node rest hresult
  simp only at hread
  split at hread
  · next result hresult =>
    obtain rfl : result = (node, rest) := Option.some.inj hread
    exact (readsNode_readType l h).after (suffix_readHead l ts) hresult
  · obtain ⟨after, hafter, heq⟩ := Option.map_eq_some_iff.1 hread
    obtain ⟨rfl, rfl⟩ := Prod.mk.inj heq
    exact ⟨LeavesSuffix.suffix hafter, NamedIn.of_nil fun _ => rfl⟩

/-! ## Whole sources -/

/-- Lines for the preprocessor name no interface. -/
theorem namedIn_directives (ts : List Token) (kinds : List DirectiveKind) :
    NamedIn ts (kinds.map Node.directive) := by
  induction kinds with
  | nil => exact NamedIn.nil ts
  | cons kind kinds ih => exact NamedIn.cons (NamedIn.of_nil fun _ => rfl) ih

section Rows

variable {item : Reader Node} {fuel : Nat} (hitems : ReadsNodes (readItems item fuel))
  (hbranch : ∀ kind, ReadsNode (readBranch item kind fuel))

include hitems hbranch

theorem readsNodes_readItems_succ (h : ReadsNode item) :
    ReadsNodes (readItems item (fuel + 1)) := by
  intro ts nodes rest hread
  cases ts with
  | nil => simp [readItems] at hread
  | cons t ts =>
      unfold readItems at hread
      simp only at hread
      split at hread
      · obtain ⟨rfl, rfl⟩ := Prod.mk.inj (Option.some.inj hread)
        exact ⟨List.suffix_rfl, namedIn_directives _ _⟩
      · split at hread
        · simp at hread
        · next node after hone =>
          have hnode : after <:+ t :: ts ∧ NamedIn (t :: ts) [node] := by
            split at hone
            · exact (hbranch _).after (List.suffix_cons t ts) hone
            · exact h (t :: ts) node after hone
          split at hread
          · simp at hread
          · next more last hmore =>
            obtain ⟨rfl, rfl⟩ := Prod.mk.inj (Option.some.inj hread)
            obtain ⟨hlast, hnamed⟩ := hitems.after hnode.1 hmore
            exact ⟨hlast, (namedIn_directives _ _).append (NamedIn.cons hnode.2 hnamed)⟩

theorem readsNode_readBranch_succ (kind : BranchKind) :
    ReadsNode (readBranch item kind (fuel + 1)) := by
  intro ts node rest hread
  unfold readBranch at hread
  split at hread
  · simp at hread
  · next members after hmembers =>
    obtain ⟨hafter, hnamed⟩ := hitems ts members after hmembers
    split at hread
    · simp at hread
    · next t last =>
      have hlast : last <:+ ts := (List.suffix_cons t last).trans hafter
      split at hread
      · simp at hread
      split at hread
      · obtain ⟨rfl, rfl⟩ := Prod.mk.inj (Option.some.inj hread)
        exact ⟨hlast, hnamed.branch kind⟩
      split at hread
      · simp at hread
      · simp only at hread
        split at hread
        · simp at hread
        · next later final hlater =>
          obtain ⟨rfl, rfl⟩ := Prod.mk.inj (Option.some.inj hread)
          obtain ⟨hfinal, hmore⟩ := (hbranch _).after hlast hlater
          exact ⟨hfinal, (hnamed.append hmore).branch kind⟩

end Rows

/-- Items one after the other read nodes, and so do branches.  Each of the two may hold the other, hence
one induction on the fuel of both. -/
theorem readsNodes_readItems {item : Reader Node} (h : ReadsNode item) (fuel : Nat) :
    ReadsNodes (readItems item fuel) ∧ ∀ kind, ReadsNode (readBranch item kind fuel) := by
  induction fuel with
  | zero =>
      constructor
      · intro ts nodes rest hread
        simp [readItems] at hread
      · intro kind ts node rest hread
        simp [readBranch] at hread
  | succ fuel ih =>
      obtain ⟨hitems, hbranch⟩ := ih
      constructor
      · exact readsNodes_readItems_succ hitems hbranch h
      · exact readsNode_readBranch_succ hitems hbranch

/-- Members of every depth read nodes. -/
theorem readsNodes_readMembers (depth : Nat) : ReadsNodes (readMembers l depth) := by
  induction depth with
  | zero =>
      intro ts nodes rest hread
      simp [readMembers] at hread
  | succ depth ih =>
      intro ts nodes rest hread
      exact (readsNodes_readItems (readsNode_readMember l ih) _).1 ts nodes rest hread

omit l [l.LeaveSuffix] in
/-- The interfaces of a syntax tree are named by words of the source. -/
theorem namedIn_treeOfTokens? {ts : List Token} {nodes : List Node}
    (h : treeOfTokens? ts = some nodes) : NamedIn ts nodes := by
  unfold treeOfTokens? at h
  simp only at h
  split at h
  · next items t hitems =>
    split at h
    · obtain rfl : items = nodes := Option.some.inj h
      have hread := readsNode_readTopLevelItem (Phrases.ofDepth ts.length)
        (readsNodes_readMembers (Phrases.ofDepth ts.length) ts.length)
      exact ((readsNodes_readItems hread _).1 ts items [t] hitems).2
    · simp at h
  · simp at h

end PlatformClasses.Source
