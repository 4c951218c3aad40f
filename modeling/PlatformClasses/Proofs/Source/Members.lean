import PlatformClasses.Proofs.Source.Statements
import PlatformClasses.Proofs.TypeRef.Recognition
import PlatformClasses.Source.Member

/-!
# Reading a class of setter methods

A setter method is static, takes an object and a value, assigns the value to a property of the object and
returns the object.  A source with using directives and one namespace, in which one class of such methods
is declared, is read as just that.
-/

namespace PlatformClasses.Source

open Recogniser Phrase Reader

/-! ## Repetitions of readers -/

namespace Reader

variable {α : Type} {p : Reader α} {ts rest : List Token}

theorem many_of_none (h : p ts = none) : many p ts = ([], ts) := by
  cases ts with
  | nil => rfl
  | cons t ts => simp [many, manyAtMost, h]

theorem many_of_some {a : α} (h : p ts = some (a, rest)) (hlt : rest.length < ts.length)
    (hrest : p rest = none) : many p ts = ([a], rest) := by
  cases ts with
  | nil => simp at hlt
  | cons t ts =>
      have hnext : ∀ fuel, manyAtMost p fuel rest = ([], rest) := by
        intro fuel
        cases fuel <;> simp [manyAtMost, hrest]
      simp [many, manyAtMost, h, hnext]
      simpa using hlt

end Reader

/-! ## Setter methods -/

/-- A method that sets a property of an object and returns it. -/
structure Setter where
  owner : String
  property : String
  receiver : String
  type : TypeRef

namespace Setter

/-- The line that declares the method. -/
def signature (m : Setter) : List Piece :=
  [.word "public", .gap, .word "static", .gap, .word m.owner, .gap, .word m.property, .mark "(",
    .word "this", .gap, .word m.owner, .gap, .word m.receiver, .mark ",", .gap] ++
    (m.type.pieces ++ [.gap, .word "value", .mark ")"])

/-- The line that sets the property. -/
def assignment (m : Setter) : List Piece :=
  [.word m.receiver, .mark ".", .word m.property, .gap, .mark "=", .gap, .word "value", .mark ";"]

/-- The line that returns the object. -/
def result (m : Setter) : List Piece := [.word "return", .gap, .word m.receiver, .mark ";"]

/-- The faces of the method's tokens. -/
def faces (m : Setter) : List Face :=
  Piece.facesOf m.signature ++ ((.mark, "\x7b") :: (Piece.facesOf m.assignment ++
    (Piece.facesOf m.result ++ [(.mark, "\x7d")])))

/-- A setter whose names and type can stand in a source. -/
structure IsPlain (m : Setter) : Prop where
  owner : IsName m.owner
  /-- The type that is returned is not taken for more of what stands before it. -/
  stands : m.owner ∉ softModifierWords ++ ["record", "scoped"]
  property : IsName m.property
  receiver : IsName m.receiver
  type : m.type.isPlain = true

end Setter

/-! ## The parameters -/

section

variable {l : Phrases} [l.LeaveSuffix]

theorem type_name {x y : String} (hx : x ∉ reservedWords) (a b : List Trivia) (ts : List Token) :
    type l (⟨a, .word, x⟩ :: ⟨b, .word, y⟩ :: ts) = some (⟨b, .word, y⟩ :: ts) := by
  have hname : [(⟨a, .word, x⟩ : Token)].map Token.face = Piece.facesOf (partPieces [x]) := rfl
  exact type_parts l hx (by simp) (endsType_word b y ts) hname

omit [l.LeaveSuffix] in
theorem declaredName_word {x : String} (hx : x ∉ reservedWords) (a : List Trivia)
    (ts : List Token) : declaredName (⟨a, .word, x⟩ :: ts) = some ts := by
  have hwords : x ∉ ["this", "operator"] := not_mem_of_free hx (by decide)
  have hbuiltIn := not_mem_builtInTypes hx
  simp [declaredName, token, -List.mem_cons, hwords, hbuiltIn]

omit [l.LeaveSuffix] in
/-- A parameter with a type and no default value. -/
theorem readParameter_of_type {ts start modified typed named : List Token}
    (hattributes : attributes l ts = some start) (hparams : word "params" start = none)
    (hmodifiers : parameterModifiers l start = some modified)
    (htype : type l modified = some typed) (hname : declaredName typed = some named)
    (hvalue : mark "=" named = none) :
    ∃ parameter, readParameter l ts = some (parameter, named) := by
  have hnone : sequence [word "params", type l, declaredName] start = none := by
    rw [sequence_cons, hparams]
    rfl
  have hdefault : maybe (sequence [mark "=", expression l]) named = some named := by
    simp [maybe_eq, sequence_cons, hvalue]
  refine ⟨some ⟨Token.verbatim (Token.before typed named),
    some (Token.verbatim (Token.before modified typed))⟩, ?_⟩
  simp only [readParameter, hattributes, hnone, hmodifiers, textOf, htype, hname, hdefault,
    Option.bind_eq_bind, Option.bind_some, Option.map_some, Option.pure_def]

/-- The object that a setter method is called for. -/
theorem readParameter_receiver {owner receiver : String} (howner : owner ∉ reservedWords)
    (hscoped : owner ≠ "scoped") (hreceiver : receiver ∉ reservedWords) (a b c d : List Trivia)
    (ts : List Token) : ∃ parameter, readParameter l (⟨a, .word, "this"⟩ :: ⟨b, .word, owner⟩ ::
      ⟨c, .word, receiver⟩ :: ⟨d, .mark, ","⟩ :: ts) = some (parameter, ⟨d, .mark, ","⟩ :: ts) := by
  have hwords : owner ∉ ["ref", "out", "in", "this", "readonly"] := not_mem_of_free howner (by decide)
  have hmodifiers : parameterModifiers l (⟨a, .word, "this"⟩ :: ⟨b, .word, owner⟩ ::
      ⟨c, .word, receiver⟩ :: ⟨d, .mark, ","⟩ :: ts) =
        some (⟨b, .word, owner⟩ :: ⟨c, .word, receiver⟩ :: ⟨d, .mark, ","⟩ :: ts) := by
    have hthis : choice [wordOf ["ref", "out", "in", "this", "readonly"],
        sequence [word "scoped", ahead (sequence [l.type, declaredName])]]
          (⟨a, .word, "this"⟩ :: ⟨b, .word, owner⟩ :: ⟨c, .word, receiver⟩ :: ⟨d, .mark, ","⟩ :: ts) =
            some (⟨b, .word, owner⟩ :: ⟨c, .word, receiver⟩ :: ⟨d, .mark, ","⟩ :: ts) := by
      simp [choice_cons]
    refine (repeated_of_some hthis (by simp)).trans (repeated_of_none ?_)
    simp [choice_cons, sequence_cons, -List.mem_cons, hwords, hscoped]
  exact readParameter_of_type (attributes_word l a _ "this") (by simp) hmodifiers
    (type_name howner b c _) (declaredName_word hreceiver c _) (by simp)

/-- The value that a setter method takes. -/
theorem readParameter_value {t : TypeRef} (ht : t.isPlain = true) {n : Nat} {typed : List Token}
    (htyped : typed.map Token.face = Piece.facesOf t.pieces) (hn : typed.length ≤ n)
    (a b : List Trivia) (ts : List Token) : ∃ parameter, readParameter (Phrases.ofDepth n)
      (typed ++ ⟨a, .word, "value"⟩ :: ⟨b, .mark, ")"⟩ :: ts) =
        some (parameter, ⟨b, .mark, ")"⟩ :: ts) := by
  have htype := type_append t ht htyped hn (endsType_word a "value" (⟨b, .mark, ")"⟩ :: ts))
  obtain ⟨first, ps, hps, hfirst, hmark⟩ := t.exists_pieces_eq ht
  rw [hps] at htyped
  obtain ⟨c, more, rfl, hmore⟩ := exists_of_map_face htyped
  have hwords : first ∉ ["ref", "out", "in", "this", "readonly"] ∧ "params" ≠ first := by
    rcases hfirst with hfree | hbuiltIn
    · exact ⟨not_mem_of_free hfree (by decide), ne_of_mem_of_not_mem (by decide) hfree⟩
    · exact ⟨fun h => (by decide : ∀ s ∈ ["ref", "out", "in", "this", "readonly"],
        s ∉ builtInTypes) first h hbuiltIn, fun h => absurd hbuiltIn (h ▸ by decide)⟩
  -- even a type of the name `scoped` is no modifier of what follows it
  have hscoped : sequence [(Phrases.ofDepth n).type, declaredName]
      (more ++ ⟨a, .word, "value"⟩ :: ⟨b, .mark, ")"⟩ :: ts) = none := by
    cases ps with
    | nil =>
        obtain rfl := List.map_eq_nil_iff.1 hmore
        cases n with
        | zero => rfl
        | succ n =>
            have hvalue : [(⟨a, .word, "value"⟩ : Token)].map Token.face =
                Piece.facesOf (partPieces ["value"]) := rfl
            have hends := endsType_mark b (by decide : ")" ∉ ["::", "<", ".", "?", "*", "["]) ts
            have htaken : (Phrases.ofDepth (n + 1)).type (⟨a, .word, "value"⟩ :: ⟨b, .mark, ")"⟩ :: ts) =
                some (⟨b, .mark, ")"⟩ :: ts) :=
              type_parts (Phrases.ofDepth n) (by decide) (by simp) hends hvalue
            simp [sequence_cons, htaken]
    | cons p ps =>
        obtain ⟨m, rfl, hm⟩ := hmark p rfl
        obtain ⟨d, inside, rfl, -⟩ := exists_of_map_face hmore
        have hrefused := (Phrases.refuse_ofDepth n).type d m
          (inside ++ ⟨a, .word, "value"⟩ :: ⟨b, .mark, ")"⟩ :: ts) hm
        rw [List.cons_append, sequence_cons, hrefused]
        rfl
  have hmodifiers : choice [wordOf ["ref", "out", "in", "this", "readonly"],
      sequence [word "scoped", ahead (sequence [(Phrases.ofDepth n).type, declaredName])]]
        (⟨c, .word, first⟩ :: (more ++ ⟨a, .word, "value"⟩ :: ⟨b, .mark, ")"⟩ :: ts)) = none := by
    have hahead : ahead (sequence [(Phrases.ofDepth n).type, declaredName])
        (more ++ ⟨a, .word, "value"⟩ :: ⟨b, .mark, ")"⟩ :: ts) = none := by
      rw [ahead, hscoped]
      rfl
    rw [choice_cons, wordOf_word, if_neg hwords.1, choice_cons, sequence_cons, word_word]
    split
    · rw [Option.bind_some, sequence_cons, hahead]
      rfl
    · rfl
  exact readParameter_of_type (attributes_word _ c _ first) (by simp [hwords.2.symm])
    (repeated_of_none hmodifiers) htype (declaredName_word (by decide) a _) (by simp)

/-- The parameters of a setter method. -/
theorem readParameters_setter {owner receiver : String} (howner : owner ∉ reservedWords)
    (hscoped : owner ≠ "scoped") (hreceiver : receiver ∉ reservedWords) {t : TypeRef}
    (ht : t.isPlain = true) {n : Nat} {typed : List Token}
    (htyped : typed.map Token.face = Piece.facesOf t.pieces) (hn : typed.length ≤ n)
    (a b c d e f g : List Trivia) (rest : List Token) :
    ∃ parameters, readParameters (Phrases.ofDepth n) (⟨a, .mark, "("⟩ :: ⟨b, .word, "this"⟩ ::
      ⟨c, .word, owner⟩ :: ⟨d, .word, receiver⟩ :: ⟨e, .mark, ","⟩ ::
        (typed ++ ⟨f, .word, "value"⟩ :: ⟨g, .mark, ")"⟩ :: rest)) = some (parameters, rest) := by
  obtain ⟨first, hfirst⟩ := readParameter_receiver (l := Phrases.ofDepth n) howner hscoped hreceiver
    b c d e (typed ++ ⟨f, .word, "value"⟩ :: ⟨g, .mark, ")"⟩ :: rest)
  obtain ⟨second, hsecond⟩ := readParameter_value ht htyped hn f g rest
  have hothers : many (fun ts => do readParameter (Phrases.ofDepth n) (← mark "," ts))
      (⟨e, .mark, ","⟩ :: (typed ++ ⟨f, .word, "value"⟩ :: ⟨g, .mark, ")"⟩ :: rest)) =
        ([second], ⟨g, .mark, ")"⟩ :: rest) :=
    many_of_some (by simpa using hsecond)
      (by simp only [List.length_cons, List.length_append]; omega) (by simp)
  simp only [Option.bind_eq_bind] at hothers
  refine ⟨[first, second].filterMap id, ?_⟩
  simp only [readParameters, commaSeparated, mark_mark, mark_word, hfirst, hothers, if_true,
    Option.bind_eq_bind, Option.bind_some, Option.pure_def]

/-! ## Members -/

omit [l.LeaveSuffix] in
theorem readHead_public {x : String} {a b c : List Trivia} {ts : List Token}
    (hx : modifier (⟨c, .word, x⟩ :: ts) = none) :
    readHead l (⟨a, .word, "public"⟩ :: ⟨b, .word, "static"⟩ :: ⟨c, .word, x⟩ :: ts) =
      ([], ⟨c, .word, x⟩ :: ts) := by
  have hattributes : many (readAttributeList l)
      (⟨a, .word, "public"⟩ :: ⟨b, .word, "static"⟩ :: ⟨c, .word, x⟩ :: ts) =
        ([], ⟨a, .word, "public"⟩ :: ⟨b, .word, "static"⟩ :: ⟨c, .word, x⟩ :: ts) :=
    many_of_none (by simp [readAttributeList, sequence_cons])
  have hstatic : modifier (⟨b, .word, "static"⟩ :: ⟨c, .word, x⟩ :: ts) =
      some (⟨c, .word, x⟩ :: ts) := by
    simp [modifier, choice_cons, modifierWords]
  have hpublic : modifier (⟨a, .word, "public"⟩ :: ⟨b, .word, "static"⟩ :: ⟨c, .word, x⟩ :: ts) =
      some (⟨b, .word, "static"⟩ :: ⟨c, .word, x⟩ :: ts) := by
    simp [modifier, choice_cons, modifierWords]
  have hmodifiers := (repeated_of_some hpublic (by simp)).trans
    ((repeated_of_some hstatic (by simp)).trans (repeated_of_none hx))
  simp [readHead, hattributes, hmodifiers]

section

variable {x : String} {a b c : List Trivia} {ts : List Token} {inner : Reader (List Node)}
  {result : Node × List Token}

/-! A member after its modifiers is a type, or else a property or a method. -/

omit [l.LeaveSuffix] in
theorem readMember_of_readType (hx : modifier (⟨c, .word, x⟩ :: ts) = none)
    (h : readType l inner (⟨c, .word, x⟩ :: ts) = some result) :
    readMember l inner (⟨a, .word, "public"⟩ :: ⟨b, .word, "static"⟩ :: ⟨c, .word, x⟩ :: ts) =
      some result := by
  simp [readMember, readNamespace, readUsing, readHead_public hx, h]

omit [l.LeaveSuffix] in
theorem readMember_of_readTypedMember (hx : modifier (⟨c, .word, x⟩ :: ts) = none)
    (hnone : readType l inner (⟨c, .word, x⟩ :: ts) = none)
    (h : readTypedMember l [] (⟨c, .word, x⟩ :: ts) = some result) :
    readMember l inner (⟨a, .word, "public"⟩ :: ⟨b, .word, "static"⟩ :: ⟨c, .word, x⟩ :: ts) =
      some result := by
  simp [readMember, readNamespace, readUsing, readHead_public hx, hnone, h]

end

omit [l.LeaveSuffix] in
/-- No declaration of a type begins with a name. -/
theorem readType_name {x : String} (hx : x ∉ reservedWords) (hsoft : x ∉ ["partial", "record"])
    (a : List Trivia) (ts : List Token) (inner : Reader (List Node)) :
    readType l inner (⟨a, .word, x⟩ :: ts) = none := by
  have hwords : ∀ s ∈ ["interface", "class", "ref", "struct", "enum", "delegate"], x ≠ s := by
    rintro s hs rfl
    exact absurd hs (not_mem_of_free hx (by decide))
  have hpartial : x ≠ "partial" := by rintro rfl; simp at hsoft
  have hrecord : x ≠ "record" := by rintro rfl; simp at hsoft
  simp [readType, choice_cons, sequence_cons, maybe_eq, hpartial, hrecord,
    hwords "interface" (by decide), hwords "class" (by decide), hwords "ref" (by decide),
    hwords "struct" (by decide), hwords "enum" (by decide), hwords "delegate" (by decide)]

omit [l.LeaveSuffix] in
/-- A member with a type, a name, parameters and a body is a method. -/
theorem readTypedMember_method {ts typed bodied rest : List Token} {a b : List Trivia} {x : String}
    {parameters : List ParameterNode} (hx : x ∉ reservedWords)
    (htype : type l ts = some (⟨a, .word, x⟩ :: ⟨b, .mark, "("⟩ :: typed))
    (hparameters : readParameters l (⟨b, .mark, "("⟩ :: typed) = some (parameters, bodied))
    (hbody : sequence [constraints l, functionBody l] bodied = some rest)
    (attributes : List Attribute) :
    ∃ node, readTypedMember l attributes ts = some (.method node, rest) := by
  have hpath : readPathEnd l (⟨a, .word, x⟩ :: ⟨b, .mark, "("⟩ :: typed).length
      (⟨a, .word, x⟩ :: ⟨b, .mark, "("⟩ :: typed) = some (⟨a, .word, x⟩, ⟨b, .mark, "("⟩ :: typed) := by
    simp [readPathEnd, sequence_cons, maybe_eq, typeArguments]
  have hname := declaredName_word hx a []
  have hparameter : maybe (typeParameters l) (⟨b, .mark, "("⟩ :: typed) =
      some (⟨b, .mark, "("⟩ :: typed) := by
    simp [maybe_eq, typeParameters, sequence_cons]
  refine ⟨⟨x, Token.verbatim (Token.before ts (⟨a, .word, x⟩ :: ⟨b, .mark, "("⟩ :: typed)),
    parameters⟩, ?_⟩
  simp only [readTypedMember, textOf, htype, Option.map_some, Option.bind_eq_bind, Option.bind_some,
    hpath, hname, Option.isSome_some, if_true, readMethodEnd, hparameter, hparameters, hbody,
    Option.pure_def]

/-- A setter method is read as a method. -/
theorem readMember_setter {m : Setter} (hm : m.IsPlain) {n : Nat} {ts : List Token}
    (hts : ts.map Token.face = m.faces) (hn : ts.length ≤ n) (inner : Reader (List Node))
    (rest : List Token) : ∃ node, readMember (Phrases.ofDepth n) inner (ts ++ rest) =
      some (.method node, rest) := by
  simp only [Setter.faces, Setter.signature, Piece.facesOf_append, List.append_assoc] at hts
  obtain ⟨front, more, rfl, hfront, hmore⟩ := List.map_eq_append_iff.1 hts
  obtain ⟨typed, last, rfl, htyped, hlast⟩ := List.map_eq_append_iff.1 hmore
  obtain ⟨tail, body, rfl, htail, hbody⟩ := List.map_eq_append_iff.1 hlast
  obtain ⟨k, rfl⟩ := exists_leads hfront
  obtain ⟨k', rfl⟩ := exists_leads htail
  have hlength : body.length = 11 := by
    simpa [Setter.assignment, Setter.result] using congrArg List.length hbody
  simp only [List.length_append] at hn
  obtain ⟨n, rfl⟩ : ∃ k, n = k + 2 := ⟨n - 2, by omega⟩
  have hsoft : m.owner ∉ softModifierWords := fun h => hm.stands (List.mem_append_left _ h)
  have hscoped : m.owner ≠ "scoped" := fun h => hm.stands (by simp [h])
  have howner : m.owner ∉ ["partial", "record"] := by
    intro h
    exact hm.stands ((by decide : ∀ s ∈ ["partial", "record"],
      s ∈ softModifierWords ++ ["record", "scoped"]) m.owner h)
  obtain ⟨parameters, hparameters⟩ := readParameters_setter hm.owner.free hscoped hm.receiver.free
    hm.type htyped (by omega : typed.length ≤ n + 2) (k 4) (k 5) (k 6) (k 7) (k 8) (k' 0) (k' 1)
    (body ++ rest)
  have hblock : block (Phrases.ofDepth (n + 2)) (body ++ rest) = some rest :=
    block_setter (l := Phrases.ofDepth n) rest (Phrases.refuse_ofDepth n) hm.receiver.free
      hm.property.free (by decide : "value" ∉ reservedWords) hbody
  have hmodifier : ∀ ts, modifier (⟨k 2, .word, m.owner⟩ :: ts) = none := by
    intro ts
    have hwords : m.owner ∉ modifierWords := not_mem_of_free hm.owner.free (by decide)
    simp [modifier, choice_cons, sequence_cons, hwords, hsoft]
  have hfunction : sequence [constraints (Phrases.ofDepth (n + 2)),
      functionBody (Phrases.ofDepth (n + 2))] (body ++ rest) = some rest := by
    obtain ⟨a, inside, rfl, -⟩ := exists_of_map_face hbody
    have hconstraints : constraints (Phrases.ofDepth (n + 2)) (⟨a, .mark, "\x7b"⟩ :: (inside ++ rest)) =
        some (⟨a, .mark, "\x7b"⟩ :: (inside ++ rest)) :=
      repeated_of_none (by simp [sequence_cons])
    rw [List.cons_append] at hblock ⊢
    simp [sequence_cons, hconstraints, functionBody, choice_cons, hblock]
  obtain ⟨node, hnode⟩ := readTypedMember_method hm.property.free
    (type_name hm.owner.free (k 2) (k 3) _) hparameters hfunction []
  refine ⟨node, ?_⟩
  simp only [List.append_assoc]
  exact readMember_of_readTypedMember (hmodifier _) (readType_name hm.owner.free howner (k 2) _ inner)
    hnode

end

/-! ## Rows of items -/

section

variable {item : Reader Node} {fuel : Nat} {t : Token} {rest : List Token}

theorem readItems_end (hdirectives : t.directives = []) (hend : endsItems t = true) :
    readItems item (fuel + 1) (t :: rest) = some ([], t :: rest) := by
  simp [readItems, hdirectives, hend]

theorem readItems_cons (hdirectives : t.directives = []) (hend : endsItems t = false)
    (hkind : t.kind ≠ .conditional) {node : Node} {more : List Node} {after last : List Token}
    (hitem : item (t :: rest) = some (node, after))
    (hmore : readItems item fuel after = some (more, last)) :
    readItems item (fuel + 1) (t :: rest) = some (node :: more, last) := by
  have hconditional : (t.kind == .conditional) = false := by simpa using hkind
  simp [readItems, hdirectives, hend, hconditional, hitem, hmore]

theorem endsItems_word (a : List Trivia) (x : String) : endsItems ⟨a, .word, x⟩ = false := by
  simp [endsItems, Token.isMark]

theorem endsItems_closing (a : List Trivia) : endsItems ⟨a, .mark, "\x7d"⟩ = true := by
  simp [endsItems, Token.isMark]

end

/-- Setter methods one after the other, up to a closing brace. -/
theorem readItems_setters {ms : List Setter} (hms : ∀ m ∈ ms, m.IsPlain) {n : Nat} {ts : List Token}
    (hts : ts.map Token.face = ms.flatMap Setter.faces) (hn : ts.length ≤ n)
    (hdirectives : ∀ t ∈ ts, t.directives = []) (inner : Reader (List Node)) {fuel : Nat}
    (hfuel : ms.length < fuel) {a : List Trivia}
    (ha : (⟨a, .mark, "\x7d"⟩ : Token).directives = []) (rest : List Token) :
    ∃ nodes, readItems (readMember (Phrases.ofDepth n) inner) fuel (ts ++ ⟨a, .mark, "\x7d"⟩ :: rest) =
      some (nodes, ⟨a, .mark, "\x7d"⟩ :: rest) ∧ ∀ node ∈ nodes, ∃ m, node = .method m := by
  induction ms generalizing ts fuel with
  | nil =>
      obtain rfl := List.map_eq_nil_iff.1 hts
      obtain ⟨fuel, rfl⟩ := Nat.exists_eq_add_one_of_ne_zero (by omega : fuel ≠ 0)
      exact ⟨[], readItems_end ha (endsItems_closing a), by simp⟩
  | cons m ms ih =>
      rw [List.flatMap_cons] at hts
      obtain ⟨first, more, rfl, hfirst, hmore⟩ := List.map_eq_append_iff.1 hts
      rw [List.length_append] at hn
      rw [List.length_cons] at hfuel
      obtain ⟨fuel, rfl⟩ := Nat.exists_eq_add_one_of_ne_zero (by omega : fuel ≠ 0)
      obtain ⟨node, hnode⟩ := readMember_setter (hms m List.mem_cons_self) hfirst
        (by omega : first.length ≤ n) inner (more ++ ⟨a, .mark, "\x7d"⟩ :: rest)
      obtain ⟨nodes, hnodes, hmethods⟩ := ih (fun m' h => hms m' (List.mem_cons_of_mem m h)) hmore
        (by omega) (fun t ht => hdirectives t (List.mem_append_right first ht))
        (by omega : ms.length < fuel)
      obtain ⟨b, inside, rfl, -⟩ := exists_of_map_face hfirst
      refine ⟨.method node :: nodes, ?_, ?_⟩
      · rw [List.append_assoc]
        exact readItems_cons (hdirectives _ (by simp)) (endsItems_word b "public") (by simp) hnode
          hnodes
      · intro node' hnode'
        rcases List.mem_cons.1 hnode' with rfl | hnode'
        · exact ⟨node, rfl⟩
        · exact hmethods node' hnode'

/-! ## The class -/

theorem bodyEnd_closing (a : List Trivia) {rest : List Token} (h : adjacentMark ";" rest = none) :
    bodyEnd (⟨a, .mark, "\x7d"⟩ :: rest) = some rest := by
  simp [bodyEnd, sequence_cons, maybe_eq, h]

/-- A class without clauses, whose members are read to the end of its braces. -/
theorem readType_class {l : Phrases} {name : String} (hname : name ∉ reservedWords)
    {inner : Reader (List Node)} {a b c d : List Trivia} {ts rest : List Token} {members : List Node}
    (hinner : inner ts = some (members, ⟨d, .mark, "\x7d"⟩ :: rest))
    (hrest : adjacentMark ";" rest = none) :
    readType l inner (⟨a, .word, "class"⟩ :: ⟨b, .word, name⟩ :: ⟨c, .mark, "\x7b"⟩ :: ts) =
      some (.typeDeclaration .classType members, rest) := by
  have hconstraints : constraints l (⟨c, .mark, "\x7b"⟩ :: ts) = some (⟨c, .mark, "\x7b"⟩ :: ts) :=
    repeated_of_none (by simp [sequence_cons])
  have hhead : readTypeHead l true (⟨c, .mark, "\x7b"⟩ :: ts) = ([], ⟨c, .mark, "\x7b"⟩ :: ts) := by
    rw [readTypeHead, many_of_none]
    · simp [hconstraints]
    · simp [typeParameters, readBaseList, parameters, sequence_cons]
  simp [readType, sequence_cons, readTypeAfterKeyword, declaredName_word hname, hhead,
    readBodyOrNone, readBody, hinner, bodyEnd_closing d hrest]

/-- A class of setter methods. -/
structure SetterClass where
  name : String
  setters : List Setter

namespace SetterClass

/-- The line that declares the class. -/
def head (c : SetterClass) : List Piece :=
  [.word "public", .gap, .word "static", .gap, .word "class", .gap, .word c.name]

/-- The faces of the class's tokens. -/
def faces (c : SetterClass) : List Face :=
  Piece.facesOf c.head ++ ((.mark, "\x7b") :: (c.setters.flatMap Setter.faces ++ [(.mark, "\x7d")]))

/-- A class whose names and types can stand in a source. -/
structure IsPlain (c : SetterClass) : Prop where
  name : IsName c.name
  setters : ∀ m ∈ c.setters, m.IsPlain

end SetterClass

theorem length_le_length_flatMap {α β : Type} {f : α → List β} (hf : ∀ a, f a ≠ []) (as : List α) :
    as.length ≤ (as.flatMap f).length := by
  induction as with
  | nil => exact Nat.zero_le 0
  | cons a as ih =>
      have hpos := List.length_pos_iff.2 (hf a)
      rw [List.flatMap_cons, List.length_append, List.length_cons]
      omega

/-- A class of setter methods is read as a class with methods. -/
theorem readMember_setterClass {c : SetterClass} (hc : c.IsPlain) {n : Nat} {ts : List Token}
    (hts : ts.map Token.face = c.faces) (hn : ts.length ≤ n)
    (hdirectives : ∀ t ∈ ts, t.directives = []) (depth : Nat) {rest : List Token}
    (hrest : adjacentMark ";" rest = none) :
    ∃ methods, readMember (Phrases.ofDepth n) (readMembers (Phrases.ofDepth n) (depth + 1))
      (ts ++ rest) = some (.typeDeclaration .classType methods, rest) ∧
        ∀ node ∈ methods, ∃ m, node = .method m := by
  obtain ⟨front, more, rfl, hfront, hmore⟩ := List.map_eq_append_iff.1 hts
  obtain ⟨a, inside, rfl, hinside⟩ := exists_of_map_face hmore
  obtain ⟨members, last, rfl, hmembers, hlast⟩ := List.map_eq_append_iff.1 hinside
  obtain ⟨d, nothing, rfl, hnothing⟩ := exists_of_map_face hlast
  obtain rfl := List.map_eq_nil_iff.1 hnothing
  obtain ⟨k, rfl⟩ := exists_leads hfront
  have hfuel : c.setters.length ≤ members.length := by
    have hlength := congrArg List.length hmembers
    rw [List.length_map] at hlength
    rw [hlength]
    exact length_le_length_flatMap (fun m => by simp [Setter.faces, Setter.signature]) c.setters
  simp only [List.length_append, List.length_cons] at hn
  obtain ⟨methods, hmethods, hall⟩ := readItems_setters hc.setters hmembers
    (by omega : members.length ≤ n) (fun t ht => hdirectives t (by simp [ht]))
    (readMembers (Phrases.ofDepth n) depth)
    (by rw [List.length_append]; omega :
      c.setters.length < 2 * (members ++ ⟨d, .mark, "\x7d"⟩ :: rest).length + 2)
    (hdirectives ⟨d, .mark, "\x7d"⟩ (by simp)) rest
  have hread : readMembers (Phrases.ofDepth n) (depth + 1) (members ++ ⟨d, .mark, "\x7d"⟩ :: rest) =
      some (methods, ⟨d, .mark, "\x7d"⟩ :: rest) := hmethods
  have hmodifier : ∀ ts, modifier (⟨k 2, .word, "class"⟩ :: ts) = none := by
    intro ts
    simp [modifier, choice_cons, sequence_cons, modifierWords, softModifierWords]
  have htype := readType_class (l := Phrases.ofDepth n) (a := k 2) (b := k 3) (c := a) hc.name.free hread hrest
  refine ⟨methods, ?_, hall⟩
  simp only [List.append_assoc, List.cons_append, List.nil_append]
  exact readMember_of_readType (hmodifier _) htype

end PlatformClasses.Source
