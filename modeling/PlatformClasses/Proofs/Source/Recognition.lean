import Mathlib.Logic.Basic
import PlatformClasses.Proofs.Source.Remainder

/-!
# Phrases at the front of tokens

Equations that evaluate the combinators on tokens whose kind and text are known, so that what a phrase
does with them is computed by following its definition.

Most alternatives of a phrase are given up at its first token.  `closers` are the marks with which
nothing begins, neither a type nor an expression nor a statement (`Phrases.refuse_ofDepth`), which is what
ends the repetitions in a source.
-/

namespace PlatformClasses.Source

namespace Recogniser

/-! ## Combinators -/

section

variable {p : Recogniser} {ps : List Recogniser} {ts after : List Token}

@[simp] theorem sequence_nil (ts : List Token) : sequence [] ts = some ts := rfl

/-- A sequence goes on with its other phrases where the first one ends. -/
theorem sequence_cons (p : Recogniser) (ps : List Recogniser) (ts : List Token) :
    sequence (p :: ps) ts = (p ts).bind (sequence ps) := by
  conv => lhs; unfold sequence
  cases p ts <;> rfl

@[simp] theorem choice_nil (ts : List Token) : choice [] ts = none := rfl

/-- A choice tries its other phrases if the first one is not there. -/
theorem choice_cons (p : Recogniser) (ps : List Recogniser) (ts : List Token) :
    choice (p :: ps) ts = (p ts).or (choice ps ts) := by
  conv => lhs; unfold choice
  cases p ts <;> rfl

/-- An optional phrase is passed over if it is not there. -/
theorem maybe_eq (p : Recogniser) (ts : List Token) : maybe p ts = some ((p ts).getD ts) := rfl

/-- A repetition ends where its phrase is not there. -/
theorem repeated_of_none (h : p ts = none) : repeated p ts = some ts := by
  cases ts with
  | nil => rfl
  | cons t ts => simp [repeated, repeatedAtMost, h]

/-- A phrase takes a token each time, so as many times as there are tokens are enough. -/
theorem repeatedAtMost_eq (p : Recogniser) {fuel : Nat} {ts : List Token} (h : ts.length ≤ fuel) :
    repeatedAtMost p fuel ts = repeated p ts := by
  induction hn : ts.length using Nat.strongRecOn generalizing fuel ts with
  | ind n ih =>
      subst hn
      cases ts with
      | nil =>
          cases fuel with
          | zero => rfl
          | succ fuel => cases hp : p [] <;> simp [repeated, repeatedAtMost, hp]
      | cons t ts =>
          rw [List.length_cons] at h
          obtain ⟨fuel, rfl⟩ := Nat.exists_eq_add_one_of_ne_zero (by omega : fuel ≠ 0)
          unfold repeated
          rw [List.length_cons]
          unfold repeatedAtMost
          cases hp : p (t :: ts) with
          | none => rfl
          | some after =>
              by_cases hlt : after.length < (t :: ts).length
              · simp only [hlt, if_true]
                rw [List.length_cons] at hlt
                rw [ih after.length (by simpa using hlt) (by omega : after.length ≤ fuel) rfl,
                  ih after.length (by simpa using hlt) (by omega : after.length ≤ ts.length) rfl]
              · simp only [hlt, if_false]

/-- A repetition goes on behind its phrase, as long as this takes a token. -/
theorem repeated_of_some (h : p ts = some after) (hlt : after.length < ts.length) :
    repeated p ts = repeated p after := by
  obtain ⟨k, hk⟩ := Nat.exists_eq_add_one_of_ne_zero (by omega : ts.length ≠ 0)
  rw [← repeatedAtMost_eq p (by omega : after.length ≤ k)]
  show repeatedAtMost p ts.length ts = _
  rw [hk]
  simp only [repeatedAtMost, h, hlt, if_true]

end

/-! ## Single tokens -/

section

variable (a : List Trivia) (m s x : String) (ss : List String) (ts : List Token)

@[simp] theorem word_mark : word s (⟨a, .mark, m⟩ :: ts) = none := by
  simp [word, token, Token.isWord]

/-- A word is recognised by its text. -/
@[simp] theorem word_word : word s (⟨a, .word, x⟩ :: ts) = if x = s then some ts else none := by
  simp [word, token, Token.isWord]

@[simp] theorem wordOf_mark : wordOf ss (⟨a, .mark, m⟩ :: ts) = none := by
  simp [wordOf, token]

@[simp] theorem wordOf_word : wordOf ss (⟨a, .word, x⟩ :: ts) = if x ∈ ss then some ts else none := by
  simp [wordOf, token]

/-- A mark is recognised by its text. -/
@[simp] theorem mark_mark : mark s (⟨a, .mark, m⟩ :: ts) = if m = s then some ts else none := by
  simp [mark, token, Token.isMark]

@[simp] theorem mark_word : mark s (⟨a, .word, x⟩ :: ts) = none := by
  simp [mark, token, Token.isMark]

@[simp] theorem markOf_mark : markOf ss (⟨a, .mark, m⟩ :: ts) = if m ∈ ss then some ts else none := by
  simp [markOf, token]

@[simp] theorem markOf_word : markOf ss (⟨a, .word, x⟩ :: ts) = none := by
  simp [markOf, token]

@[simp] theorem adjacentMark_word : adjacentMark s (⟨a, .word, x⟩ :: ts) = none := by
  simp [adjacentMark, token, Token.isMark]

/-- A mark ends a repetition of words. -/
theorem repeated_wordOf_mark :
    repeated (wordOf ss) (⟨a, .mark, m⟩ :: ts) = some (⟨a, .mark, m⟩ :: ts) :=
  repeated_of_none (wordOf_mark a m ss ts)

end

end Recogniser

open Recogniser

namespace Phrase

section

variable (a : List Trivia) (m x : String) (ts : List Token)

@[simp] theorem name_mark : name (⟨a, .mark, m⟩ :: ts) = none := by
  simp [name, token]

/-- Every word is a name but for the reserved ones. -/
@[simp] theorem name_word :
    name (⟨a, .word, x⟩ :: ts) = if x ∈ reservedWords then none else some ts := by
  by_cases hx : x ∈ reservedWords <;> simp [name, token, hx]

@[simp] theorem declaredName_mark : declaredName (⟨a, .mark, m⟩ :: ts) = none := by
  simp [declaredName, token]

/-- An opening brace is recognised by its text. -/
@[simp] theorem openBrace_mark :
    openBrace (⟨a, .mark, m⟩ :: ts) = if m = "\x7b" then some ts else none :=
  mark_mark a m "\x7b" ts

@[simp] theorem openBrace_word : openBrace (⟨a, .word, x⟩ :: ts) = none :=
  mark_word a "\x7b" x ts

@[simp] theorem closeBrace_mark :
    closeBrace (⟨a, .mark, m⟩ :: ts) = if m = "\x7d" then some ts else none :=
  mark_mark a m "\x7d" ts

theorem modifier_mark : modifier (⟨a, .mark, m⟩ :: ts) = none := by
  simp [modifier, sequence_cons, choice_cons]

/-- A mark ends the modifiers. -/
theorem repeated_modifier_mark :
    repeated modifier (⟨a, .mark, m⟩ :: ts) = some (⟨a, .mark, m⟩ :: ts) :=
  repeated_of_none (modifier_mark a m ts)

end

/-! ## Marks that nothing begins with -/

/-- Marks with which no type, expression or statement begins. -/
def closers : List String := [")", "]", "\x7d", ",", ".", "="]

/-- A closer is in no list of texts that has no closers. -/
theorem not_mem_of_mem_closers {m : String} {ss : List String} (hm : m ∈ closers)
    (hs : ∀ s ∈ ss, s ∉ closers) : m ∉ ss :=
  fun h => hs m h hm

variable (l : Phrases) (a : List Trivia) (m : String) (ts : List Token)

section

variable {m}

/-! Of the marks, a type begins with a round bracket only. -/

/-- No mark but an opening parenthesis begins the head of a type. -/
theorem typeHead_mark (hm : m ≠ "(") : typeHead l (⟨a, .mark, m⟩ :: ts) = none := by
  simp [typeHead, functionPointer, tupleType, qualifiedName, simpleName, sequence_cons, choice_cons,
    maybe_eq, hm]

/-- No mark but an opening parenthesis begins a type. -/
theorem type_mark (hm : m ≠ "(") : type l (⟨a, .mark, m⟩ :: ts) = none := by
  simp [type, typeHead_mark l a ts hm, sequence_cons, choice_cons]

/-- No mark but an opening parenthesis begins a type without sizes. -/
theorem unsizedType_mark (hm : m ≠ "(") : unsizedType l (⟨a, .mark, m⟩ :: ts) = none := by
  simp [unsizedType, typeHead_mark l a ts hm, sequence_cons]

/-- There are no attributes in front of a mark that is no opening bracket. -/
theorem attributes_mark (hm : m ≠ "[") :
    attributes l (⟨a, .mark, m⟩ :: ts) = some (⟨a, .mark, m⟩ :: ts) := by
  rw [attributes, repeated_of_none]
  simp [attributeList, sequence_cons, hm]

/-- There are no attributes in front of a word. -/
theorem attributes_word (x : String) :
    attributes l (⟨a, .word, x⟩ :: ts) = some (⟨a, .word, x⟩ :: ts) := by
  rw [attributes, repeated_of_none]
  simp [attributeList, sequence_cons]

/-- No closer begins an operand. -/
theorem operand_mark (hm : m ∈ closers) : operand l (⟨a, .mark, m⟩ :: ts) = none := by
  have hround : m ≠ "(" := ne_of_mem_of_not_mem hm (by decide)
  have hsquare : m ≠ "[" := ne_of_mem_of_not_mem hm (by decide)
  have hsign : m ∉ ["+", "-", "!", "~", "++", "--", "&", "*", "^", ".."] :=
    not_mem_of_mem_closers hm (by decide)
  have hlead : repeated (leadOperator l) (⟨a, .mark, m⟩ :: ts) = some (⟨a, .mark, m⟩ :: ts) := by
    rw [repeated_of_none]
    simp [leadOperator, Phrase.cast, choice_cons, sequence_cons, -List.mem_cons, hsign, hround]
  simp [operand, sequence_cons, choice_cons, hlead, lambda, attributes_mark l a ts hsquare,
    repeated_wordOf_mark, parameters, unsizedType_mark, hround, hsquare, primary,
    anonymousMethod, query, literal, creation, typeOperation, bracketed, collection, token]

/-- No closer begins an expression. -/
theorem expression_mark (hm : m ∈ closers) : expression l (⟨a, .mark, m⟩ :: ts) = none := by
  have hbrace : m ≠ "\x7b" := ne_of_mem_of_not_mem hm (by decide)
  have hdots : m ≠ ".." := ne_of_mem_of_not_mem hm (by decide)
  simp [expression, sequence_cons, choice_cons, operand_mark l a ts hm, initialiser, hbrace, hdots]

end

end Phrase

open Phrase

/-- The nested phrases of a level do not begin with the marks that nothing begins with. -/
structure Phrases.Refuse (l : Phrases) : Prop where
  type : ∀ a m ts, m ≠ "(" → l.type (⟨a, .mark, m⟩ :: ts) = .none
  expression : ∀ a m ts, m ∈ closers → l.expression (⟨a, .mark, m⟩ :: ts) = .none
  statement : ∀ a m ts, m ∈ closers → l.statement (⟨a, .mark, m⟩ :: ts) = .none

/-- No closer begins a statement, if none begins the phrases that it is made of. -/
theorem Phrase.statement_mark {l : Phrases} (hl : l.Refuse) (a : List Trivia) {m : String}
    (ts : List Token) (hm : m ∈ closers) : statement l (⟨a, .mark, m⟩ :: ts) = none := by
  have hround : m ≠ "(" := ne_of_mem_of_not_mem hm (by decide)
  have hsquare : m ≠ "[" := ne_of_mem_of_not_mem hm (by decide)
  have hbrace : m ≠ "\x7b" := ne_of_mem_of_not_mem hm (by decide)
  have hend : m ≠ ";" := ne_of_mem_of_not_mem hm (by decide)
  have htype := hl.type a m ts hround
  have hsimple : simpleStatement l (⟨a, .mark, m⟩ :: ts) = none := by
    simp [simpleStatement, sequence_cons, choice_cons, block, hbrace, hend, maybe_eq]
  have hconditional : conditionalStatements l (⟨a, .mark, m⟩ :: ts) = none := by
    simp [conditionalStatements, sequence_cons, token]
  have hfunction : localFunction l (⟨a, .mark, m⟩ :: ts) = none := by
    simp [localFunction, sequence_cons, attributes_mark l a ts hsquare, repeated_modifier_mark, htype]
  have hvariables : localVariables l (⟨a, .mark, m⟩ :: ts) = none := by
    simp [localVariables, declarators, sequence_cons, choice_cons, maybe_eq, repeated_modifier_mark,
      htype]
  have heffect : expressionStatement l (⟨a, .mark, m⟩ :: ts) = none := by
    simp [expressionStatement, operand_mark l a ts hm]
  simp [statement, choice_cons, hsimple, hconditional, hfunction, hvariables, heffect]

/-- Refusing closers carries over to the phrases of the next depth. -/
theorem Phrases.Refuse.above {l : Phrases} (hl : l.Refuse) : l.above.Refuse :=
  ⟨fun a _ ts hm => type_mark l a ts hm, fun a _ ts hm => expression_mark l a ts hm,
    fun a _ ts hm => statement_mark hl a ts hm⟩

/-- At every depth, nothing begins with a closer. -/
theorem Phrases.refuse_ofDepth (n : Nat) : (Phrases.ofDepth n).Refuse := by
  induction n with
  | zero => exact ⟨fun _ _ _ _ => rfl, fun _ _ _ _ => rfl, fun _ _ _ _ => rfl⟩
  | succ n ih => exact ih.above

end PlatformClasses.Source
