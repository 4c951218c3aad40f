import PlatformClasses.Source.Phrase

/-!
# What recognisers leave

A recogniser takes tokens from the front only, so what it leaves is an end part of the tokens that it was
given.  This holds of the combinators if it holds of what they combine, and of the phrases of one level if
it holds of those of the level below.  It is a class, so that it is found for a phrase by following the
definition of the phrase down to the phrases it is made of.
-/

namespace PlatformClasses.Source

namespace Recogniser

/-- A recogniser leaves an end part of the tokens. -/
class LeavesSuffix (p : Recogniser) : Prop where
  suffix : ∀ {ts rest}, p ts = some rest → rest <:+ ts

/-- Several recognisers each leave an end part of the tokens. -/
class AllLeaveSuffix (ps : List Recogniser) : Prop where
  each : ∀ p ∈ ps, LeavesSuffix p

/-! ## Combinators -/

instance : AllLeaveSuffix [] := ⟨by simp⟩

instance (p : Recogniser) (ps : List Recogniser) [hp : LeavesSuffix p] [hps : AllLeaveSuffix ps] :
    AllLeaveSuffix (p :: ps) where
  each q hq := by
    rcases List.mem_cons.1 hq with rfl | hq
    · exact hp
    · exact hps.each q hq

instance (accepts : Token → Bool) : LeavesSuffix (token accepts) where
  suffix {ts rest} h := by
    cases ts with
    | nil => simp [token] at h
    | cons t ts =>
        obtain ⟨-, rfl⟩ : accepts t = true ∧ ts = rest := by simpa [token] using h
        exact List.suffix_cons t ts

instance (text : String) : LeavesSuffix (word text) := inferInstanceAs (LeavesSuffix (token _))

instance (texts : List String) : LeavesSuffix (wordOf texts) :=
  inferInstanceAs (LeavesSuffix (token _))

instance (texts : List String) : AllLeaveSuffix (texts.map word) where
  each p hp := by
    obtain ⟨text, -, rfl⟩ := List.mem_map.1 hp
    infer_instance

instance (text : String) : LeavesSuffix (mark text) := inferInstanceAs (LeavesSuffix (token _))

instance (texts : List String) : LeavesSuffix (markOf texts) :=
  inferInstanceAs (LeavesSuffix (token _))

instance (text : String) : LeavesSuffix (adjacentMark text) :=
  inferInstanceAs (LeavesSuffix (token _))

theorem suffix_of_sequence {ps : List Recogniser} (h : ∀ p ∈ ps, LeavesSuffix p)
    {ts rest : List Token} (hrest : sequence ps ts = some rest) : rest <:+ ts := by
  induction ps generalizing ts with
  | nil =>
      obtain rfl : ts = rest := by simpa [sequence] using hrest
      exact List.suffix_rfl
  | cons p ps ih =>
      unfold sequence at hrest
      split at hrest
      · next after hafter =>
        have hfirst : after <:+ ts := (h p (by simp)).suffix hafter
        exact (ih (fun q hq => h q (by simp [hq])) hrest).trans hfirst
      · simp at hrest

theorem suffix_of_choice {ps : List Recogniser} (h : ∀ p ∈ ps, LeavesSuffix p)
    {ts rest : List Token} (hrest : choice ps ts = some rest) : rest <:+ ts := by
  induction ps with
  | nil => simp [choice] at hrest
  | cons p ps ih =>
      unfold choice at hrest
      split at hrest
      · next after hafter =>
        obtain rfl : after = rest := by simpa using hrest
        exact (h p (by simp)).suffix hafter
      · exact ih (fun q hq => h q (by simp [hq])) hrest

theorem suffix_of_repeatedAtMost {p : Recogniser} (h : LeavesSuffix p) (fuel : Nat)
    {ts rest : List Token} (hrest : repeatedAtMost p fuel ts = some rest) : rest <:+ ts := by
  induction fuel generalizing ts with
  | zero =>
      obtain rfl : ts = rest := by simpa [repeatedAtMost] using hrest
      exact List.suffix_rfl
  | succ fuel ih =>
      unfold repeatedAtMost at hrest
      split at hrest
      · next after hafter =>
        split at hrest
        · exact (ih hrest).trans (h.suffix hafter)
        · obtain rfl : ts = rest := by simpa using hrest
          exact List.suffix_rfl
      · obtain rfl : ts = rest := by simpa using hrest
        exact List.suffix_rfl

instance (ps : List Recogniser) [h : AllLeaveSuffix ps] : LeavesSuffix (sequence ps) :=
  ⟨suffix_of_sequence h.each⟩

instance (ps : List Recogniser) [h : AllLeaveSuffix ps] : LeavesSuffix (choice ps) :=
  ⟨suffix_of_choice h.each⟩

section

variable (p separator : Recogniser) [h : LeavesSuffix p] [LeavesSuffix separator]

instance : LeavesSuffix (maybe p) where
  suffix {ts rest} hrest := by
    cases hp : p ts with
    | none =>
        obtain rfl : ts = rest := by simpa [maybe, hp] using hrest
        exact List.suffix_rfl
    | some after =>
        obtain rfl : after = rest := by simpa [maybe, hp] using hrest
        exact h.suffix hp

instance : LeavesSuffix (repeated p) := ⟨suffix_of_repeatedAtMost h _⟩

instance : LeavesSuffix (repeatedOnce p) := by
  unfold repeatedOnce
  infer_instance

instance : LeavesSuffix (separated separator p) := by
  unfold separated
  infer_instance

instance : LeavesSuffix (commaList p) := by
  unfold commaList
  infer_instance

instance : LeavesSuffix (looseCommaList p) := by
  unfold looseCommaList
  infer_instance

end

/-- Looking ahead takes nothing. -/
instance (p : Recogniser) : LeavesSuffix (ahead p) where
  suffix {ts rest} hrest := by
    unfold ahead at hrest
    split at hrest
    · obtain rfl : ts = rest := by simpa using hrest
      exact List.suffix_rfl
    · simp at hrest

instance (p : Recogniser) : LeavesSuffix (notAhead p) where
  suffix {ts rest} hrest := by
    unfold notAhead at hrest
    split at hrest
    · simp at hrest
    · obtain rfl : ts = rest := by simpa using hrest
      exact List.suffix_rfl

end Recogniser

open Recogniser

/-- The nested phrases of a level leave end parts of the tokens. -/
class Phrases.LeaveSuffix (l : Phrases) : Prop where
  type : LeavesSuffix l.type
  expression : LeavesSuffix l.expression
  pattern : LeavesSuffix l.pattern
  statement : LeavesSuffix l.statement

attribute [instance] Phrases.LeaveSuffix.type Phrases.LeaveSuffix.expression
  Phrases.LeaveSuffix.pattern Phrases.LeaveSuffix.statement

namespace Phrase

/-! ## Words -/

instance : LeavesSuffix openBrace := by unfold openBrace; infer_instance
instance : LeavesSuffix closeBrace := by unfold closeBrace; infer_instance
instance : LeavesSuffix name := by unfold name; infer_instance
instance : LeavesSuffix declaredName := by unfold declaredName; infer_instance
instance : LeavesSuffix modifier := by unfold modifier; infer_instance
instance : LeavesSuffix rightShift := by unfold rightShift; infer_instance

variable (l : Phrases) [l.LeaveSuffix]

/-! ## Types -/

instance : LeavesSuffix (typeArguments l) := by unfold typeArguments; infer_instance
instance : LeavesSuffix (simpleName l) := by unfold simpleName; infer_instance
instance : LeavesSuffix (qualifiedName l) := by unfold qualifiedName; infer_instance
instance : LeavesSuffix (arrayRank l) := by unfold arrayRank; infer_instance
instance : LeavesSuffix (tupleType l) := by unfold tupleType; dsimp only; infer_instance
instance : LeavesSuffix (functionPointer l) := by unfold functionPointer; dsimp only; infer_instance
instance : LeavesSuffix (typeHead l) := by unfold typeHead; infer_instance
instance : LeavesSuffix (type l) := by unfold type; infer_instance
instance : LeavesSuffix (unsizedType l) := by unfold unsizedType; dsimp only; infer_instance
instance : LeavesSuffix (typeInExpression l) := by unfold typeInExpression; infer_instance

/-! ## Attributes and parameters -/

instance : LeavesSuffix (attributeArgument l) := by unfold attributeArgument; infer_instance
instance : LeavesSuffix (attributeArguments l) := by unfold attributeArguments; infer_instance
instance : LeavesSuffix attributeTarget := by unfold attributeTarget; infer_instance
instance : LeavesSuffix (attributeList l) := by unfold attributeList; dsimp only; infer_instance
instance : LeavesSuffix (attributes l) := by unfold attributes; infer_instance
instance : LeavesSuffix (parameterModifiers l) := by unfold parameterModifiers; infer_instance
instance : LeavesSuffix (parameter l) := by unfold parameter; dsimp only; infer_instance
instance : LeavesSuffix (parameters l) := by unfold parameters; infer_instance
instance : LeavesSuffix (bracketedParameters l) := by unfold bracketedParameters; infer_instance
instance : LeavesSuffix (typeParameters l) := by unfold typeParameters; infer_instance
instance : LeavesSuffix (constraint l) := by unfold constraint; infer_instance
instance : LeavesSuffix (constraints l) := by unfold constraints; infer_instance

/-! ## Expressions -/

instance : LeavesSuffix (argument l) := by unfold argument; infer_instance
instance : LeavesSuffix (arguments l) := by unfold arguments; infer_instance
instance : LeavesSuffix (bracketedArguments l) := by unfold bracketedArguments; infer_instance
instance : LeavesSuffix (block l) := by unfold block; infer_instance
instance : LeavesSuffix (initialiser l) := by unfold initialiser; infer_instance
instance : LeavesSuffix (argumentsOfGeneric l) := by unfold argumentsOfGeneric; infer_instance
instance : LeavesSuffix (lambda l) := by unfold lambda; infer_instance
instance : LeavesSuffix (anonymousMethod l) := by unfold anonymousMethod; infer_instance
instance : LeavesSuffix (creation l) := by unfold creation; infer_instance
instance : LeavesSuffix (typeOperation l) := by unfold typeOperation; infer_instance
instance : LeavesSuffix (bracketed l) := by unfold bracketed; infer_instance
instance : LeavesSuffix (cast l) := by unfold cast; infer_instance
instance : LeavesSuffix (collection l) := by unfold collection; infer_instance

set_option synthInstance.maxSize 400 in
instance : LeavesSuffix (query l) := by unfold query; dsimp only; infer_instance

instance : LeavesSuffix literal := by unfold literal; infer_instance
instance : LeavesSuffix (primary l) := by unfold primary; infer_instance
instance : LeavesSuffix (selectedName l) := by unfold selectedName; infer_instance
instance : LeavesSuffix (arms l) := by unfold arms; infer_instance
instance : LeavesSuffix (suffix l) := by unfold suffix; infer_instance
instance : LeavesSuffix (leadOperator l) := by unfold leadOperator; infer_instance
instance : LeavesSuffix (operand l) := by unfold operand; infer_instance
instance : LeavesSuffix (continuation l) := by unfold continuation; dsimp only; infer_instance
instance : LeavesSuffix (expression l) := by unfold expression; infer_instance

/-! ## Patterns -/

instance : LeavesSuffix designation := by unfold designation; infer_instance
instance : LeavesSuffix (propertyPattern l) := by unfold propertyPattern; dsimp only; infer_instance
instance : LeavesSuffix (positionalPattern l) := by
  unfold positionalPattern; dsimp only; infer_instance
instance : LeavesSuffix (simplePattern l) := by unfold simplePattern; dsimp only; infer_instance
instance : LeavesSuffix (pattern l) := by unfold pattern; infer_instance

/-! ## Statements -/

instance : LeavesSuffix (functionBody l) := by unfold functionBody; infer_instance
instance : LeavesSuffix (declarator l) := by unfold declarator; infer_instance
instance : LeavesSuffix (declarators l) := by unfold declarators; infer_instance
instance : LeavesSuffix assignmentOperator := by unfold assignmentOperator; infer_instance

instance : LeavesSuffix (expressionStatement l) where
  suffix {ts rest} h := by
    unfold expressionStatement at h
    split at h
    · simp at h
    · next after hafter =>
      have hoperand : after <:+ ts := LeavesSuffix.suffix hafter
      split at h
      · next assigned hassigned =>
        obtain rfl : assigned = rest := by simpa using h
        exact (LeavesSuffix.suffix hassigned).trans hoperand
      · split at h
        · exact (LeavesSuffix.suffix h).trans hoperand
        · simp at h

set_option synthInstance.maxSize 1000 in
instance : LeavesSuffix (simpleStatement l) := by unfold simpleStatement; dsimp only; infer_instance

instance : LeavesSuffix (localFunction l) := by unfold localFunction; infer_instance
instance : LeavesSuffix (localVariables l) := by unfold localVariables; infer_instance
instance : LeavesSuffix (conditionalStatements l) := by
  unfold conditionalStatements; dsimp only; infer_instance
instance : LeavesSuffix (statement l) := by unfold statement; infer_instance

end Phrase

namespace Phrases

instance : LeaveSuffix none where
  type := ⟨by simp [none]⟩
  expression := ⟨by simp [none]⟩
  pattern := ⟨by simp [none]⟩
  statement := ⟨by simp [none]⟩

instance (l : Phrases) [l.LeaveSuffix] : LeaveSuffix l.above where
  type := inferInstanceAs (LeavesSuffix (Phrase.type l))
  expression := inferInstanceAs (LeavesSuffix (Phrase.expression l))
  pattern := inferInstanceAs (LeavesSuffix (Phrase.pattern l))
  statement := inferInstanceAs (LeavesSuffix (Phrase.statement l))

instance (depth : Nat) : LeaveSuffix (ofDepth depth) := by
  induction depth with
  | zero => exact inferInstanceAs (LeaveSuffix none)
  | succ depth ih => exact inferInstanceAs (LeaveSuffix (ofDepth depth).above)

end Phrases

end PlatformClasses.Source
