import PlatformClasses.Proofs.Draft.Lines

/-!
# The lines of members

A member of a class is a block, a line with others in braces below it, or one or two lines.  Here is what
these lines are for each kind of member; its draft adds them and nothing else but what sets them apart.
-/

namespace PlatformClasses

open Draft

/-! ## Blocks -/

/-- A line with others in braces below it. -/
structure CodeBlock where
  head : String
  body : List String
deriving Repr, DecidableEq

/-- The lines of a block. -/
def CodeBlock.lines (b : CodeBlock) : List String := b.head :: "\x7b" :: (b.body ++ ["\x7d"])

/-- A block of plain lines adds its head, its braces and its body. -/
theorem Draft.filledLines_block {b : CodeBlock} (hhead : IsPlain b.head)
    (hbody : ∀ text ∈ b.body, IsPlain text) (d : Draft) :
    ((d.line b.head).braced fun d => d.addLines b.body).filledLines = d.filledLines ++ b.lines := by
  rw [filledLines_braced, filledLines_addLines_of_ne_blank fun text htext => (hbody text htext).ne_blank,
    filledLines_deeper, filledLines_line opening_ne_blank, filledLines_line hhead.ne_blank]
  simp [CodeBlock.lines]

/-- The property of the class. -/
def Accessor.ownBlock (a : Accessor) : CodeBlock where
  head := s!"public {a.backingType} {a.property}"
  body :=
    [s!"get => ({a.backingType}) GetValue({Descriptor.nameFor a.property});",
      s!"set => SetValue({Descriptor.nameFor a.property}, value);"]

/-- The explicit implementation of a declared property. -/
def Conversion.block (property : String) (c : Conversion) : CodeBlock where
  head := s!"{c.declaredType} {c.interfaceName}.{property}"
  body := [s!"get => {c.got};", s!"set => {property} = {c.set};"]

/-- The lines of a property of a class and of the explicit implementation of the declared one. -/
def Accessor.lines (a : Accessor) : List String :=
  a.ownBlock.lines ++ (a.conversion.map (Conversion.block a.property)).toList.flatMap CodeBlock.lines

/-- The extension method. -/
def ExtensionMethod.block (m : ExtensionMethod) : CodeBlock where
  head := s!"public static {m.interfaceName} {m.property}(this {m.interfaceName} {m.receiver}, " ++
    s!"{m.valueType} value)"
  body := [s!"{m.receiver}.{m.property} = value;", s!"return {m.receiver};"]

/-- A conversion adds the lines of its block. -/
theorem Accessor.filledLines_draftConversion (property : String) (c : Conversion) (d : Draft) :
    (draftConversion property c d).filledLines = d.filledLines ++ (c.block property).lines := by
  have hhead : IsPlain (c.block property).head := by
    show IsPlain s!"{c.declaredType} {c.interfaceName}.{property}"
    exact .of_blank (by simp [ToString.toString])
  have hget : IsPlain s!"get => {c.got};" := .of_blank (by simp [ToString.toString])
  have hset : IsPlain s!"set => {property} = {c.set};" := .of_blank (by simp [ToString.toString])
  exact Draft.filledLines_block hhead (List.forall_mem_cons.2 ⟨hget, List.forall_mem_singleton.2 hset⟩) d

theorem Accessor.filledLines_ownBlock (a : Accessor) (d : Draft) :
    ((d.line a.ownBlock.head).braced fun d => d.addLines a.ownBlock.body).filledLines =
      d.filledLines ++ a.ownBlock.lines := by
  have hhead : IsPlain s!"public {a.backingType} {a.property}" :=
    .of_blank (by simp [ToString.toString])
  have hget : IsPlain s!"get => ({a.backingType}) GetValue({Descriptor.nameFor a.property});" :=
    .of_blank (by simp [ToString.toString])
  have hset : IsPlain s!"set => SetValue({Descriptor.nameFor a.property}, value);" :=
    .of_blank (by simp [ToString.toString])
  exact Draft.filledLines_block hhead (List.forall_mem_cons.2 ⟨hget, List.forall_mem_singleton.2 hset⟩) d

/-- An accessor adds its own block and, if there is a conversion, the block of this. -/
theorem Accessor.filledLines_draft (a : Accessor) (d : Draft) :
    (a.draft d).filledLines = d.filledLines ++ a.lines := by
  let own := (d.separate.line a.ownBlock.head).braced fun d => d.addLines a.ownBlock.body
  have hown : own.filledLines = d.filledLines ++ a.ownBlock.lines := by
    rw [← Draft.filledLines_separate d]
    exact a.filledLines_ownBlock d.separate
  cases hconversion : a.conversion with
  | none =>
      have hdraft : a.draft d = own := by
        unfold draft
        rw [hconversion]
        rfl
      rw [hdraft, hown]
      simp [lines, hconversion]
  | some c =>
      have hdraft : a.draft d = draftConversion a.property c own := by
        unfold draft
        rw [hconversion]
        rfl
      rw [hdraft, filledLines_draftConversion, hown]
      simp [lines, hconversion]

/-- An extension method adds the lines of its block. -/
theorem ExtensionMethod.filledLines_draft (m : ExtensionMethod) (d : Draft) :
    (m.draft d).filledLines = d.filledLines ++ m.block.lines := by
  have hhead : IsPlain m.block.head := by
    dsimp only [block]
    exact .of_blank (by simp [ToString.toString])
  have hassign : IsPlain s!"{m.receiver}.{m.property} = value;" :=
    .of_blank (by simp [ToString.toString])
  have hreturn : IsPlain s!"return {m.receiver};" := .of_blank (by simp [ToString.toString])
  rw [← Draft.filledLines_separate d]
  exact Draft.filledLines_block hhead
    (List.forall_mem_cons.2 ⟨hassign, List.forall_mem_singleton.2 hreturn⟩) d.separate

/-- The line that gives a property a new object. -/
def Assignment.line (a : Assignment) : String := s!"{a.property} = new {a.type}();"

/-- The constructor that makes some assignments. -/
def Assignment.constructorBlock (className : String) (assignments : List Assignment) : CodeBlock where
  head := s!"public {className}()"
  body := assignments.map line

/-- A constructor adds a line for each assignment, in order. -/
theorem Assignment.filledLines_draftConstructor (className : String) (assignments : List Assignment)
    (d : Draft) : (draftConstructor className assignments d).filledLines =
      d.filledLines ++ (constructorBlock className assignments).lines := by
  have hhead : IsPlain s!"public {className}()" := .of_blank (by simp [ToString.toString])
  refine Draft.filledLines_block (b := constructorBlock className assignments) hhead ?_ d
  intro text htext
  obtain ⟨a, -, rfl⟩ := List.mem_map.1 htext
  unfold line
  exact .of_blank (by simp [ToString.toString])

/-! ## Wrappers and delegations -/

/-- A line, set apart from what is before, and perhaps another one below it. -/
theorem Draft.filledLines_oneOrTwo {first : String} {second : Option String} (hfirst : first ≠ "")
    (hsecond : ∀ text ∈ second, text ≠ "") (d : Draft) :
    (second.elim (d.separate.line first) (d.separate.line first).line).filledLines =
      d.filledLines ++ first :: second.toList := by
  have hone : (d.separate.line first).filledLines = d.filledLines ++ [first] := by
    rw [filledLines_line hfirst, filledLines_separate]
  cases second with
  | none => exact hone
  | some text =>
      show ((d.separate.line first).line text).filledLines = _
      rw [filledLines_line (hsecond text rfl), hone, List.append_assoc]
      rfl

namespace Wrapper

/-- The line of the static method that gets. -/
def getterLine (w : Wrapper) : String :=
  s!"public static {w.valueType} Get{w.property}({w.elementType} {w.element}) => " ++
    s!"({w.valueType}) {w.element}.GetValue({Descriptor.nameFor w.property});"

/-- The line of the static method that sets. -/
def setterLine (w : Wrapper) (value : String) : String :=
  s!"public static void Set{w.property}({w.elementType} {w.element}, {w.valueType} {value}) => " ++
    s!"{w.element}.SetValue({Descriptor.nameFor w.property}, {value});"

/-- The lines of the wrappers of an attached property. -/
def lines (w : Wrapper) : List String := w.getterLine :: (w.value.map w.setterLine).toList

theorem getterLine_ne_blank (w : Wrapper) : w.getterLine ≠ "" := by
  unfold getterLine
  exact (IsPlain.of_blank (by simp [ToString.toString])).ne_blank

theorem setterLine_ne_blank (w : Wrapper) (value : String) : w.setterLine value ≠ "" := by
  unfold setterLine
  exact (IsPlain.of_blank (by simp [ToString.toString])).ne_blank

/-- A wrapper adds its getter and, if it has one, its setter. -/
theorem filledLines_draft (w : Wrapper) (d : Draft) :
    (w.draft d).filledLines = d.filledLines ++ w.lines := by
  have hdraft : w.draft d = (w.value.map w.setterLine).elim (d.separate.line w.getterLine)
      (d.separate.line w.getterLine).line := by
    unfold draft
    cases w.value <;> rfl
  rw [hdraft]
  refine filledLines_oneOrTwo w.getterLine_ne_blank ?_ d
  intro text htext
  obtain ⟨value, -, rfl⟩ := Option.map_eq_some_iff.1 htext
  exact w.setterLine_ne_blank value

end Wrapper

/-- An expression, cast to a type. -/
def castTo (type expression : String) : String := s!"({type}) {expression}"

namespace Delegation

/-- The element, cast to the type that the wrappers take. -/
def native (m : Delegation) : String := castTo m.castType m.element

/-- The call of the wrapper that gets. -/
def call (className : String) (m : Delegation) : String :=
  s!"{className}.Get{m.property}({m.native})"

/-- The line of the method that gets. -/
def getterLine (className : String) (m : Delegation) : String :=
  s!"public {m.valueType} Get{m.property}({m.elementType} {m.element}) => {m.got (m.call className)};"

/-- The line of the method that sets. -/
def setterLine (className : String) (m : Delegation) (s : DelegatedSetter) : String :=
  s!"public void Set{m.property}({m.elementType} {m.element}, {m.valueType} {s.value}) => " ++
    s!"{className}.Set{m.property}({m.native}, {s.passed});"

/-- The lines of the methods that delegate to the wrappers of a class. -/
def lines (className : String) (m : Delegation) : List String :=
  m.getterLine className :: (m.setter.map (m.setterLine className)).toList

theorem getterLine_ne_blank (className : String) (m : Delegation) : m.getterLine className ≠ "" := by
  unfold getterLine
  exact (IsPlain.of_blank (by simp [ToString.toString])).ne_blank

theorem setterLine_ne_blank (className : String) (m : Delegation) (s : DelegatedSetter) :
    m.setterLine className s ≠ "" := by
  unfold setterLine
  exact (IsPlain.of_blank (by simp [ToString.toString])).ne_blank

theorem filledLines_draft (className : String) (m : Delegation) (d : Draft) :
    (m.draft className d).filledLines = d.filledLines ++ m.lines className := by
  have hdraft : m.draft className d = (m.setter.map (m.setterLine className)).elim
      (d.separate.line (m.getterLine className)) (d.separate.line (m.getterLine className)).line := by
    unfold draft
    cases m.setter <;> rfl
  rw [hdraft]
  refine filledLines_oneOrTwo (m.getterLine_ne_blank className) ?_ d
  intro text htext
  obtain ⟨s, -, rfl⟩ := Option.map_eq_some_iff.1 htext
  exact m.setterLine_ne_blank className s

end Delegation

end PlatformClasses
