import Mathlib.Data.List.Induction
import PlatformClasses.Draft.Desk

/-!
# Blocks of drafts on a desk

Blocks of drafts may be left in any order, and a draft that is put into another one takes its depths along.
`Does` says what one action can do to a draft: it adds lines at the depth that the draft has reached
(`Draft.fill`), or it enters or leaves one of its blocks.  A block that is entered, filled and left at once
is the one that classes are drafted with (`Sheet.leave_enter`).

What is noted for a block changes only when this very block is left (`noted_afterAll`), so leaving it
always leads back to the depth that it was entered at (`depth_leave`), and properly nested blocks lead back
to the depth before the first of them (`WellNested.exists_afterAll`).
-/

namespace PlatformClasses

namespace Draft

/-- The draft with lines added at its depth. -/
def fill (d : Draft) (ls : List DraftLine) : Draft :=
  { d with lines := d.lines ++ ls.map (deepen d.depth) }

theorem fill_nil (d : Draft) : d.fill [] = d := by simp [fill]

theorem line_eq_fill (d : Draft) (text : String) : d.line text = d.fill [⟨0, text⟩] := by
  by_cases htext : text = ""
  · simp [line, blank, fill, deepen, htext]
  · simp [line, fill, deepen, htext]

theorem addLines_eq_fill (d : Draft) (texts : List String) :
    d.addLines texts = d.fill (texts.map (⟨0, ·⟩)) := by
  induction texts generalizing d with
  | nil => exact (fill_nil d).symm
  | cons text rest ih =>
      show (d.line text).addLines rest = _
      rw [ih, line_eq_fill]
      simp [fill]

/-- A blank line that is added has depth zero. -/
theorem depth_of_mem_deepen {k : Nat} {ls : List DraftLine} {l : DraftLine}
    (hl : l ∈ ls.map (deepen k)) (hblank : l.text = "") : l.depth = 0 := by
  obtain ⟨l', -, rfl⟩ := List.mem_map.1 hl
  unfold deepen at hblank ⊢
  split at hblank
  · next htext => rw [if_pos htext]
  · next htext => exact absurd hblank htext

/-- A blank line of depth zero is written without spaces. -/
theorem lineText_of_blank {l : DraftLine} (hdepth : l.depth = 0) (hblank : l.text = "")
    (indentSize : Int) : lineText indentSize l = "\n" := by
  simp [lineText, indentation, hdepth, hblank]

end Draft

namespace Sheet

theorem leave_of_noted {s : Sheet} {block depth : Nat} (h : s.blocks[block]? = some (some depth)) :
    s.leave block = ⟨s.draft.atDepth depth, s.blocks.set block none⟩ := by
  unfold leave
  rw [h]

/-- Leaving a block leads to some depth, and nothing is noted for the block any more. -/
theorem leave_cases (s : Sheet) (block : Nat) :
    s.leave block = s ∨
      ∃ depth, s.leave block = ⟨s.draft.atDepth depth, s.blocks.set block none⟩ := by
  unfold leave
  split
  · next depth _ => exact .inr ⟨depth, rfl⟩
  · exact .inl rfl

/-- A block that is entered, filled and left is the one that classes are drafted with. -/
theorem leave_enter (s : Sheet) (body : Draft → Draft) :
    (s.enter.write body).leave s.blocks.length =
      ⟨s.draft.indented body, s.blocks ++ [none]⟩ := by
  have hnoted : (s.enter.write body).blocks[s.blocks.length]? = some (some s.draft.depth) := by
    simp [write, enter]
  rw [leave_of_noted hnoted]
  simp [write, enter, Draft.indented]

end Sheet

namespace Desk

/-! ## One action -/

/-- The draft that an action enters or leaves a block of. -/
def Action.shifted : Action → Option Nat
  | .enter i => some i
  | .leave i _ _ => some i
  | _ => none

/-- What an action does to the draft with a number. -/
inductive Does (i : Nat) (s : Sheet) : Action → Sheet → Prop
  /-- It adds lines, or none if it is about another draft. -/
  | fills {a : Action} (h : a.shifted ≠ some i) (ls : List DraftLine) :
      Does i s a (s.write (.fill · ls))
  | enters : Does i s (.enter i) s.enter
  | leaves (block : Nat) (failure : Option String) :
      Does i s (.leave i block failure) (s.leave block)

section OneAction

variable {d : Desk} {i : Nat} {s s' : Sheet} {a : Action}

theorem does_nothing (h : a.shifted ≠ some i) : Does i s a s := by
  have hfills := Does.fills (s := s) h []
  simpa only [Sheet.write, Draft.fill_nil] using hfills

/-- An action that adds lines to one of the drafts. -/
theorem does_fill (hs : d.sheets[i]? = some s) (h : a.shifted ≠ some i) (j : Nat)
    (ls : List DraftLine) :
    ∃ s', (d.change j (.write (.fill · ls))).sheets[i]? = some s' ∧ Does i s a s' := by
  by_cases hj : j = i
  · subst hj
    exact ⟨_, getElem?_change_self hs _, .fills h ls⟩
  · exact ⟨s, by rw [getElem?_change_of_ne hj, hs], does_nothing h⟩

/-- A draft stays where it is, and `Does` says what the action does to it. -/
theorem does_after (hs : d.sheets[i]? = some s) (a : Action) :
    ∃ s', (d.after a).sheets[i]? = some s' ∧ Does i s a s' := by
  have hlength : i < d.sheets.length := (List.getElem?_eq_some_iff.1 hs).1
  cases a with
  | fresh indentSize =>
      refine ⟨s, ?_, does_nothing (by simp [Action.shifted])⟩
      rw [after, List.getElem?_append_left hlength, hs]
  | line j text =>
      simp only [after, Draft.line_eq_fill]
      exact does_fill hs (by simp [Action.shifted]) j _
  | lines j texts =>
      simp only [after, Draft.addLines_eq_fill]
      exact does_fill hs (by simp [Action.shifted]) j _
  | blank j =>
      -- Adding a blank line is filling by definition, and so is splicing below.
      exact does_fill hs (by simp [Action.shifted]) j [⟨0, ""⟩]
  | splice j other _ =>
      simp only [after]
      split
      · exact ⟨s, hs, does_nothing (by simp [Action.shifted])⟩
      · next sheet _ => exact does_fill hs (by simp [Action.shifted]) j sheet.draft.lines
  | enter j =>
      by_cases hj : j = i
      · subst hj
        exact ⟨_, getElem?_change_self hs _, .enters⟩
      · refine ⟨s, ?_, does_nothing (by simp [Action.shifted, hj])⟩
        rw [after, getElem?_change_of_ne hj, hs]
  | leave j block failure =>
      by_cases hj : j = i
      · subst hj
        exact ⟨_, getElem?_change_self hs _, .leaves block failure⟩
      · refine ⟨s, ?_, does_nothing (by simp [Action.shifted, hj])⟩
        rw [after, getElem?_change_of_ne hj, hs]

/-- Lines are added at the end, and those of them that are blank have depth zero. -/
theorem Does.lines (h : Does i s a s') :
    ∃ ls : List DraftLine, s'.draft.lines = s.draft.lines ++ ls ∧ ∀ l ∈ ls, l.text = "" → l.depth = 0 := by
  have hnone : ∀ l ∈ ([] : List DraftLine), l.text = "" → l.depth = 0 := by simp
  cases h with
  | fills h ls => exact ⟨_, rfl, fun l hl => Draft.depth_of_mem_deepen hl⟩
  | enters => exact ⟨[], by simp [Sheet.enter, Draft.deeper], hnone⟩
  | leaves block failure =>
      obtain hsame | ⟨depth, hleave⟩ := s.leave_cases block
      · exact ⟨[], by simp [hsame], hnone⟩
      · exact ⟨[], by simp [hleave, Draft.atDepth], hnone⟩

/-- What is noted for a block stays until this block is left. -/
theorem Does.noted (h : Does i s a s') {block : Nat} (hother : ∀ failure, a ≠ .leave i block failure)
    (hblock : block < s.blocks.length) : s'.blocks[block]? = s.blocks[block]? := by
  cases h with
  | fills h ls => rfl
  | enters => exact List.getElem?_append_left hblock
  | leaves other failure =>
      have hne : other ≠ block := by
        rintro rfl
        exact hother failure rfl
      obtain hsame | ⟨depth, hleave⟩ := s.leave_cases other
      · rw [hsame]
      · rw [hleave, List.getElem?_set_ne hne]

theorem Does.of_not_shifted (h : Does i s a s') (ha : a.shifted ≠ some i) :
    s'.draft.depth = s.draft.depth ∧ s'.blocks = s.blocks := by
  cases h with
  | fills h ls => exact ⟨rfl, rfl⟩
  | enters => exact absurd rfl ha
  | leaves block failure => exact absurd rfl ha

/-- An action changes drafts that are there or begins another one. -/
theorem length_after (d : Desk) (a : Action) :
    (d.after a).sheets.length = d.sheets.length ∨
      ∃ indentSize, (d.after a).sheets = d.sheets ++ [.fresh indentSize] := by
  cases a with
  | fresh indentSize => exact .inr ⟨indentSize, rfl⟩
  | splice j other _ =>
      left
      simp only [after]
      split <;> simp [change]
  | _ => exact .inl (by simp [after, change])

theorem mem_after (h : s' ∈ (d.after a).sheets) :
    (∃ i, ∃ s ∈ d.sheets, Does i s a s') ∨ ∃ indentSize, s' = .fresh indentSize := by
  obtain ⟨i, hi⟩ := List.mem_iff_getElem?.1 h
  cases hs : d.sheets[i]? with
  | some s =>
      obtain ⟨s'', hs'', hdoes⟩ := does_after hs a
      obtain rfl : s' = s'' := by simpa [hi] using hs''
      exact .inl ⟨i, s, List.mem_of_getElem? hs, hdoes⟩
  | none =>
      have hbeyond := List.getElem?_eq_none_iff.1 hs
      rcases d.length_after a with hlength | ⟨indentSize, hfresh⟩
      · have hwithin := (List.getElem?_eq_some_iff.1 hi).1
        omega
      · rw [hfresh, List.getElem?_append_right hbeyond] at hi
        exact .inr ⟨indentSize, by simpa using List.mem_of_getElem? hi⟩

end OneAction

/-! ## Several actions -/

section Actions

variable {d : Desk} {i : Nat} {s : Sheet} {actions : List Action}

/-- What holds of a draft and is not ended by any of the actions holds of it after them. -/
theorem exists_afterAll {P : Sheet → Prop}
    (hkeeps : ∀ a ∈ actions, ∀ s s', Does i s a s' → P s → P s')
    (hs : d.sheets[i]? = some s) (h : P s) :
    ∃ later, (d.afterAll actions).sheets[i]? = some later ∧ P later := by
  induction actions generalizing d s with
  | nil => exact ⟨s, hs, h⟩
  | cons a rest ih =>
      obtain ⟨s', hs', hdoes⟩ := does_after hs a
      exact ih (fun b hb => hkeeps b (List.mem_cons_of_mem a hb)) hs'
        (hkeeps a List.mem_cons_self s s' hdoes h)

/-- Lines are only ever added, and at the end. -/
theorem lines_prefix_afterAll (hs : d.sheets[i]? = some s) (actions : List Action) :
    ∃ later, (d.afterAll actions).sheets[i]? = some later ∧
      s.draft.lines <+: later.draft.lines := by
  refine exists_afterAll (P := fun later => s.draft.lines <+: later.draft.lines) ?_ hs
    (List.prefix_refl _)
  intro a _ sheet sheet' hdoes hprefix
  obtain ⟨ls, hlines, -⟩ := hdoes.lines
  rw [hlines]
  exact hprefix.trans (List.prefix_append _ ls)

/-- What is noted for a block stays until this block is left, whatever other blocks are left before. -/
theorem noted_afterAll (hs : d.sheets[i]? = some s) {block depth : Nat}
    (hnoted : s.blocks[block]? = some (some depth))
    (hopen : ∀ failure, .leave i block failure ∉ actions) :
    ∃ later, (d.afterAll actions).sheets[i]? = some later ∧
      later.blocks[block]? = some (some depth) := by
  refine exists_afterAll (P := fun later => later.blocks[block]? = some (some depth)) ?_ hs hnoted
  intro a ha sheet sheet' hdoes hsheet
  have hother : ∀ failure, a ≠ .leave i block failure := by
    rintro failure rfl
    exact hopen failure ha
  rw [hdoes.noted hother (List.getElem?_eq_some_iff.1 hsheet).1, hsheet]

theorem getElem?_leave (hs : d.sheets[i]? = some s) {block depth : Nat}
    (hnoted : s.blocks[block]? = some (some depth)) (failure : Option String) :
    (d.after (.leave i block failure)).sheets[i]? =
      some ⟨s.draft.atDepth depth, s.blocks.set block none⟩ := by
  rw [after, getElem?_change_self hs, Sheet.leave_of_noted hnoted]

theorem noted_enter (s : Sheet) : s.enter.blocks[s.blocks.length]? = some (some s.draft.depth) := by
  simp [Sheet.enter]

/-- Leaving a block leads back to the depth at which it was entered. -/
theorem depth_leave (hs : d.sheets[i]? = some s)
    (hopen : ∀ failure, .leave i s.blocks.length failure ∉ actions) (failure : Option String) :
    (((d.after (.enter i)).afterAll actions).after (.leave i s.blocks.length failure)).depth? i =
      some s.draft.depth := by
  have hentered : (d.after (.enter i)).sheets[i]? = some s.enter := getElem?_change_self hs _
  obtain ⟨later, hlater, hnoted⟩ := noted_afterAll hentered (noted_enter s) hopen
  rw [depth?, getElem?_leave hlater hnoted]
  rfl

/-- Blank lines have depth zero at any time. -/
theorem blank_depth_afterAll (actions : List Action) {s : Sheet}
    (hs : s ∈ (empty.afterAll actions).sheets) {l : DraftLine} (hl : l ∈ s.draft.lines)
    (hblank : l.text = "") : l.depth = 0 := by
  induction actions using List.reverseRecOn generalizing s l with
  | nil => simp [empty] at hs
  | append_singleton actions a ih =>
      rw [afterAll_append] at hs
      rcases mem_after hs with ⟨i, before, hbefore, hdoes⟩ | ⟨indentSize, rfl⟩
      · obtain ⟨ls, hlines, hnew⟩ := hdoes.lines
        rw [hlines] at hl
        rcases List.mem_append.1 hl with hold | hadded
        · exact ih hbefore hold hblank
        · exact hnew l hadded hblank
      · simp [Sheet.fresh, Draft.empty] at hl

end Actions

/-! ## Nested blocks -/

/-- Actions among which the blocks of a draft are properly nested: a block that is entered is left later,
carried out or broken off, and the blocks that are entered in between are nested within it.  The numbers
say how many blocks have been entered before these actions and after them.  What is done to other drafts
and their blocks may stand anywhere. -/
inductive WellNested (i : Nat) : Nat → List Action → Nat → Prop
  | done (n : Nat) : WellNested i n [] n
  | other {n m : Nat} {a : Action} {rest : List Action} (h : a.shifted ≠ some i)
      (hrest : WellNested i n rest m) : WellNested i n (a :: rest) m
  | block {n m k : Nat} {body rest : List Action} (failure : Option String)
      (hbody : WellNested i (n + 1) body m) (hrest : WellNested i m rest k) :
      WellNested i n (.enter i :: (body ++ .leave i n failure :: rest)) k

/-- Nested blocks lead back to the depth before them and change nothing that was noted before. -/
theorem WellNested.exists_afterAll {i n m : Nat} {actions : List Action}
    (h : WellNested i n actions m) {d : Desk} {s : Sheet} (hs : d.sheets[i]? = some s)
    (hn : s.blocks.length = n) :
    ∃ later, (d.afterAll actions).sheets[i]? = some later ∧ later.draft.depth = s.draft.depth ∧
      later.blocks.length = m ∧ s.blocks <+: later.blocks := by
  induction h generalizing d s with
  | done n => exact ⟨s, hs, rfl, hn, List.prefix_refl _⟩
  | @other n m a rest h _ ih =>
      obtain ⟨s', hs', hdoes⟩ := does_after hs a
      obtain ⟨hdepth, hblocks⟩ := hdoes.of_not_shifted h
      obtain ⟨later, hlater, hend⟩ := ih hs' (by rw [hblocks, hn])
      rw [hdepth, hblocks] at hend
      exact ⟨later, hlater, hend⟩
  | @block n m k body rest failure _ _ ihbody ihrest =>
      have hentered : (d.after (.enter i)).sheets[i]? = some s.enter := getElem?_change_self hs _
      obtain ⟨inner, hinner, -, hlength, more, hblocks⟩ :=
        ihbody hentered (by simp [Sheet.enter, hn])
      -- The block itself is the last one noted at its entry, and the body has left that alone.
      rw [Sheet.enter, List.append_assoc, List.singleton_append] at hblocks
      have hnoted : inner.blocks[n]? = some (some s.draft.depth) := by
        rw [← hblocks, ← hn]
        simp
      have hleft := getElem?_leave hinner hnoted failure
      obtain ⟨later, hlater, hdepth, hend, hkept⟩ := ihrest hleft (by simp [hlength])
      have hset : inner.blocks.set n none = s.blocks ++ none :: more := by
        rw [← hblocks, ← hn, List.set_append_right _ _ (Nat.le_refl _)]
        simp
      refine ⟨later, ?_, hdepth, hend, ?_⟩
      · rw [afterAll_cons, afterAll_append, afterAll_cons]
        exact hlater
      · refine List.IsPrefix.trans ?_ hkept
        rw [hset]
        exact List.prefix_append _ _

end Desk

end PlatformClasses
