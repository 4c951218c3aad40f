import Mathlib.Data.Int.Cast.Basic
import PlatformClasses.Proofs.Draft.Desk

/-!
# The depths of drafts on a desk

The depths of drafts are natural numbers, and nothing is ever taken away from them: a depth is added to, or
it is set to one that was noted before.  To see that nothing is lost by this, `SignedSheet` is a sheet
whose depths may be any integers and which is written on line by line.  A desk of these sheets agrees with
the desk of drafts after any actions (`signed_afterAll`), so no depth ever falls below zero.

Together with what is known of blocks, this is what holds at any time of drafts that are filled side by side
(`keepsDepths_afterAll`).
-/

namespace PlatformClasses

/-! ## Depths that may be any integers -/

/-- A sheet whose depths may be any integers. -/
structure SignedSheet where
  depth : Int
  lines : List (Int × String)
  blocks : List (Option Int)
deriving Repr, DecidableEq

namespace SignedSheet

/-- A line with its depth; a blank line has depth zero. -/
def entry (depth : Int) (text : String) : Int × String := if text = "" then (0, "") else (depth, text)

/-- The sheet with a line added at a depth. -/
def add (s : SignedSheet) (depth : Int) (text : String) : SignedSheet :=
  { s with lines := s.lines ++ [entry depth text] }

/-- The sheet with a line added at its depth. -/
def line (s : SignedSheet) (text : String) : SignedSheet := s.add s.depth text

/-- The sheet with the lines of another one added, each as much deeper as the sheet is. -/
def splice (s other : SignedSheet) : SignedSheet :=
  other.lines.foldl (fun sheet l => sheet.add (s.depth + l.1) l.2) s

/-- The sheet after another block is entered. -/
def enter (s : SignedSheet) : SignedSheet :=
  { s with depth := s.depth + 1, blocks := s.blocks ++ [some s.depth] }

/-- The sheet after a block is left. -/
def leave (block : Nat) (s : SignedSheet) : SignedSheet :=
  match s.blocks[block]? with
  | some (some depth) => { s with depth := depth, blocks := s.blocks.set block none }
  | _ => s

/-- Sheets after an action. -/
def after (sheets : List SignedSheet) : Desk.Action → List SignedSheet
  | .fresh _ => sheets ++ [⟨0, [], []⟩]
  | .line i text => sheets.modify i (·.line text)
  | .lines i texts => sheets.modify i fun s => texts.foldl line s
  | .blank i => sheets.modify i (·.line "")
  | .splice i other _ =>
    match sheets[other]? with
    | none => sheets
    | some sheet => sheets.modify i (·.splice sheet)
  | .enter i => sheets.modify i enter
  | .leave i block _ => sheets.modify i (leave block)

/-- Sheets after several actions. -/
def afterAll (sheets : List SignedSheet) (actions : List Desk.Action) : List SignedSheet :=
  actions.foldl after sheets

end SignedSheet

/-- The sheet with its depths as integers. -/
def Sheet.signed (s : Sheet) : SignedSheet where
  depth := s.draft.depth
  lines := s.draft.lines.map fun l => ((l.depth : Int), l.text)
  blocks := s.blocks.map (·.map Nat.cast)

/-- The sheets of a desk with their depths as integers. -/
def Desk.signed (d : Desk) : List SignedSheet := d.sheets.map Sheet.signed

namespace Sheet

/-- A line stands at the depth of its sheet. -/
theorem signed_line (s : Sheet) (text : String) : (s.write (.line · text)).signed = s.signed.line text := by
  by_cases htext : text = ""
  · simp [signed, write, Draft.line, htext, SignedSheet.line, SignedSheet.add, SignedSheet.entry]
  · simp [signed, write, Draft.line, htext, SignedSheet.line, SignedSheet.add, SignedSheet.entry]

theorem signed_addLines (s : Sheet) (texts : List String) :
    (s.write (.addLines · texts)).signed = texts.foldl SignedSheet.line s.signed := by
  induction texts generalizing s with
  | nil => rfl
  | cons text rest ih =>
      rw [List.foldl_cons, ← signed_line, ← ih]
      rfl

/-- Lines that are added one by one. -/
theorem foldl_add (k : Int) (ls : List (Int × String)) (s : SignedSheet) :
    ls.foldl (fun sheet l => sheet.add (k + l.1) l.2) s =
      { s with lines := s.lines ++ ls.map fun l => SignedSheet.entry (k + l.1) l.2 } := by
  induction ls generalizing s with
  | nil => simp
  | cons l rest ih =>
      rw [List.foldl_cons, ih]
      simp [SignedSheet.add]

theorem signed_deepen (k : Nat) (l : DraftLine) :
    (((Draft.deepen k l).depth : Int), (Draft.deepen k l).text) =
      SignedSheet.entry (k + l.depth) l.text := by
  by_cases htext : l.text = ""
  · simp [Draft.deepen, SignedSheet.entry, htext]
  · simp [Draft.deepen, SignedSheet.entry, htext]

/-- Splicing puts the lines of the other sheet at the depth of this one. -/
theorem signed_splice (s other : Sheet) :
    (s.write (.splice · other.draft)).signed = s.signed.splice other.signed := by
  rw [SignedSheet.splice, foldl_add]
  simp [signed, write, signed_deepen]

/-- Entering a block goes one deeper. -/
theorem signed_enter (s : Sheet) : s.enter.signed = s.signed.enter := by
  simp [signed, enter, SignedSheet.enter, Draft.deeper]

/-- Leaving a block goes back to the depth before it. -/
theorem signed_leave (s : Sheet) (block : Nat) : (s.leave block).signed = s.signed.leave block := by
  have hnoted : s.signed.blocks[block]? = s.blocks[block]?.map (·.map Nat.cast) := List.getElem?_map
  unfold leave SignedSheet.leave
  rw [hnoted]
  cases s.blocks[block]? with
  | none => rfl
  | some noted =>
      cases noted with
      | none => rfl
      | some depth => simp [signed, Draft.atDepth]

end Sheet

namespace Desk

/-- What changes one sheet changes the signed sheet in its place. -/
theorem signed_change {f : Sheet → Sheet} {g : SignedSheet → SignedSheet}
    (h : ∀ s, (f s).signed = g s.signed) (i : Nat) (d : Desk) :
    (d.change i f).signed = d.signed.modify i g := by
  apply List.ext_getElem?
  intro j
  simp only [signed, change, List.getElem?_map, List.getElem?_modify]
  cases d.sheets[j]? with
  | none => rfl
  | some s =>
      by_cases hij : i = j
      · simp [hij, h]
      · simp [hij]

/-- An action does the same to sheets with depths that may be negative. -/
theorem signed_after (d : Desk) (a : Action) : (d.after a).signed = SignedSheet.after d.signed a := by
  cases a with
  | fresh indentSize => simp [after, signed, SignedSheet.after, Sheet.fresh, Sheet.signed, Draft.empty]
  | line i text => exact signed_change (fun s => s.signed_line text) i d
  | lines i texts => exact signed_change (fun s => s.signed_addLines texts) i d
  | blank i => exact signed_change (fun s => s.signed_line "") i d
  | splice i other _ =>
      have hother : d.signed[other]? = d.sheets[other]?.map Sheet.signed := List.getElem?_map
      simp only [after, SignedSheet.after, hother]
      cases d.sheets[other]? with
      | none => rfl
      | some sheet => exact signed_change (fun s => s.signed_splice sheet) i d
  | enter i => exact signed_change Sheet.signed_enter i d
  | leave i block _ => exact signed_change (fun s => s.signed_leave block) i d

/-- Any actions one after the other do the same to sheets with depths that may be negative. -/
theorem signed_afterAll (d : Desk) (actions : List Action) :
    (d.afterAll actions).signed = SignedSheet.afterAll d.signed actions := by
  induction actions generalizing d with
  | nil => rfl
  | cons a rest ih =>
      rw [afterAll_cons, ih, signed_after]
      rfl

/-- With integers for depths, no depth is below zero. -/
theorem signed_nonneg {d : Desk} {s : SignedSheet} (hs : s ∈ d.signed) :
    0 ≤ s.depth ∧ ∀ l ∈ s.lines, 0 ≤ l.1 := by
  obtain ⟨sheet, -, rfl⟩ := List.mem_map.1 hs
  refine ⟨Int.natCast_nonneg _, ?_⟩
  intro l hl
  obtain ⟨line, -, rfl⟩ := List.mem_map.1 hl
  exact Int.natCast_nonneg _

/-! ## What holds at any time -/

/-- What holds of the drafts on a desk as they are, and whatever is done to them next. -/
structure KeepsDepths (d : Desk) : Prop where
  /-- Blank lines have depth zero and are written without spaces. -/
  blank : ∀ s ∈ d.sheets, ∀ l ∈ s.draft.lines, l.text = "" →
    l.depth = 0 ∧ Draft.lineText s.draft.indentSize l = "\n"
  /-- The lines of a draft stay as they are, and others are added at the end. -/
  grows : ∀ (i : Nat) (s : Sheet), d.sheets[i]? = some s → ∀ actions,
    ∃ later, (d.afterAll actions).sheets[i]? = some later ∧ s.draft.lines <+: later.draft.lines
  /-- A block leads back to the depth at which it was entered when it is left for the first time,
  whatever is done in between and whether or not it fails. -/
  restores : ∀ (i : Nat) (s : Sheet), d.sheets[i]? = some s → ∀ actions,
    (∀ failure, .leave i s.blocks.length failure ∉ actions) → ∀ failure,
      (((d.after (.enter i)).afterAll actions).after (.leave i s.blocks.length failure)).depth? i =
        some s.draft.depth
  /-- Properly nested blocks lead back to the depth before them. -/
  nested : ∀ (i : Nat) (s : Sheet), d.sheets[i]? = some s → ∀ actions n,
    WellNested i s.blocks.length actions n →
      (d.afterAll actions).depth? i = some s.draft.depth

/-- Whatever is done at an empty desk, to any number of drafts and with their blocks left in any order, the
drafts keep their depths.  A desk where depths may be any integers has the same drafts then, and none of
its depths is below zero. -/
theorem keepsDepths_afterAll (actions : List Action) :
    (empty.afterAll actions).KeepsDepths ∧
      SignedSheet.afterAll [] actions = (empty.afterAll actions).signed ∧
      ∀ s ∈ SignedSheet.afterAll [] actions, 0 ≤ s.depth ∧ ∀ l ∈ s.lines, 0 ≤ l.1 := by
  have hsigned : SignedSheet.afterAll [] actions = (empty.afterAll actions).signed :=
    (signed_afterAll empty actions).symm
  refine ⟨⟨?_, ?_, ?_, ?_⟩, hsigned, ?_⟩
  · intro s hs l hl hblank
    have hdepth := blank_depth_afterAll actions hs hl hblank
    exact ⟨hdepth, Draft.lineText_of_blank hdepth hblank _⟩
  · exact fun i s hs more => lines_prefix_afterAll hs more
  · exact fun i s hs more hopen failure => depth_leave hs hopen failure
  · intro i s hs more n hnested
    obtain ⟨later, hlater, hdepth, -, -⟩ := hnested.exists_afterAll hs rfl
    rw [depth?, hlater, Option.map_some, hdepth]
  · rw [hsigned]
    exact fun s hs => signed_nonneg hs

/-- Two drafts with a block each, and a blank line in the second of them. -/
private def underWay : List Action :=
  [.fresh 4, .fresh 2, .enter 0, .enter 1, .line 1 "get;", .blank 1]

/-- The second block of the first draft is left after the first one, because of a failure, and the blocks of
the second draft are left while a block of the first one is open. -/
theorem keepsDepths_underWay :
    ((((empty.afterAll underWay).after (.enter 0)).afterAll
        [.splice 0 1 (by decide), .leave 0 0 none, .line 0 "set;"]).after
          (.leave 0 1 (some "stopped"))).depth? 0 = some 1 ∧
      ((empty.afterAll underWay).afterAll
        [.enter 1, .enter 0, .leave 1 1 (some "stopped"), .leave 0 1 none]).depth? 1 = some 1 := by
  have hkeeps := (keepsDepths_afterAll underWay).1
  refine ⟨hkeeps.restores 0 _ rfl _ (by simp [Sheet.enter]) _, hkeeps.nested 1 _ rfl _ 2 ?_⟩
  have hrest : WellNested 1 2 [.leave 0 1 none] 2 := .other (by decide) (.done 2)
  have hbody : WellNested 1 2 [.enter 0] 2 := .other (by decide) (.done 2)
  exact .block (some "stopped") hbody hrest

end Desk

end PlatformClasses
