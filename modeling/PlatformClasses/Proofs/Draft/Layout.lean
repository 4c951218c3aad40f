import Mathlib.Data.List.Chain
import PlatformClasses.Draft

/-!
# The layout of drafts

`WellLaid` says of the lines of a draft that braces are balanced, that every line is as deep as the
braces around it, and that blank lines only separate other lines.  It speaks about every place in the
list and all neighbours, so it is not proved of drafts directly: `Block` generates well laid lines from
single lines, and every operation on drafts that generated classes use adds a block
(`Draft.Continues`).

A block is deepened as a whole, which is what lets a draft that was filled on its own be put into
another one at any depth.
-/

namespace PlatformClasses

/-- A text that is neither blank nor a brace. -/
structure IsPlain (text : String) : Prop where
  ne_blank : text ≠ ""
  ne_opening : text ≠ "\x7b"
  ne_closing : text ≠ "\x7d"

theorem opening_ne_blank : ("\x7b" : String) ≠ "" := by decide

theorem closing_ne_blank : ("\x7d" : String) ≠ "" := by decide

theorem opening_ne_closing : ("\x7b" : String) ≠ "\x7d" := by decide

/-- One character that is no brace makes a text plain. -/
theorem IsPlain.of_mem (c : Char) {text : String} (h : c ∈ text.toList) (hopening : c ≠ '\x7b')
    (hclosing : c ≠ '\x7d') : IsPlain text := by
  constructor
  · rintro rfl
    simp at h
  · rintro rfl
    exact hopening (by simpa using h)
  · rintro rfl
    exact hclosing (by simpa using h)

/-- A text with a space in it is plain, since braces stand alone on their lines. -/
theorem IsPlain.of_blank {text : String} (h : ' ' ∈ text.toList) : IsPlain text :=
  .of_mem ' ' h (by decide) (by decide)

/-! ## Well laid lines -/

/-- The number of opening braces among lines. -/
def opened (ls : List DraftLine) : Nat := ls.countP (·.text == "\x7b")

/-- The number of closing braces among lines. -/
def closed (ls : List DraftLine) : Nat := ls.countP (·.text == "\x7d")

@[simp] theorem opened_nil : opened [] = 0 := rfl

@[simp] theorem closed_nil : closed [] = 0 := rfl

@[simp] theorem opened_append (ls ms : List DraftLine) :
    opened (ls ++ ms) = opened ls + opened ms := List.countP_append ..

@[simp] theorem closed_append (ls ms : List DraftLine) :
    closed (ls ++ ms) = closed ls + closed ms := List.countP_append ..

theorem opened_cons (l : DraftLine) (ls : List DraftLine) :
    opened (l :: ls) = opened ls + if l.text = "\x7b" then 1 else 0 := by
  simp [opened, List.countP_cons]

theorem closed_cons (l : DraftLine) (ls : List DraftLine) :
    closed (l :: ls) = closed ls + if l.text = "\x7d" then 1 else 0 := by
  simp [closed, List.countP_cons]

/-- The braces among lines that stand inside of `n` others are balanced, and every line that is not
blank is as deep as there are braces around it.  A closing brace is not inside of itself. -/
structure Nested (n : Nat) (ls : List DraftLine) : Prop where
  balanced : closed ls = opened ls
  closed_le : ∀ before after, ls = before ++ after → closed before ≤ opened before
  depth_add : ∀ before l after, ls = before ++ l :: after → l.text ≠ "" →
    l.depth + closed (before ++ [l]) = n + opened before

/-- What may stand directly above what: a blank line neither above another one or a closing brace, nor
below an opening brace. -/
structure MayPrecede (above below : DraftLine) : Prop where
  after_blank : above.text = "" → below.text ≠ "" ∧ below.text ≠ "\x7d"
  before_blank : below.text = "" → above.text ≠ "\x7b"

/-- The lines of a well laid text: nested, and blank only between others. -/
structure WellLaid (ls : List DraftLine) : Prop where
  nested : Nested 0 ls
  blank_depth : ∀ l ∈ ls, l.text = "" → l.depth = 0
  first : ∀ l ∈ ls.head?, l.text ≠ ""
  last : ∀ l ∈ ls.getLast?, l.text ≠ ""
  spaced : ls.IsChain MayPrecede

/-! ## Blocks -/

/-- Lines of a given depth: a plain line, a block after another one or below it with a blank line
between them, and braces around nothing or around a deeper block. -/
inductive Block : Nat → List DraftLine → Prop
  | line {n : Nat} {text : String} (h : IsPlain text) : Block n [⟨n, text⟩]
  | append {n : Nat} {ls ms : List DraftLine} (hls : Block n ls) (hms : Block n ms) :
    Block n (ls ++ ms)
  | separated {n : Nat} {ls ms : List DraftLine} (hls : Block n ls) (hms : Block n ms) :
    Block n (ls ++ ⟨0, ""⟩ :: ms)
  | braces {n : Nat} : Block n [⟨n, "\x7b"⟩, ⟨n, "\x7d"⟩]
  | braced {n : Nat} {ls : List DraftLine} (h : Block (n + 1) ls) :
    Block n (⟨n, "\x7b"⟩ :: (ls ++ [⟨n, "\x7d"⟩]))

theorem deepen_of_ne {n : Nat} (k : Nat) {text : String} (h : text ≠ "") :
    Draft.deepen k ⟨n, text⟩ = ⟨k + n, text⟩ := if_neg h

theorem deepen_blank (k : Nat) : Draft.deepen k ⟨0, ""⟩ = ⟨0, ""⟩ := rfl

/-- A block stays one when it is moved down. -/
theorem Block.deepen (k : Nat) {n : Nat} {ls : List DraftLine} (h : Block n ls) :
    Block (k + n) (ls.map (Draft.deepen k)) := by
  have hopening (n : Nat) : Draft.deepen k ⟨n, "\x7b"⟩ = ⟨k + n, "\x7b"⟩ :=
    deepen_of_ne k opening_ne_blank
  have hclosing (n : Nat) : Draft.deepen k ⟨n, "\x7d"⟩ = ⟨k + n, "\x7d"⟩ :=
    deepen_of_ne k closing_ne_blank
  induction h with
  | line htext =>
      rw [List.map_singleton, deepen_of_ne k htext.ne_blank]
      exact .line htext
  | append _ _ ihls ihms =>
      rw [List.map_append]
      exact .append ihls ihms
  | separated _ _ ihls ihms =>
      rw [List.map_append, List.map_cons, deepen_blank]
      exact .separated ihls ihms
  | braces =>
      rw [List.map_cons, List.map_singleton, hopening, hclosing]
      exact .braces
  | braced _ ih =>
      rw [List.map_cons, List.map_append, List.map_singleton, hopening, hclosing]
      exact .braced ih

/-! ### Blocks are nested -/

/-- A line of two lists is a line of the first, or one of the second after all of the first. -/
theorem append_eq_append_cons_cases {α : Type} {xs ys before after : List α} {l : α}
    (h : xs ++ ys = before ++ l :: after) :
    (∃ more, before = xs ++ more ∧ ys = more ++ l :: after) ∨ ∃ more, xs = before ++ l :: more := by
  rcases List.append_eq_append_iff.1 h with hsecond | ⟨more, hxs, hmore⟩
  · exact .inl hsecond
  · cases more with
    | nil => exact .inl ⟨[], by simpa using hxs.symm, hmore.symm⟩
    | cons first more =>
        obtain ⟨rfl, -⟩ := List.cons.inj hmore
        exact .inr ⟨more, hxs⟩

theorem nested_nil (n : Nat) : Nested n [] where
  balanced := rfl
  closed_le := by
    intro before after h
    obtain ⟨rfl, -⟩ := List.append_eq_nil_iff.1 h.symm
    exact le_rfl
  depth_add := by
    intro before l after h
    simp at h

/-- A line that is no brace is nested if it stands at the depth. -/
theorem nested_line {n : Nat} {l : DraftLine} (hopening : l.text ≠ "\x7b")
    (hclosing : l.text ≠ "\x7d") (hdepth : l.text ≠ "" → l.depth = n) : Nested n [l] where
  balanced := by simp [opened_cons, closed_cons, hopening, hclosing]
  closed_le := by
    intro before after h
    rcases List.singleton_eq_append_iff.1 h with ⟨rfl, -⟩ | ⟨rfl, -⟩
    · exact le_rfl
    · simp [opened_cons, closed_cons, hopening, hclosing]
  depth_add := by
    intro before l' after h hne
    obtain ⟨rfl, hline⟩ | ⟨-, hnone⟩ := List.singleton_eq_append_iff.1 h
    · obtain ⟨rfl, -⟩ := List.cons.inj hline
      simp [closed_cons, hclosing, hdepth hne]
    · simp at hnone

/-- Nested lines after nested lines are nested. -/
theorem Nested.append {n : Nat} {ls ms : List DraftLine} (hls : Nested n ls) (hms : Nested n ms) :
    Nested n (ls ++ ms) where
  balanced := by rw [closed_append, opened_append, hls.balanced, hms.balanced]
  closed_le := by
    intro before after h
    rcases List.append_eq_append_iff.1 h with ⟨more, rfl, hmore⟩ | ⟨more, hfirst, -⟩
    · have hbalanced := hls.balanced
      have hle := hms.closed_le more after hmore
      rw [closed_append, opened_append]
      omega
    · exact hls.closed_le before more hfirst
  depth_add := by
    intro before l after h hne
    rcases append_eq_append_cons_cases h with ⟨more, rfl, hmore⟩ | ⟨more, hfirst⟩
    · have hbalanced := hls.balanced
      have hdepth := hms.depth_add more l after hmore hne
      rw [List.append_assoc, closed_append, opened_append]
      omega
    · exact hls.depth_add before l more hfirst hne

/-- Braces around nested lines, of which there may be none. -/
theorem Nested.braced {n : Nat} {ls : List DraftLine} (h : Nested (n + 1) ls) :
    Nested n (⟨n, "\x7b"⟩ :: (ls ++ [⟨n, "\x7d"⟩])) where
  balanced := by simp [opened_cons, closed_cons, h.balanced]
  closed_le := by
    intro before after hsplit
    cases before with
    | nil => exact le_rfl
    | cons first before =>
        obtain ⟨rfl, hrest⟩ := List.cons.inj hsplit
        have hle : closed before ≤ opened before + 1 := by
          rcases List.append_eq_append_iff.1 hrest with ⟨more, rfl, hclosing⟩ | ⟨more, hinside, -⟩
          · have hbalanced := h.balanced
            have hmore : closed more ≤ 1 := by
              rcases List.singleton_eq_append_iff.1 hclosing with ⟨rfl, -⟩ | ⟨rfl, -⟩
              · exact Nat.zero_le 1
              · simp [closed_cons]
            rw [closed_append, opened_append]
            omega
          · have hinner := h.closed_le before more hinside
            omega
        rw [opened_cons, closed_cons, if_pos rfl, if_neg opening_ne_closing]
        omega
  depth_add := by
    intro before l after hsplit hne
    cases before with
    | nil =>
        obtain ⟨rfl, -⟩ := List.cons.inj hsplit
        simp [closed_cons]
    | cons first before =>
        obtain ⟨rfl, hrest⟩ := List.cons.inj hsplit
        rcases append_eq_append_cons_cases hrest with ⟨more, rfl, hclosing⟩ | ⟨more, hinside⟩
        · obtain ⟨rfl, hline⟩ | ⟨-, hnone⟩ := List.singleton_eq_append_iff.1 hclosing
          · obtain ⟨rfl, -⟩ := List.cons.inj hline
            have hbalanced := h.balanced
            simp [opened_cons, closed_cons]
            omega
          · simp at hnone
        · have hdepth := h.depth_add before l more hinside hne
          rw [List.cons_append, opened_cons, closed_cons, if_pos rfl, if_neg opening_ne_closing]
          omega

/-- A block is nested. -/
theorem Block.nested {n : Nat} {ls : List DraftLine} (h : Block n ls) : Nested n ls := by
  induction h with
  | line htext => exact nested_line htext.ne_opening htext.ne_closing fun _ => rfl
  | append _ _ ihls ihms => exact ihls.append ihms
  | @separated n _ ms _ _ ihls ihms =>
      have hblank : Nested n [⟨0, ""⟩] :=
        nested_line (by decide) (by decide) fun hne => absurd rfl hne
      exact ihls.append (hblank.append ihms)
  | @braces n => exact (nested_nil (n + 1)).braced
  | braced _ ih => exact ih.braced

/-! ### Blocks are spaced -/

/-- Blank lines stand between others only, and nothing is wrong at the ends if more lines follow or go
before. -/
structure Spaced (ls : List DraftLine) : Prop where
  blank_depth : ∀ l ∈ ls, l.text = "" → l.depth = 0
  chain : ls.IsChain MayPrecede
  first : ∃ l, ls.head? = some l ∧ l.text ≠ "" ∧ l.text ≠ "\x7d"
  last : ∃ l, ls.getLast? = some l ∧ l.text ≠ "" ∧ l.text ≠ "\x7b"

/-- Only blank lines care about their neighbours. -/
theorem mayPrecede_of_ne_blank {above below : DraftLine} (habove : above.text ≠ "")
    (hbelow : below.text ≠ "") : MayPrecede above below :=
  ⟨fun h => absurd h habove, fun h => absurd h hbelow⟩

theorem spaced_line {n : Nat} {text : String} (h : IsPlain text) : Spaced [⟨n, text⟩] where
  blank_depth := by
    intro l hl hblank
    obtain rfl : l = ⟨n, text⟩ := by simpa using hl
    exact absurd hblank h.ne_blank
  chain := .singleton _
  first := ⟨_, rfl, h.ne_blank, h.ne_closing⟩
  last := ⟨_, rfl, h.ne_blank, h.ne_opening⟩

/-- Spaced lines after spaced lines are spaced. -/
theorem Spaced.append {ls ms : List DraftLine} (hls : Spaced ls) (hms : Spaced ms) :
    Spaced (ls ++ ms) := by
  obtain ⟨first, hfirst, hfirstText⟩ := hls.first
  obtain ⟨last, hlast, hlastText⟩ := hms.last
  obtain ⟨above, habove, haboveText⟩ := hls.last
  obtain ⟨below, hbelow, hbelowText⟩ := hms.first
  constructor
  · intro l hl
    rcases List.mem_append.1 hl with hleft | hright
    · exact hls.blank_depth l hleft
    · exact hms.blank_depth l hright
  · refine hls.chain.append hms.chain fun x hx y hy => ?_
    obtain rfl : above = x := by simpa [habove] using hx
    obtain rfl : below = y := by simpa [hbelow] using hy
    exact mayPrecede_of_ne_blank haboveText.1 hbelowText.1
  · exact ⟨first, by simp [List.head?_append, hfirst], hfirstText⟩
  · exact ⟨last, by simp [List.getLast?_append, hlast], hlastText⟩

/-- Spaced lines with a blank line between them are spaced. -/
theorem Spaced.separated {ls ms : List DraftLine} (hls : Spaced ls) (hms : Spaced ms) :
    Spaced (ls ++ ⟨0, ""⟩ :: ms) := by
  obtain ⟨first, hfirst, hfirstText⟩ := hls.first
  obtain ⟨last, hlast, hlastText⟩ := hms.last
  obtain ⟨above, habove, haboveText⟩ := hls.last
  obtain ⟨below, hbelow, hbelowText⟩ := hms.first
  constructor
  · intro l hl hblank
    rcases List.mem_append.1 hl with hleft | hright
    · exact hls.blank_depth l hleft hblank
    · rcases List.mem_cons.1 hright with rfl | hmem
      · rfl
      · exact hms.blank_depth l hmem hblank
  · have hblank : ((⟨0, ""⟩ : DraftLine) :: ms).IsChain MayPrecede := by
      refine hms.chain.cons fun y hy => ?_
      obtain rfl : below = y := by simpa [hbelow] using hy
      exact ⟨fun _ => hbelowText, fun h => absurd h hbelowText.1⟩
    refine hls.chain.append hblank fun x hx y hy => ?_
    obtain rfl : above = x := by simpa [habove] using hx
    exact ⟨fun h => absurd h haboveText.1, fun _ => haboveText.2⟩
  · exact ⟨first, by simp [List.head?_append, hfirst], hfirstText⟩
  · exact ⟨last, by simp [List.getLast?_append, List.getLast?_cons, hlast], hlastText⟩

theorem spaced_braces (n : Nat) : Spaced [⟨n, "\x7b"⟩, ⟨n, "\x7d"⟩] where
  blank_depth := by simp
  chain := by
    refine List.IsChain.cons_cons ?_ (.singleton _)
    exact mayPrecede_of_ne_blank opening_ne_blank closing_ne_blank
  first := ⟨_, rfl, opening_ne_blank, opening_ne_closing⟩
  last := ⟨_, rfl, closing_ne_blank, opening_ne_closing.symm⟩

/-- Spaced lines in braces are spaced. -/
theorem Spaced.braced {ls : List DraftLine} (n : Nat) (h : Spaced ls) :
    Spaced (⟨n, "\x7b"⟩ :: (ls ++ [⟨n, "\x7d"⟩])) := by
  obtain ⟨above, habove, haboveText⟩ := h.last
  obtain ⟨below, hbelow, hbelowText⟩ := h.first
  constructor
  · intro l hl hblank
    rcases List.mem_cons.1 hl with rfl | hrest
    · simp at hblank
    · rcases List.mem_append.1 hrest with hmem | hclosing
      · exact h.blank_depth l hmem hblank
      · obtain rfl : l = ⟨n, "\x7d"⟩ := by simpa using hclosing
        simp at hblank
  · have hclosed : (ls ++ [(⟨n, "\x7d"⟩ : DraftLine)]).IsChain MayPrecede := by
      refine h.chain.append (.singleton _) fun x hx y hy => ?_
      obtain rfl : above = x := by simpa [habove] using hx
      obtain rfl : (⟨n, "\x7d"⟩ : DraftLine) = y := by simpa using hy
      exact mayPrecede_of_ne_blank haboveText.1 closing_ne_blank
    refine hclosed.cons fun y hy => ?_
    obtain rfl : below = y := by simpa [List.head?_append, hbelow] using hy
    exact mayPrecede_of_ne_blank opening_ne_blank hbelowText.1
  · exact ⟨_, rfl, opening_ne_blank, opening_ne_closing⟩
  · exact ⟨⟨n, "\x7d"⟩, by simp [List.getLast?_cons, List.getLast?_append], closing_ne_blank,
      opening_ne_closing.symm⟩

/-- A block is spaced. -/
theorem Block.spaced {n : Nat} {ls : List DraftLine} (h : Block n ls) : Spaced ls := by
  induction h with
  | line htext => exact spaced_line htext
  | append _ _ ihls ihms => exact ihls.append ihms
  | separated _ _ ihls ihms => exact ihls.separated ihms
  | braces => exact spaced_braces _
  | braced _ ih => exact ih.braced _

/-- Blocks of depth zero are well laid. -/
theorem Block.wellLaid {ls : List DraftLine} (h : Block 0 ls) : WellLaid ls := by
  obtain ⟨first, hfirst, hfirstText, -⟩ := h.spaced.first
  obtain ⟨last, hlast, hlastText, -⟩ := h.spaced.last
  constructor
  · exact h.nested
  · exact h.spaced.blank_depth
  · intro l hl
    obtain rfl : first = l := by simpa [hfirst] using hl
    exact hfirstText
  · intro l hl
    obtain rfl : last = l := by simpa [hlast] using hl
    exact hlastText
  · exact h.spaced.chain

/-! ## Drafts that grow by blocks -/

namespace Draft

/-- A draft is another one with a block of its depth added. -/
structure Continues (d d' : Draft) : Prop where
  depth : d'.depth = d.depth
  lines : ∃ ls, Block d.depth ls ∧ d'.lines = d.lines ++ ls

/-- Going on twice is going on. -/
theorem Continues.trans {d d' d'' : Draft} (h : Continues d d') (h' : Continues d' d'') :
    Continues d d'' := by
  obtain ⟨ls, hls, hlines⟩ := h.lines
  obtain ⟨ms, hms, hlines'⟩ := h'.lines
  refine ⟨h'.depth.trans h.depth, ls ++ ms, .append hls (h.depth ▸ hms), ?_⟩
  rw [hlines', hlines, List.append_assoc]

/-- Two blocks with a blank line between them. -/
theorem Continues.separated {d d' d'' : Draft} (h : Continues d d') (h' : Continues d'.blank d'') :
    Continues d d'' := by
  obtain ⟨ls, hls, hlines⟩ := h.lines
  obtain ⟨ms, hms, hlines'⟩ := h'.lines
  refine ⟨h'.depth.trans h.depth, ls ++ ⟨0, ""⟩ :: ms, .separated hls (h.depth ▸ hms), ?_⟩
  rw [hlines', lines_blank, hlines]
  simp

/-- A line that is not blank is added at the depth of the draft. -/
theorem lines_line {text : String} (h : text ≠ "") (d : Draft) :
    (d.line text).lines = d.lines ++ [⟨d.depth, text⟩] := by
  rw [line, if_neg h]

/-- A plain line goes on well laid. -/
theorem continues_line {text : String} (h : IsPlain text) (d : Draft) : Continues d (d.line text) :=
  ⟨depth_line d text, [⟨d.depth, text⟩], .line h, lines_line h.ne_blank d⟩

/-- Several plain lines are a block unless there are none. -/
theorem continues_addLines {texts : List String} (h : ∀ text ∈ texts, IsPlain text) (d : Draft) :
    d.addLines texts = d ∨ Continues d (d.addLines texts) := by
  induction texts generalizing d with
  | nil => exact .inl rfl
  | cons text rest ih =>
      have hfirst := continues_line (h text List.mem_cons_self) d
      have hadd : d.addLines (text :: rest) = (d.line text).addLines rest := rfl
      rw [hadd]
      rcases ih (fun s hs => h s (List.mem_cons_of_mem text hs)) (d.line text) with heq | hrest
      · rw [heq]
        exact .inr hfirst
      · exact .inr (hfirst.trans hrest)

/-- What is in braces is a block, or there is nothing in them. -/
theorem continues_braced {body : Draft → Draft} (d : Draft)
    (h : ∀ d, body d = d ∨ Continues d (body d)) : Continues d (d.braced body) := by
  refine ⟨by simp [braced], ?_⟩
  have hopening : (d.line "\x7b").lines = d.lines ++ [⟨d.depth, "\x7b"⟩] :=
    lines_line opening_ne_blank d
  have hclosing : (d.braced body).lines =
      (body (d.line "\x7b").deeper).lines ++ [⟨d.depth, "\x7d"⟩] := by
    rw [braced, lines_line closing_ne_blank, depth_indented, depth_line]
    rfl
  rcases h (d.line "\x7b").deeper with heq | hbody
  · refine ⟨_, .braces, ?_⟩
    rw [hclosing, heq, show (d.line "\x7b").deeper.lines = (d.line "\x7b").lines from rfl, hopening]
    simp
  · obtain ⟨ls, hls, hlines⟩ := hbody.lines
    have hdepth : (d.line "\x7b").deeper.depth = d.depth + 1 := congrArg (· + 1) (depth_line d _)
    refine ⟨_, .braced (hdepth ▸ hls), ?_⟩
    rw [hclosing, hlines, show (d.line "\x7b").deeper.lines = (d.line "\x7b").lines from rfl, hopening]
    simp

/-- A block that is spliced in goes on well laid. -/
theorem continues_splice {other : Draft} (h : Block 0 other.lines) (d : Draft) :
    Continues d (d.splice other) :=
  ⟨rfl, other.lines.map (deepen d.depth), h.deepen d.depth, rfl⟩

/-- A draft that was filled on its own: empty, or a block of depth zero. -/
structure IsSection (d : Draft) : Prop where
  depth : d.depth = 0
  lines : d.lines = [] ∨ Block 0 d.lines

theorem isSection_empty (n : Int) : IsSection (empty n) := ⟨rfl, .inl rfl⟩

/-- A section that is not empty is a block. -/
theorem IsSection.block {d : Draft} (h : IsSection d) (hne : d.isEmpty = false) :
    Block 0 d.lines := by
  rcases h.lines with hnil | hblock
  · simp [isEmpty, hnil] at hne
  · exact hblock

/-- What goes on from a section is a section. -/
theorem IsSection.of_continues {d d' : Draft} (h : IsSection d) (h' : Continues d d') :
    IsSection d' := by
  obtain ⟨ls, hls, hlines⟩ := h'.lines
  rw [h.depth] at hls
  refine ⟨h'.depth.trans h.depth, .inr ?_⟩
  rw [hlines]
  rcases h.lines with hnil | hblock
  · rwa [hnil]
  · exact .append hblock hls

/-- Sections grow by blocks with blank lines between them. -/
theorem IsSection.of_continues_separate {d d' : Draft} (h : IsSection d)
    (h' : Continues d.separate d') : IsSection d' := by
  unfold separate at h'
  split at h'
  · exact h.of_continues h'
  · next hne =>
    obtain ⟨ls, hls, hlines⟩ := h'.lines
    rw [depth_blank, h.depth] at hls
    refine ⟨h'.depth.trans h.depth, .inr ?_⟩
    rw [hlines, lines_blank, List.append_assoc]
    exact .separated (h.block (by simpa using hne)) hls

end Draft

end PlatformClasses
