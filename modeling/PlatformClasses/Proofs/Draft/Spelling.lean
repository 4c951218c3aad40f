import PlatformClasses.Draft
import PlatformClasses.Proofs.Source.Spelling

/-!
# What drafts spell

The lines of a draft of code are comments and rows of pieces.  What tokens its text is cut into does not
depend on how deep the lines are, so it is added up as the draft is: `Draft.Spells` says of a draft that
was made from another one what tokens have been added.
-/

namespace PlatformClasses

open Source

/-- A text without line ends. -/
def IsOneLine (s : String) : Prop := s.toList.all isLineChar = true

instance (s : String) : Decidable (IsOneLine s) := inferInstanceAs (Decidable (_ = true))

/-- What the tokens of lines of code are; a blank line is one without pieces. -/
inductive LinesSpell : List DraftLine → List Face → Prop
  | nil : LinesSpell [] []
  | code (depth : Nat) {ps : List Piece} (hps : WellSpelled ps) {ls : List DraftLine}
    {faces : List Face} (h : LinesSpell ls faces) :
    LinesSpell (⟨depth, Piece.textOf ps⟩ :: ls) (Piece.facesOf ps ++ faces)
  | comment (depth : Nat) {text : String} (htext : IsOneLine text) {ls : List DraftLine}
    {faces : List Face} (h : LinesSpell ls faces) :
    LinesSpell (⟨depth, "//" ++ text⟩ :: ls) faces

namespace LinesSpell

/-- Lines after lines spell their tokens one after the other. -/
theorem append {ls ms : List DraftLine} {faces more : List Face} (hls : LinesSpell ls faces)
    (hms : LinesSpell ms more) : LinesSpell (ls ++ ms) (faces ++ more) := by
  induction hls with
  | nil => exact hms
  | code depth hps _ ih =>
      rw [List.append_assoc]
      exact .code depth hps ih
  | comment depth htext _ ih => exact .comment depth htext ih

/-- Indentation does not change the tokens. -/
theorem deepen (k : Nat) {ls : List DraftLine} {faces : List Face} (h : LinesSpell ls faces) :
    LinesSpell (ls.map (Draft.deepen k)) faces := by
  have hline : ∀ depth text, ∃ depth', Draft.deepen k ⟨depth, text⟩ = ⟨depth', text⟩ := by
    intro depth text
    unfold Draft.deepen
    by_cases htext : text = ""
    · exact ⟨0, by simp [htext]⟩
    · exact ⟨k + depth, by simp [htext]⟩
  induction h with
  | nil => exact .nil
  | code depth hps _ ih =>
      obtain ⟨depth', heq⟩ := hline depth (Piece.textOf _)
      rw [List.map_cons, heq]
      exact .code depth' hps ih
  | comment depth htext _ ih =>
      obtain ⟨depth', heq⟩ := hline depth ("//" ++ _)
      rw [List.map_cons, heq]
      exact .comment depth' htext ih

end LinesSpell

/-- The text of lines. -/
def linesText (indentSize : Int) (ls : List DraftLine) : String :=
  ls.foldr (fun l rest => Draft.lineText indentSize l ++ rest) ""

@[simp] theorem linesText_nil (indentSize : Int) : linesText indentSize [] = "" := rfl

@[simp] theorem linesText_cons (indentSize : Int) (l : DraftLine) (ls : List DraftLine) :
    linesText indentSize (l :: ls) = Draft.lineText indentSize l ++ linesText indentSize ls := rfl

/-- The text of lines is each line behind its indentation, up to its line feed. -/
theorem toList_linesText (indentSize : Int) (ls : List DraftLine) :
    (linesText indentSize ls).toList = ls.flatMap fun l =>
      List.replicate (indentSize * l.depth).toNat ' ' ++ l.text.toList ++ ['\n'] := by
  induction ls with
  | nil => rfl
  | cons l ls ih => simp [Draft.lineText, Draft.indentation, ih]

theorem Draft.text_eq_linesText (d : Draft) : d.text = linesText d.indentSize d.lines := rfl

theorem eq_of_mem_indentation {indentSize : Int} {depth : Nat} {c : Char}
    (hc : c ∈ (Draft.indentation indentSize depth).toList) : c = ' ' := by
  rw [Draft.indentation, String.toList_ofList] at hc
  exact List.eq_of_mem_replicate hc

/-- The text of lines spells what they spell. -/
theorem LinesSpell.spells {ls : List DraftLine} {faces : List Face} (h : LinesSpell ls faces)
    (indentSize : Int) :
    Spells (linesText indentSize ls).toList faces := by
  have hblank : ∀ depth, (Draft.indentation indentSize depth).toList.all isSpace = true := by
    refine fun depth => List.all_eq_true.2 fun c hc => ?_
    rw [eq_of_mem_indentation hc]
    decide
  induction h with
  | nil => exact .nil
  | @code depth ps hps ls faces _ ih =>
      have hrest : Spells ('\n' :: (linesText indentSize ls).toList) faces :=
        ih.spaces (by decide : ['\n'].all isSpace = true)
      have hline := Spells.pieces hps (by decide : isSpace '\n' = true) hrest
      simpa [Draft.lineText] using hline.spaces (hblank depth)
  | comment depth htext _ ih =>
      simpa [Draft.lineText] using (Spells.comment htext ih).spaces (hblank depth)

/-! ## Line ends -/

namespace IsOneLine

theorem append {s t : String} (hs : IsOneLine s) (ht : IsOneLine t) : IsOneLine (s ++ t) := by
  unfold IsOneLine at *
  rw [String.toList_append, List.all_append, hs, ht]
  rfl

/-- Line ends are no characters of words. -/
theorem isLineChar_of_word {c : Char}
    (hc : c = '@' ∨ Text.isIdentifierStart c = true ∨ Text.isIdentifierPart c = true) :
    isLineChar c = true := by
  have hends : ∀ d : Char, Text.isIdentifierStart d = false → Text.isIdentifierPart d = false →
      d ≠ '@' → c ≠ d := by
    rintro d hstart hpart hat rfl
    simp [hat, hstart, hpart] at hc
  have hfeed : c ≠ '\n' := hends '\n' (by decide) (by decide) (by decide)
  have hreturn : c ≠ '\r' := hends '\r' (by decide) (by decide) (by decide)
  simp [isLineChar, hfeed, hreturn]

theorem of_isWord {s : String} (hs : IsWord s) : IsOneLine s := by
  have hname : ∀ cs : List Char, isIdentifier cs = true → cs.all isLineChar = true := by
    intro cs hcs
    cases cs with
    | nil => rfl
    | cons d cs =>
        rw [isIdentifier, Bool.and_eq_true, List.all_eq_true] at hcs
        rw [List.all_cons, isLineChar_of_word (.inr (.inl hcs.1)), Bool.true_and, List.all_eq_true]
        exact fun c hc => isLineChar_of_word (.inr (.inr (hcs.2 c hc)))
  unfold IsWord isWordText at hs
  unfold IsOneLine
  split at hs
  · next name heq =>
    rw [heq, List.all_cons, hname name hs]
    rfl
  · exact hname s.toList hs

theorem of_isProper {p : Piece} (hp : p.IsProper) : IsOneLine p.text := by
  cases p with
  | gap => decide
  | word s => exact of_isWord hp
  | mark m => exact (by decide : ∀ m ∈ codeMarks, IsOneLine m) m hp

/-- What is well spelled stands on one line. -/
theorem of_wellSpelled {ps : List Piece} (hps : WellSpelled ps) : IsOneLine (Piece.textOf ps) := by
  have hproper := hps.proper
  clear hps
  induction ps with
  | nil => decide
  | cons p ps ih =>
      exact (of_isProper (hproper p List.mem_cons_self)).append
        (ih fun q hq => hproper q (List.mem_cons_of_mem p hq))

end IsOneLine

/-- Lines that spell tokens hold no line feeds. -/
theorem LinesSpell.isOneLine {ls : List DraftLine} {faces : List Face} (h : LinesSpell ls faces) :
    ∀ l ∈ ls, IsOneLine l.text := by
  induction h with
  | nil => simp
  | code depth hps _ ih => exact List.forall_mem_cons.2 ⟨.of_wellSpelled hps, ih⟩
  | comment depth htext _ ih =>
      exact List.forall_mem_cons.2 ⟨.append (by decide) htext, ih⟩

/-- The text of lines without line ends of their own has line feeds only. -/
theorem not_mem_linesText {ls : List DraftLine}
    (h : ∀ l ∈ ls, IsOneLine l.text) (indentSize : Int) :
    '\r' ∉ (linesText indentSize ls).toList := by
  induction ls with
  | nil => simp
  | cons l ls ih =>
      have hindentation : '\r' ∉ (Draft.indentation indentSize l.depth).toList :=
        fun hc => absurd (eq_of_mem_indentation hc) (by decide)
      have htext : '\r' ∉ l.text.toList :=
        fun hc => absurd (List.all_eq_true.1 (h l List.mem_cons_self) _ hc) (by decide)
      have hrest := ih fun l' hl' => h l' (List.mem_cons_of_mem l hl')
      simp [Draft.lineText, hindentation, htext, hrest]

/-! ## Drafts that grow -/

namespace Draft

/-- A draft is another one with lines added that spell faces. -/
def Adds (d d' : Draft) (faces : List Face) : Prop :=
  ∃ ls, d'.lines = d.lines ++ ls ∧ LinesSpell ls faces

namespace Adds

variable {d d' d'' : Draft} {faces more : List Face}

theorem refl (d : Draft) : Adds d d [] := ⟨[], by simp, .nil⟩

/-- What is added after what was added is added. -/
theorem trans (h : Adds d d' faces) (h' : Adds d' d'' more) : Adds d d'' (faces ++ more) := by
  obtain ⟨ls, hls, hspell⟩ := h
  obtain ⟨ms, hms, hmore⟩ := h'
  exact ⟨ls ++ ms, by rw [hms, hls, List.append_assoc], hspell.append hmore⟩

/-- A blank line adds no tokens. -/
theorem blank (d : Draft) : Adds d d.blank [] := by
  have hline := LinesSpell.code 0 WellSpelled.nil .nil
  exact ⟨[⟨0, ""⟩], rfl, hline⟩

theorem separate (d : Draft) : Adds d d.separate [] := by
  unfold Draft.separate
  split
  · exact refl d
  · exact blank d

theorem lines_line (d : Draft) (text : String) : ∃ depth, (d.line text).lines =
    d.lines ++ [⟨depth, text⟩] := by
  unfold Draft.line
  by_cases htext : text = ""
  · exact ⟨0, by simp [htext]⟩
  · exact ⟨d.depth, by simp [htext]⟩

/-- A line of pieces. -/
theorem line {ps : List Piece} (hps : WellSpelled ps) {text : String} (htext : Piece.textOf ps = text)
    (d : Draft) : Adds d (d.line text) (Piece.facesOf ps) := by
  obtain ⟨depth, hlines⟩ := lines_line d text
  have hline := LinesSpell.code depth hps .nil
  rw [List.append_nil, htext] at hline
  exact ⟨_, hlines, hline⟩

/-- What is added for things one after the other. -/
theorem foldl {α : Type} {add : α → Draft → Draft} {facesOf : α → List Face} {as : List α}
    (h : ∀ a ∈ as, ∀ d, Adds d (add a d) (facesOf a)) (d : Draft) :
    Adds d (as.foldl (fun d a => add a d) d) (as.flatMap facesOf) := by
  induction as generalizing d with
  | nil => exact refl d
  | cons a as ih =>
      exact (h a List.mem_cons_self d).trans
        (ih (fun b hb => h b (List.mem_cons_of_mem a hb)) (add a d))

/-- Splicing adds the tokens of the other draft. -/
theorem splice {other : Draft} (h : LinesSpell other.lines faces) (d : Draft) :
    Adds d (d.splice other) faces :=
  ⟨_, rfl, h.deepen d.depth⟩

/-- What is added in braces. -/
theorem braced {body : Draft → Draft} (h : ∀ d, Adds d (body d) faces) (d : Draft) :
    Adds d (d.braced body) ((.mark, "\x7b") :: (faces ++ [(.mark, "\x7d")])) := by
  have hmark : ∀ m ∈ codeMarks, ∀ d : Draft, Adds d (d.line m) [(.mark, m)] :=
    fun m hm d => line (.mark hm) (by simp [Piece.text]) d
  have hopen := hmark "\x7b" (by decide) d
  have hbody : Adds (d.line "\x7b") ((d.line "\x7b").indented body) faces :=
    h (d.line "\x7b").deeper
  have hclose := hmark "\x7d" (by decide) ((d.line "\x7b").indented body)
  exact (hopen.trans hbody).trans hclose

end Adds

end Draft

end PlatformClasses
