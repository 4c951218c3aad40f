import Mathlib.Data.List.Chain
import Mathlib.Data.List.Induction
import Mathlib.Data.List.TakeWhile
import PlatformClasses.Proofs.TypeRef.Grammar

/-!
# Scanning type references

The scanner finds the tokens of a text that is spelled by lexemes, whatever white space stands between
them, and every text that it accepts is spelled by lexemes.  A name takes all name characters that it
can, so two names cannot stand side by side: lexemes are `Separated` if that never happens, and those of
a derivation are.  For separated lexemes the text determines the lexemes
(`eq_of_charsOf_append_eq`), since what the scanner sees at the front of a text is decided there.

The scanner stops by itself: each token takes a character at least, so a number of steps that is no
less than the length of the text makes no difference (`scanFrom?_eq_of_length_le`).
-/

namespace PlatformClasses

namespace Text

/-- The code points of white space, as inclusive ranges. -/
def blankRanges : List (Nat × Nat) :=
  [(0x09, 0x0d), (0x1c, 0x20), (0x85, 0x85), (0xa0, 0xa0), (0x1680, 0x1680), (0x2000, 0x200a),
   (0x2028, 0x2029), (0x202f, 0x202f), (0x205f, 0x205f), (0x3000, 0x3000)]

theorem inRanges_of_isBlank {c : Char} (h : isBlank c = true) :
    inRanges c.toNat blankRanges = true := by
  simp only [isBlank, Bool.or_eq_true, Bool.and_eq_true, decide_eq_true_eq, beq_iff_eq] at h
  simp only [inRanges, blankRanges, List.any_cons, List.any_nil, Bool.or_eq_true, Bool.and_eq_true,
    decide_eq_true_eq]
  omega

theorem isWordChar_of_isBlank {c : Char} (h : isBlank c = true) : isWordChar c = false := by
  obtain ⟨r, hr, hfirst, hlast⟩ := inRanges_eq_true_iff.1 (inRanges_of_isBlank h)
  have hcodes : ∀ r ∈ blankRanges, ∀ n ∈ List.range' r.1 (r.2 + 1 - r.1),
      isWordChar (Char.ofNat n) = false := by decide +kernel
  have hc := hcodes r hr c.toNat (List.mem_range'_1.2 ⟨hfirst, by omega⟩)
  rwa [Char.ofNat_toNat] at hc

end Text

namespace TypeRef

theorem isNamePart_of_isBlank {c : Char} (h : Text.isBlank c = true) : isNamePart c = false := by
  have hdot : c ≠ '.' := by
    rintro rfl
    exact absurd h (by decide)
  simp [isNamePart, Text.isWordChar_of_isBlank h, hdot]

theorem isBlank_of_isNamePart {c : Char} (h : isNamePart c = true) : Text.isBlank c = false := by
  cases hc : Text.isBlank c with
  | false => rfl
  | true => exact absurd h (by simp [isNamePart_of_isBlank hc])

theorem isNamePart_of_isNameStart {c : Char} (h : Text.isNameStart c = true) :
    isNamePart c = true := by
  simp [isNamePart, Text.isWordChar_of_isNameStart h]

/-! ## Taking all that is possible -/

/-- Nothing of a kind stands at the front. -/
def Stops {α : Type} (p : α → Bool) (xs : List α) : Prop := ∀ x ∈ xs.head?, p x = false

@[simp] theorem stops_nil {α : Type} (p : α → Bool) : Stops p [] := by simp [Stops]

@[simp] theorem stops_cons {α : Type} {p : α → Bool} {x : α} {xs : List α} :
    Stops p (x :: xs) ↔ p x = false := by simp [Stops]

theorem takeWhile_append_of_stops {p : Char → Bool} {taken rest : List Char}
    (htaken : ∀ c ∈ taken, p c = true) (hrest : Stops p rest) :
    (taken ++ rest).takeWhile p = taken := by
  rw [List.takeWhile_append_of_pos htaken]
  cases rest with
  | nil => simp
  | cons c rest => simp [stops_cons.1 hrest]

theorem dropWhile_append_of_stops {p : Char → Bool} {taken rest : List Char}
    (htaken : ∀ c ∈ taken, p c = true) (hrest : Stops p rest) :
    (taken ++ rest).dropWhile p = rest := by
  rw [List.dropWhile_append_of_pos htaken]
  cases rest with
  | nil => rfl
  | cons c rest => simp [stops_cons.1 hrest]

/-- Trimming takes away what is around a text that neither begins nor ends with it. -/
theorem trim_append_of_stops {p : Char → Bool} {front cs back : List Char}
    (hfront : ∀ c ∈ front, p c = true) (hback : ∀ c ∈ back, p c = true)
    (hfirst : ∃ c rest, cs = c :: rest ∧ p c = false) (hlast : ∃ most c, cs = most ++ [c] ∧ p c = false) :
    (((front ++ cs ++ back).dropWhile p).reverse.dropWhile p).reverse = cs := by
  have hdropped : (front ++ cs ++ back).dropWhile p = cs ++ back := by
    obtain ⟨c, rest, rfl, hc⟩ := hfirst
    rw [List.append_assoc]
    exact dropWhile_append_of_stops hfront (stops_cons.2 hc)
  obtain ⟨most, c, rfl, hc⟩ := hlast
  have hreversed : (most ++ [c] ++ back).reverse = back.reverse ++ c :: most.reverse := by simp
  have hbackwards : ∀ c ∈ back.reverse, p c = true := fun c hmem => hback c (List.mem_reverse.1 hmem)
  rw [hdropped, hreversed, dropWhile_append_of_stops hbackwards (stops_cons.2 hc)]
  simp

/-! ## One token -/

namespace Spelling

/-- A token starts with a character that is not blank, and with a name character only if it is a
name. -/
theorem chars_eq_cons (s : Spelling) :
    ∃ c rest, s.chars = c :: rest ∧ Text.isBlank c = false ∧ isNamePart c = s.isName := by
  cases s with
  | name n =>
      have hpart := isNamePart_of_isNameStart n.isStart
      exact ⟨n.first, n.rest, rfl, isBlank_of_isNamePart hpart, hpart⟩
  | rank r =>
      have hpart : isNamePart '[' = false := by decide
      exact ⟨'[', r.inner ++ [']'], rfl, by decide, hpart⟩
  | less => exact ⟨'<', [], rfl, by decide, by decide⟩
  | greater => exact ⟨'>', [], rfl, by decide, by decide⟩
  | comma => exact ⟨',', [], rfl, by decide, by decide⟩
  | question => exact ⟨'?', [], rfl, by decide, by decide⟩

/-- A token ends with a character that is not blank. -/
theorem chars_eq_concat (s : Spelling) :
    ∃ front c, s.chars = front ++ [c] ∧ Text.isBlank c = false := by
  cases s with
  | name n =>
      have hparts : ∀ c ∈ n.first :: n.rest, isNamePart c = true := by
        intro c hc
        rcases List.mem_cons.1 hc with rfl | hc
        · exact isNamePart_of_isNameStart n.isStart
        · exact n.areParts c hc
      have hlast := List.getLast_mem (List.cons_ne_nil n.first n.rest)
      exact ⟨_, _, (List.dropLast_append_getLast (List.cons_ne_nil n.first n.rest)).symm,
        isBlank_of_isNamePart (hparts _ hlast)⟩
  | rank r => exact ⟨'[' :: r.inner, ']', rfl, by decide⟩
  | less => exact ⟨[], '<', rfl, by decide⟩
  | greater => exact ⟨[], '>', rfl, by decide⟩
  | comma => exact ⟨[], ',', rfl, by decide⟩
  | question => exact ⟨[], '?', rfl, by decide⟩

theorem stops_isBlank (s : Spelling) (rest : List Char) : Stops Text.isBlank (s.chars ++ rest) := by
  obtain ⟨c, cs, hchars, hblank, -⟩ := s.chars_eq_cons
  rw [hchars]
  exact stops_cons.2 hblank

/-- The scanner finds a token at the front; a name only if no name character follows. -/
theorem scanToken?_chars (s : Spelling) {rest : List Char}
    (h : s.isName = true → Stops isNamePart rest) :
    scanToken? (s.chars ++ rest) = some (s.token, rest) := by
  cases s with
  | name n =>
      have htake := takeWhile_append_of_stops n.areParts (h rfl)
      have hdrop := dropWhile_append_of_stops n.areParts (h rfl)
      simp [chars, token, scanToken?, n.isStart, htake, hdrop]
  | rank r =>
      have hclose : Stops isRankPart (']' :: rest) := stops_cons.2 (by decide)
      have htake := takeWhile_append_of_stops r.areParts hclose
      have hdrop := dropWhile_append_of_stops r.areParts hclose
      have hstart : Text.isNameStart '[' = false := by decide
      simp [chars, token, scanToken?, hstart, htake, hdrop]
  | less => rfl
  | greater => rfl
  | comma => rfl
  | question => rfl

/-- A token that the scanner finds is spelled at the front of the text. -/
theorem exists_of_scanToken? {cs rest : List Char} {token : Token}
    (h : scanToken? cs = some (token, rest)) :
    ∃ s : Spelling, s.chars ++ rest = cs ∧ s.token = token := by
  cases cs with
  | nil => simp [scanToken?] at h
  | cons c cs =>
      rw [scanToken?] at h
      split at h
      · next hstart =>
        cases h
        have hparts : ∀ x ∈ cs.takeWhile isNamePart, isNamePart x = true :=
          fun x hx => List.mem_takeWhile_imp hx
        exact ⟨.name ⟨c, cs.takeWhile isNamePart, hstart, hparts⟩, by simp [chars], rfl⟩
      · split at h
        · next hopen =>
          split at h
          · next hclose =>
            cases h
            have hparts : ∀ x ∈ cs.takeWhile isRankPart, isRankPart x = true :=
              fun x hx => List.mem_takeWhile_imp hx
            have hcs : cs.takeWhile isRankPart ++ ']' :: rest = cs := by
              rw [← hclose]
              exact List.takeWhile_append_dropWhile
            obtain rfl : c = '[' := by simpa using hopen
            exact ⟨.rank ⟨cs.takeWhile isRankPart, hparts⟩, by simp [chars, hcs], rfl⟩
          · simp at h
        · simp only [beq_iff_eq] at h
          split at h
          · next hc => cases h; exact ⟨.less, by simp [chars, hc], rfl⟩
          · split at h
            · next hc => cases h; exact ⟨.greater, by simp [chars, hc], rfl⟩
            · split at h
              · next hc => cases h; exact ⟨.comma, by simp [chars, hc], rfl⟩
              · split at h
                · next hc => cases h; exact ⟨.question, by simp [chars, hc], rfl⟩
                · simp at h

theorem length_lt_of_scanToken? {cs rest : List Char} {token : Token}
    (h : scanToken? cs = some (token, rest)) : rest.length < cs.length := by
  obtain ⟨s, rfl, -⟩ := exists_of_scanToken? h
  obtain ⟨c, cs, hchars, -, -⟩ := s.chars_eq_cons
  rw [hchars, List.cons_append, List.length_cons, List.length_append]
  omega

/-- Tokens of one kind with the same characters are the same. -/
theorem eq_of_chars_eq {s s' : Spelling} (htoken : s.token = s'.token) (h : s.chars = s'.chars) :
    s = s' := by
  cases s <;> cases s' <;> simp [token] at htoken
  case name.name n n' =>
    obtain ⟨hfirst, hrest⟩ : n.first = n'.first ∧ n.rest = n'.rest := by simpa [chars] using h
    rw [Name.ext hfirst hrest]
  case rank.rank r r' =>
    have hinner : r.inner = r'.inner := by simpa [chars] using h
    rw [Rank.ext hinner]
  all_goals rfl

end Spelling

/-! ## One lexeme -/

namespace Lexeme

theorem takeWhile_chars_append (l : Lexeme) (rest : List Char) :
    (l.chars ++ rest).takeWhile Text.isBlank = l.before.chars := by
  rw [chars, List.append_assoc]
  exact takeWhile_append_of_stops l.before.areBlank (l.spelling.stops_isBlank rest)

theorem dropWhile_chars_append (l : Lexeme) (rest : List Char) :
    (l.chars ++ rest).dropWhile Text.isBlank = l.spelling.chars ++ rest := by
  rw [chars, List.append_assoc]
  exact dropWhile_append_of_stops l.before.areBlank (l.spelling.stops_isBlank rest)

/-- The scanner finds a lexeme at the front. -/
theorem scanToken?_dropWhile (l : Lexeme) {rest : List Char}
    (h : l.isName = true → Stops isNamePart rest) :
    scanToken? ((l.chars ++ rest).dropWhile Text.isBlank) = some (l.token, rest) := by
  rw [dropWhile_chars_append]
  exact l.spelling.scanToken?_chars h

/-- What stands at the front of a text decides about the first lexeme. -/
theorem eq_of_chars_append_eq {l l' : Lexeme} {rest rest' : List Char}
    (h : l.isName = true → Stops isNamePart rest)
    (h' : l'.isName = true → Stops isNamePart rest')
    (heq : l.chars ++ rest = l'.chars ++ rest') : l = l' ∧ rest = rest' := by
  have hbefore : l.before = l'.before := by
    refine Blanks.ext ?_
    rw [← l.takeWhile_chars_append rest, heq, l'.takeWhile_chars_append rest']
  have hscan := l.scanToken?_dropWhile h
  rw [heq, l'.scanToken?_dropWhile h'] at hscan
  obtain ⟨htoken, rfl⟩ : l'.token = l.token ∧ rest' = rest := by simpa using hscan
  have hchars : l.spelling.chars = l'.spelling.chars := by
    have hlexeme : l.chars = l'.chars := List.append_cancel_right heq
    rw [chars, chars, hbefore] at hlexeme
    exact List.append_cancel_left hlexeme
  have hspelling := Spelling.eq_of_chars_eq htoken.symm hchars
  cases l
  cases l'
  simp_all

theorem chars_ne_nil (l : Lexeme) : l.chars ≠ [] := by
  obtain ⟨c, cs, hchars, -, -⟩ := l.spelling.chars_eq_cons
  simp [chars, hchars]

/-- A lexeme is more than white space. -/
theorem exists_mem_chars (l : Lexeme) : ∃ c ∈ l.chars, Text.isBlank c = false := by
  obtain ⟨c, cs, hchars, hblank, -⟩ := l.spelling.chars_eq_cons
  exact ⟨c, by simp [chars, hchars], hblank⟩

end Lexeme

/-! ## Several lexemes -/

/-- No two names stand side by side. -/
def Separated (ls : List Lexeme) : Prop :=
  ls.IsChain fun l l' => l.isName = true → l'.isName = false

theorem separated_cons_iff {l : Lexeme} {ls : List Lexeme} :
    Separated (l :: ls) ↔ (l.isName = true → Stops Lexeme.isName ls) ∧ Separated ls := by
  unfold Separated Stops
  rw [List.isChain_cons]
  constructor
  · rintro ⟨hhead, hrest⟩
    exact ⟨fun hname l' hl' => hhead l' hl' hname, hrest⟩
  · rintro ⟨hhead, hrest⟩
    exact ⟨fun l' hl' hname => hhead hname l' hl', hrest⟩

@[simp] theorem charsOf_nil : charsOf [] = [] := rfl

@[simp] theorem charsOf_cons (l : Lexeme) (ls : List Lexeme) :
    charsOf (l :: ls) = l.chars ++ charsOf ls := rfl

/-- A name ends before lexemes that do not start with a name. -/
theorem stops_charsOf_append {ls : List Lexeme} (h : Stops Lexeme.isName ls) (trailing : Blanks) :
    Stops isNamePart (charsOf ls ++ trailing.chars) := by
  have hblanks : ∀ (b : Blanks) (rest : List Char), Stops isNamePart rest →
      Stops isNamePart (b.chars ++ rest) := by
    intro b rest hrest
    obtain ⟨chars, areBlank⟩ := b
    cases chars with
    | nil => exact hrest
    | cons c cs => exact stops_cons.2 (isNamePart_of_isBlank (areBlank c List.mem_cons_self))
  cases ls with
  | nil =>
      have hend := hblanks trailing [] (stops_nil _)
      simpa using hend
  | cons l ls =>
      rw [charsOf_cons, Lexeme.chars, List.append_assoc, List.append_assoc]
      refine hblanks l.before _ ?_
      have hname : l.isName = false := stops_cons.1 h
      obtain ⟨c, cs, hchars, -, hpart⟩ := l.spelling.chars_eq_cons
      rw [hchars]
      exact stops_cons.2 (hpart.trans hname)

/-- White space alone is no lexeme. -/
theorem append_ne_blanks (l : Lexeme) (rest : List Char) (b : Blanks) :
    l.chars ++ rest ≠ b.chars := by
  intro h
  obtain ⟨c, hc, hblank⟩ := l.exists_mem_chars
  have hmem : c ∈ b.chars := by
    rw [← h]
    exact List.mem_append_left rest hc
  exact absurd (b.areBlank c hmem) (by simp [hblank])

/-- A text is spelled by separated lexemes in one way only. -/
theorem eq_of_charsOf_append_eq {ls ls' : List Lexeme} {b b' : Blanks} (h : Separated ls)
    (h' : Separated ls') (heq : charsOf ls ++ b.chars = charsOf ls' ++ b'.chars) :
    ls = ls' ∧ b = b' := by
  induction ls generalizing ls' with
  | nil =>
      cases ls' with
      | nil => exact ⟨rfl, Blanks.ext (by simpa using heq)⟩
      | cons l' ls' =>
          rw [charsOf_cons, List.append_assoc] at heq
          exact absurd heq.symm (append_ne_blanks l' _ b)
  | cons l ls ih =>
      cases ls' with
      | nil =>
          rw [charsOf_cons, List.append_assoc] at heq
          exact absurd heq (append_ne_blanks l _ b')
      | cons l' ls' =>
          rw [separated_cons_iff] at h h'
          rw [charsOf_cons, charsOf_cons, List.append_assoc, List.append_assoc] at heq
          obtain ⟨rfl, hrest⟩ := Lexeme.eq_of_chars_append_eq
            (fun hname => stops_charsOf_append (h.1 hname) b)
            (fun hname => stops_charsOf_append (h'.1 hname) b') heq
          obtain ⟨rfl, rfl⟩ := ih h.2 h'.2 hrest
          exact ⟨rfl, rfl⟩

/-! ## Whole texts -/

theorem length_le_length_charsOf (ls : List Lexeme) : ls.length ≤ (charsOf ls).length := by
  induction ls with
  | nil => simp
  | cons l ls ih =>
      have hl : 0 < l.chars.length := List.length_pos_of_ne_nil l.chars_ne_nil
      rw [charsOf_cons, List.length_append, List.length_cons]
      omega

/-- The scanner finds the tokens of separated lexemes. -/
theorem scanFrom?_charsOf {ls : List Lexeme} (h : Separated ls) {fuel : Nat}
    (hfuel : ls.length ≤ fuel) : scanFrom? fuel (charsOf ls) = some (ls.map Lexeme.token) := by
  induction ls generalizing fuel with
  | nil => cases fuel <;> rfl
  | cons l ls ih =>
      rw [separated_cons_iff] at h
      have hstop : l.isName = true → Stops isNamePart (charsOf ls) := by
        intro hname
        have hrest := stops_charsOf_append (h.1 hname) ⟨[], by simp⟩
        simpa using hrest
      cases fuel with
      | zero => simp at hfuel
      | succ fuel =>
          have hlength : ls.length ≤ fuel := by simpa using hfuel
          have htokens := ih h.2 hlength
          have hempty : (l.chars ++ charsOf ls).isEmpty = false := by simp [l.chars_ne_nil]
          rw [charsOf_cons, scanFrom?, hempty, l.scanToken?_dropWhile hstop]
          simp [htokens]

/-- A text that the scanner accepts is spelled by lexemes. -/
theorem exists_lexemes_of_scanFrom? {fuel : Nat} {cs : List Char} {tokens : List Token}
    (h : scanFrom? fuel cs = some tokens) :
    ∃ ls, charsOf ls = cs ∧ ls.map Lexeme.token = tokens := by
  induction fuel generalizing cs tokens with
  | zero =>
      cases cs with
      | nil => exact ⟨[], rfl, by simpa [scanFrom?] using h⟩
      | cons c cs => simp [scanFrom?] at h
  | succ fuel ih =>
      cases cs with
      | nil => exact ⟨[], rfl, by simpa [scanFrom?] using h⟩
      | cons c cs =>
          simp only [scanFrom?, List.isEmpty_cons, Bool.false_eq_true, if_false] at h
          obtain ⟨⟨token, rest⟩, hscan, h⟩ := Option.bind_eq_some_iff.1 h
          obtain ⟨more, hmore, h⟩ := Option.bind_eq_some_iff.1 h
          obtain rfl : token :: more = tokens := by simpa using h
          obtain ⟨s, hchars, rfl⟩ := Spelling.exists_of_scanToken? hscan
          obtain ⟨ls, rfl, rfl⟩ := ih hmore
          have hblank : ∀ x ∈ (c :: cs).takeWhile Text.isBlank, Text.isBlank x = true :=
            fun x hx => List.mem_takeWhile_imp hx
          refine ⟨⟨⟨(c :: cs).takeWhile Text.isBlank, hblank⟩, s⟩ :: ls, ?_, rfl⟩
          rw [charsOf_cons, Lexeme.chars, List.append_assoc, hchars]
          exact List.takeWhile_append_dropWhile

/-- More steps than characters make no difference. -/
theorem scanFrom?_eq_of_length_le {cs : List Char} {m n : Nat} (hm : cs.length ≤ m)
    (hn : cs.length ≤ n) : scanFrom? m cs = scanFrom? n cs := by
  induction m generalizing cs n with
  | zero =>
      obtain rfl : cs = [] := by simpa using hm
      cases n <;> rfl
  | succ m ih =>
      cases n with
      | zero =>
          obtain rfl : cs = [] := by simpa using hn
          rfl
      | succ n =>
          unfold scanFrom?
          split
          · rfl
          · cases hscan : scanToken? (cs.dropWhile Text.isBlank) with
            | none => rfl
            | some found =>
                obtain ⟨token, rest⟩ := found
                have hshorter := Spelling.length_lt_of_scanToken? hscan
                have hdrop := (List.dropWhile_sublist (l := cs) Text.isBlank).length_le
                have hrest : scanFrom? m rest = scanFrom? n rest :=
                  ih (by omega) (by omega)
                simp [hrest]

/-! ## White space at the end -/

theorem charsOf_concat (ls : List Lexeme) (l : Lexeme) :
    charsOf (ls ++ [l]) = charsOf ls ++ l.chars := by
  simp [charsOf]

/-- Trimming takes the white space after the last lexeme and no more. -/
theorem trimRightChars_charsOf_append (ls : List Lexeme) (b : Blanks) :
    Text.trimRightChars (charsOf ls ++ b.chars) = charsOf ls := by
  have hblank : ∀ c ∈ b.chars.reverse, Text.isBlank c = true :=
    fun c hc => b.areBlank c (List.mem_reverse.1 hc)
  unfold Text.trimRightChars
  rw [List.reverse_append, List.dropWhile_append_of_pos hblank]
  cases ls using List.reverseRecOn with
  | nil => rfl
  | append_singleton ls l =>
      obtain ⟨front, c, hchars, hc⟩ := l.spelling.chars_eq_concat
      rw [charsOf_concat, Lexeme.chars, hchars]
      simp [hc]

/-- What is trimmed is white space. -/
theorem exists_eq_trimRightChars_append (cs : List Char) :
    ∃ b : Blanks, cs = Text.trimRightChars cs ++ b.chars := by
  have hblank : ∀ c ∈ (cs.reverse.takeWhile Text.isBlank).reverse, Text.isBlank c = true :=
    fun c hc => List.mem_takeWhile_imp (List.mem_reverse.1 hc)
  refine ⟨⟨(cs.reverse.takeWhile Text.isBlank).reverse, hblank⟩, ?_⟩
  rw [Text.trimRightChars, ← List.reverse_append, List.takeWhile_append_dropWhile,
    List.reverse_reverse]

end TypeRef

end PlatformClasses
