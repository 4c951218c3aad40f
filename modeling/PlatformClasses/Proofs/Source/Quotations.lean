import Mathlib.Tactic.SplitIfs
import PlatformClasses.Proofs.Source.Spelling
import PlatformClasses.Proofs.TypeRef.Scanning

/-!
# Texts in quotes

The readers of quoted texts take what they read from the front of the text (`append_of_quotedAt?`), up to a
closing quote.  Some of them look at the next character as well, to see whether a quote or a brace is
written twice.  But white space and semicolons are never what they look for: what a reader takes in front of
such a character, it takes at the end of the text too, and whatever else comes after the character
(`quotedAt?_before`).
-/

namespace PlatformClasses.Source

/-! ## Characters that end tokens -/

/-- White space of any kind, and semicolons. -/
def tokenEnds : List Char :=
  ';' :: spaceChars ++
    ['\x1c', '\x1d', '\x1e', '\x1f', '\u0085', '\u1680', '\u2000', '\u2001', '\u2002', '\u2003',
      '\u2004', '\u2005', '\u2006', '\u2007', '\u2008', '\u2009', '\u200a', '\u2028', '\u2029',
      '\u202f', '\u205f']

/-- A character that ends every token that is not in quotes. -/
def EndsToken (c : Char) : Prop := c ∈ tokenEnds

/-- Spaces end tokens. -/
theorem endsToken_of_isSpace {c : Char} (h : isSpace c = true) : EndsToken c :=
  List.mem_append_left _ (List.mem_cons_of_mem _ (mem_spaceChars h))

/-- All white space ends tokens. -/
theorem endsToken_of_isBlank {c : Char} (h : Text.isBlank c = true) : EndsToken c := by
  obtain ⟨r, hr, hfirst, hlast⟩ := Text.inRanges_eq_true_iff.1 (Text.inRanges_of_isBlank h)
  have hcodes : ∀ r ∈ Text.blankRanges, ∀ n ∈ List.range' r.1 (r.2 + 1 - r.1),
      Char.ofNat n ∈ tokenEnds := by decide +kernel
  have hc := hcodes r hr c.toNat (List.mem_range'_1.2 ⟨hfirst, by omega⟩)
  rwa [Char.ofNat_toNat] at hc

/-- A property of all characters that end tokens. -/
theorem EndsToken.all {p : Char → Bool} (hall : tokenEnds.all p = true) {c : Char}
    (h : EndsToken c) : p c = true :=
  List.all_eq_true.1 hall c h

/-- A character that is not among those that end tokens is none of them. -/
theorem EndsToken.ne {c d : Char} (h : EndsToken c) (hd : tokenEnds.all (· != d) = true) : c ≠ d := by
  simpa using h.all hd

theorem EndsToken.not_isHexDigit {c : Char} (h : EndsToken c) : isHexDigit c = false := by
  simpa using h.all (p := fun c => !isHexDigit c) (by decide)

/-! ## What is taken and what is left -/

/-- What has been taken and what is left, with more after it. -/
def followedBy (rest : List Char) (p : List Char × List Char) : List Char × List Char :=
  (p.1, p.2 ++ rest)

/-- Readers that agree still do after both have taken the same in front. -/
theorem map_eq_some_congr {o o' : Option (List Char × List Char)} (g : List Char → List Char)
    {after after' a : List Char} (h : ∀ more, o = some (more, after) ↔ o' = some (more, after')) :
    (o.map fun p => (g p.1, p.2)) = some (a, after) ↔
      (o'.map fun p => (g p.1, p.2)) = some (a, after') := by
  simp only [Option.map_eq_some_iff, Prod.exists, Prod.mk.injEq]
  constructor
  · rintro ⟨more, rest, hmore, rfl, rfl⟩
    exact ⟨more, _, (h more).1 hmore, rfl, rfl⟩
  · rintro ⟨more, rest, hmore, rfl, rfl⟩
    exact ⟨more, _, (h more).2 hmore, rfl, rfl⟩

theorem bind_eq_some_congr {o o' : Option (List Char × List Char)} (g : List Char → List Char)
    {after after' a : List Char} (h : ∀ more, o = some (more, after) ↔ o' = some (more, after')) :
    (o.bind fun p => some (g p.1, p.2)) = some (a, after) ↔
      (o'.bind fun p => some (g p.1, p.2)) = some (a, after') := by
  have hmap := map_eq_some_congr (a := a) g h
  rwa [Option.map_eq_bind, Option.map_eq_bind] at hmap

/-- A text that ends with the given quote. -/
def ClosedBy (quote : Char) (cs : List Char) : Prop := ∃ inside, cs = inside ++ [quote]

theorem ClosedBy.append {quote : Char} {cs : List Char} (h : ClosedBy quote cs) (front : List Char) :
    ClosedBy quote (front ++ cs) := by
  obtain ⟨inside, rfl⟩ := h
  exact ⟨front ++ inside, (List.append_assoc ..).symm⟩

/-- A reader that takes nothing cannot find a closing quote. -/
theorem ClosedBy.ne {quote : Char} {a : List Char} (h : ClosedBy quote a) (ys rest : List Char) :
    a ++ (ys ++ rest) ≠ rest := by
  obtain ⟨inside, rfl⟩ := h
  intro heq
  have hlength := congrArg List.length heq
  simp only [List.length_append, List.length_cons, List.length_nil] at hlength
  omega

/-! ## Runs of characters -/

section

variable {p : Char → Bool} {c : Char} (hp : p c = false) (xs rest : List Char)

include hp

/-- A run ends in front of the first other character, whatever follows. -/
theorem takeWhile_before : (xs ++ c :: rest).takeWhile p = xs.takeWhile p := by
  induction xs with
  | nil => simp [hp]
  | cons x xs ih => rw [List.cons_append, List.takeWhile_cons, List.takeWhile_cons, ih]

theorem dropWhile_before : (xs ++ c :: rest).dropWhile p = xs.dropWhile p ++ c :: rest := by
  induction xs with
  | nil => simp [hp]
  | cons x xs ih =>
      rw [List.cons_append, List.dropWhile_cons, List.dropWhile_cons, ih]
      split <;> rfl

end

/-- A text that begins with a run of a character begins with that character. -/
theorem eq_cons_of_run_ne_nil {d : Char} {cs : List Char} (h : cs.takeWhile (· == d) ≠ []) :
    cs = d :: cs.drop 1 := by
  cases cs with
  | nil => simp at h
  | cons c cs =>
      rw [List.takeWhile_cons] at h
      split at h
      · next hd => rw [eq_of_beq hd, List.drop_one, List.tail_cons]
      · simp at h

/-! ## Escapes -/

/-- Digits of an escape are taken from the front. -/
theorem append_of_hexExactly {n : Nat} {cs ds after : List Char}
    (h : hexExactly n cs = some (ds, after)) : ds ++ after = cs := by
  induction n generalizing cs ds with
  | zero =>
      obtain ⟨rfl, rfl⟩ : [] = ds ∧ cs = after := by simpa [hexExactly] using h
      rfl
  | succ n ih =>
      cases cs with
      | nil => simp [hexExactly] at h
      | cons c cs =>
          unfold hexExactly at h
          split at h
          · obtain ⟨⟨more, rest⟩, hmore, heq⟩ := Option.map_eq_some_iff.1 h
            obtain ⟨rfl, rfl⟩ := Prod.mk.inj heq
            rw [List.cons_append, ih hmore]
          · simp at h

theorem append_hexUpTo (n : Nat) (cs : List Char) : (hexUpTo n cs).1 ++ (hexUpTo n cs).2 = cs := by
  induction n generalizing cs with
  | zero => simp [hexUpTo]
  | succ n ih =>
      cases cs with
      | nil => simp [hexUpTo]
      | cons c cs =>
          rw [hexUpTo]
          split
          · exact congrArg (c :: ·) (ih cs)
          · rfl

/-- An escape is taken from the front. -/
theorem append_of_escape? {cs ds after : List Char} (h : escape? cs = some (ds, after)) :
    ds ++ after = cs := by
  fun_cases escape? cs with
  | case1 tail | case2 tail =>
      obtain ⟨⟨more, rest⟩, hmore, heq⟩ := Option.map_eq_some_iff.1 h
      obtain ⟨rfl, rfl⟩ := Prod.mk.inj heq
      rw [List.cons_append, append_of_hexExactly hmore]
  | case3 tail digits left hdigits hempty => simp [escape?, hdigits, hempty] at h
  | case4 tail digits left hdigits hempty =>
      obtain ⟨rfl, rfl⟩ : 'x' :: digits = ds ∧ left = after := by
        simpa [escape?, hdigits, hempty] using h
      have hall := append_hexUpTo 4 tail
      rw [hdigits] at hall
      exact congrArg ('x' :: ·) hall
  | case5 c tail hu hU hx hsimple =>
      rw [escape?.eq_4 _ _ hu hU hx, if_pos hsimple] at h
      obtain ⟨rfl, rfl⟩ := Prod.mk.inj (Option.some.inj h)
      rfl
  | case6 c tail hu hU hx hsimple =>
      rw [escape?.eq_4 _ _ hu hU hx, if_neg hsimple] at h
      simp at h
  | case7 => simp [escape?] at h

section

variable {xs rest : List Char} {c : Char} (hc : EndsToken c)

include hc

/-- Digits of an escape end where tokens end. -/
theorem hexExactly_before (n : Nat) :
    hexExactly n (xs ++ c :: rest) = (hexExactly n xs).map (followedBy (c :: rest)) := by
  induction n generalizing xs with
  | zero => rfl
  | succ n ih =>
      cases xs with
      | nil => simp [hexExactly, hc.not_isHexDigit]
      | cons x xs =>
          rw [List.cons_append, hexExactly, hexExactly, ih]
          split
          · rw [Option.map_map, Option.map_map]
            rfl
          · rfl

theorem hexUpTo_before (n : Nat) :
    hexUpTo n (xs ++ c :: rest) = followedBy (c :: rest) (hexUpTo n xs) := by
  induction n generalizing xs with
  | zero => simp [hexUpTo, followedBy]
  | succ n ih =>
      cases xs with
      | nil => simp [hexUpTo, hc.not_isHexDigit, followedBy]
      | cons x xs =>
          rw [List.cons_append, hexUpTo, hexUpTo, ih]
          split <;> rfl

/-- An escape ends where tokens end. -/
theorem escape?_before :
    escape? (xs ++ c :: rest) = (escape? xs).map (followedBy (c :: rest)) := by
  fun_cases escape? xs with
  | case1 tail | case2 tail =>
      rw [List.cons_append, escape?, hexExactly_before hc, Option.map_map, Option.map_map]
      rfl
  | case3 tail ds after hds hempty | case4 tail ds after hds hempty =>
      rw [List.cons_append, escape?, hexUpTo_before hc, hds]
      simp [followedBy, hempty]
  | case5 x tail hu hU hx hsimple =>
      rw [List.cons_append, escape?.eq_4 _ _ hu hU hx, if_pos hsimple]
      rfl
  | case6 x tail hu hU hx hsimple =>
      rw [List.cons_append, escape?.eq_4 _ _ hu hU hx, if_neg hsimple]
      rfl
  | case7 =>
      have hu : c ≠ 'u' := hc.ne (by decide)
      have hU : c ≠ 'U' := hc.ne (by decide)
      have hx : c ≠ 'x' := hc.ne (by decide)
      have hsimple : isSimpleEscape c = false := by
        simpa using hc.all (p := fun c => !isSimpleEscape c) (by decide)
      rw [List.nil_append, escape?.eq_4 _ _ hu hU hx, hsimple]
      rfl

end

/-! ## Verbatim and raw texts -/

/-- A verbatim text is taken from the front, up to a quote. -/
theorem append_of_verbatimText {cs a after : List Char} (h : verbatimText cs = some (a, after)) :
    a ++ after = cs ∧ ClosedBy '"' a := by
  fun_induction verbatimText cs generalizing a with
  | case1 rest ih =>
      obtain ⟨⟨more, rest'⟩, hmore, heq⟩ := Option.map_eq_some_iff.1 h
      obtain ⟨rfl, rfl⟩ := Prod.mk.inj heq
      obtain ⟨rfl, hclosed⟩ := ih hmore
      exact ⟨rfl, hclosed.append ['"', '"']⟩
  | case2 rest hne =>
      obtain ⟨rfl, rfl⟩ := Prod.mk.inj (Option.some.inj h)
      exact ⟨rfl, [], rfl⟩
  | case3 c rest hne hquote ih =>
      obtain ⟨⟨more, rest'⟩, hmore, heq⟩ := Option.map_eq_some_iff.1 h
      obtain ⟨rfl, rfl⟩ := Prod.mk.inj heq
      obtain ⟨rfl, hclosed⟩ := ih hmore
      exact ⟨rfl, hclosed.append [c]⟩
  | case4 => simp at h

/-- A verbatim text that is closed before a character is the same whatever follows. -/
theorem verbatimText_before {xs rest ys a : List Char} {c : Char} (hc : EndsToken c) :
    verbatimText (xs ++ c :: rest) = some (a, ys ++ c :: rest) ↔ verbatimText xs = some (a, ys) := by
  fun_induction verbatimText xs generalizing a ys with
  | case1 tail ih => exact map_eq_some_congr ('"' :: '"' :: ·) fun more => ih
  | case2 tail hne =>
      have hne' : ∀ more, tail ++ c :: rest = '"' :: more → False := by
        intro more heq
        cases tail with
        | nil => exact hc.ne (by decide) (List.cons.inj heq).1
        | cons d tail => exact hne tail (by rw [(List.cons.inj heq).1])
      rw [List.cons_append, verbatimText.eq_2 _ hne']
      simp
  | case3 d tail hne hquote ih =>
      rw [List.cons_append, verbatimText.eq_3 _ _ (fun _ hd _ => hquote hd) hquote]
      exact map_eq_some_congr (d :: ·) fun more => ih
  | case4 =>
      refine iff_of_false ?_ (by simp)
      intro h
      obtain ⟨hall, hclosed⟩ := append_of_verbatimText h
      exact hclosed.ne ys (c :: rest) hall

theorem closedBy_quotes (cs : List Char) : ClosedBy '"' ('"' :: cs.takeWhile (· == '"')) := by
  induction cs with
  | nil => exact ⟨[], rfl⟩
  | cons c cs ih =>
      rw [List.takeWhile_cons]
      split
      · next hquote =>
        rw [eq_of_beq hquote]
        exact ih.append ['"']
      · exact ⟨[], rfl⟩

/-- A raw text is taken from the front, up to a quote. -/
theorem append_of_rawText {quotes seen : Nat} {cs a after : List Char}
    (h : rawText quotes seen cs = some (a, after)) : a ++ after = cs ∧ ClosedBy '"' a := by
  induction cs generalizing seen a with
  | nil => simp [rawText] at h
  | cons c cs ih =>
      have hmore : ∀ {seen : Nat}, ((rawText quotes seen cs).map fun p => (c :: p.1, p.2)) =
          some (a, after) → a ++ after = c :: cs ∧ ClosedBy '"' a := by
        intro seen hmap
        obtain ⟨⟨more, rest⟩, hmore, heq⟩ := Option.map_eq_some_iff.1 hmap
        obtain ⟨rfl, rfl⟩ := Prod.mk.inj heq
        obtain ⟨rfl, hclosed⟩ := ih hmore
        exact ⟨rfl, hclosed.append [c]⟩
      unfold rawText at h
      split at h
      · next hquote =>
        split at h
        · obtain ⟨rfl, rfl⟩ := Prod.mk.inj (Option.some.inj h)
          obtain rfl : c = '"' := eq_of_beq hquote
          exact ⟨congrArg ('"' :: ·) List.takeWhile_append_dropWhile, closedBy_quotes cs⟩
        · exact hmore h
      · exact hmore h

/-- A raw text that is closed before a character is the same whatever follows. -/
theorem rawText_before {quotes seen : Nat} {xs rest ys a : List Char} {c : Char} (hc : EndsToken c) :
    rawText quotes seen (xs ++ c :: rest) = some (a, ys ++ c :: rest) ↔
      rawText quotes seen xs = some (a, ys) := by
  induction xs generalizing seen a with
  | nil =>
      refine iff_of_false ?_ (by simp [rawText])
      intro h
      obtain ⟨hall, hclosed⟩ := append_of_rawText h
      exact hclosed.ne ys (c :: rest) hall
  | cons x xs ih =>
      have hquote : (c == '"') = false := beq_eq_false_iff_ne.2 (hc.ne (by decide))
      rw [List.cons_append]
      unfold rawText
      split
      · split
        · rw [takeWhile_before (p := (· == '"')) hquote, dropWhile_before (p := (· == '"')) hquote]
          simp
        · exact map_eq_some_congr (x :: ·) fun more => ih
      · exact map_eq_some_congr (x :: ·) fun more => ih

/-! ## Interpolated texts -/

/-- An interpolated text is taken from the front, up to a quote. -/
theorem append_of_interpolatedText {stack : List Interpolation} {cs a after : List Char}
    (h : interpolatedText stack cs = some (a, after)) : a ++ after = cs ∧ ClosedBy '"' a := by
  induction cs generalizing stack a with
  | nil => simp [interpolatedText] at h
  | cons c cs ih =>
      have hgo : ∀ {stack : List Interpolation},
          ((interpolatedText stack cs).map fun p => (c :: p.1, p.2)) = some (a, after) →
            a ++ after = c :: cs ∧ ClosedBy '"' a := by
        intro stack hmap
        obtain ⟨⟨more, rest⟩, hmore, heq⟩ := Option.map_eq_some_iff.1 hmap
        obtain ⟨rfl, rfl⟩ := Prod.mk.inj heq
        obtain ⟨rfl, hclosed⟩ := ih hmore
        exact ⟨rfl, hclosed.append [c]⟩
      cases stack with
      | nil => simp [interpolatedText] at h
      | cons top stack =>
          rw [interpolatedText.eq_def] at h
          cases top with
          | escaped => exact hgo h
          | plain | hole =>
              simp only at h
              split_ifs at h
              all_goals exact hgo h
          | text isVerbatim =>
              simp only at h
              split_ifs at h with hquote
              any_goals exact hgo h
              -- what is left is the quote that ends the text
              obtain ⟨rfl, rfl⟩ := Prod.mk.inj (Option.some.inj h)
              rw [eq_of_beq hquote]
              exact ⟨rfl, [], rfl⟩

/-- An interpolated text that is closed before a character is the same whatever follows. -/
theorem interpolatedText_before {stack : List Interpolation} {xs rest ys a : List Char} {c : Char}
    (hc : EndsToken c) : interpolatedText stack (xs ++ c :: rest) = some (a, ys ++ c :: rest) ↔
      interpolatedText stack xs = some (a, ys) := by
  induction xs generalizing stack a with
  | nil =>
      refine iff_of_false ?_ (by simp [interpolatedText])
      intro h
      obtain ⟨hall, hclosed⟩ := append_of_interpolatedText h
      exact hclosed.ne ys (c :: rest) hall
  | cons x xs ih =>
      have hgo : ∀ stack : List Interpolation,
          ((interpolatedText stack (xs ++ c :: rest)).map fun p => (x :: p.1, p.2)) =
              some (a, ys ++ c :: rest) ↔
            ((interpolatedText stack xs).map fun p => (x :: p.1, p.2)) = some (a, ys) :=
        fun stack => map_eq_some_congr (x :: ·) fun more => ih
      have hnext : ∀ d : Char, tokenEnds.all (· != d) = true →
          ((xs ++ c :: rest).head? == some d) = (xs.head? == some d) := by
        intro d hd
        cases xs with
        | nil => simpa using hc.ne hd
        | cons y xs => rfl
      cases stack with
      | nil => simp [interpolatedText]
      | cons top stack =>
          rw [List.cons_append, interpolatedText.eq_def _ (x :: (xs ++ c :: rest)),
            interpolatedText.eq_def _ (x :: xs)]
          simp only [hnext '"' (by decide), hnext '\x7b' (by decide)]
          cases top with
          | escaped => exact hgo _
          | plain | hole =>
              simp only
              split_ifs
              all_goals exact hgo _
          | text isVerbatim =>
              simp only
              split_ifs
              any_goals exact hgo _
              · simp
              · simp

/-! ## Texts and characters on one line -/

/-- A quoted text is taken from the front, up to a quote. -/
theorem append_of_quotedText {fuel : Nat} {cs a after : List Char}
    (h : quotedText fuel cs = some (a, after)) : a ++ after = cs ∧ ClosedBy '"' a := by
  induction fuel generalizing cs a with
  | zero => simp [quotedText] at h
  | succ fuel ih =>
      cases cs with
      | nil => simp [quotedText] at h
      | cons c cs =>
          unfold quotedText at h
          split at h
          · next hquote =>
            obtain ⟨rfl, rfl⟩ := Prod.mk.inj (Option.some.inj h)
            rw [eq_of_beq hquote]
            exact ⟨rfl, [], rfl⟩
          split at h
          · simp at h
          split at h
          · obtain ⟨⟨escaped, rest⟩, hescaped, h⟩ := Option.bind_eq_some_iff.1 h
            obtain ⟨⟨more, rest'⟩, hmore, h⟩ := Option.bind_eq_some_iff.1 h
            obtain ⟨rfl, rfl⟩ := Prod.mk.inj (Option.some.inj h)
            obtain ⟨rfl, hclosed⟩ := ih hmore
            rw [← append_of_escape? hescaped]
            exact ⟨by simp, hclosed.append (c :: escaped)⟩
          · obtain ⟨⟨more, rest'⟩, hmore, h⟩ := Option.bind_eq_some_iff.1 h
            obtain ⟨rfl, rfl⟩ := Prod.mk.inj (Option.some.inj h)
            obtain ⟨rfl, hclosed⟩ := ih hmore
            exact ⟨rfl, hclosed.append [c]⟩

/-- A quoted text that is closed before a character is the same whatever follows, and whatever the fuel, if
there is enough of it. -/
theorem quotedText_before {fuel fuel' : Nat} {xs rest ys a : List Char} {c : Char} (hc : EndsToken c)
    (hfuel : xs.length < fuel) (hfuel' : xs.length < fuel') :
    quotedText fuel (xs ++ c :: rest) = some (a, ys ++ c :: rest) ↔
      quotedText fuel' xs = some (a, ys) := by
  induction fuel generalizing fuel' xs a with
  | zero => omega
  | succ fuel ih =>
      obtain ⟨fuel', rfl⟩ := Nat.exists_eq_add_one_of_ne_zero (by omega : fuel' ≠ 0)
      cases xs with
      | nil =>
          refine iff_of_false ?_ (by simp [quotedText])
          intro h
          obtain ⟨hall, hclosed⟩ := append_of_quotedText h
          exact hclosed.ne ys (c :: rest) hall
      | cons x xs =>
          rw [List.length_cons] at hfuel hfuel'
          rw [List.cons_append]
          unfold quotedText
          split
          · simp
          split
          · simp
          split
          · rw [escape?_before hc]
            cases hescaped : escape? xs with
            | none => simp
            | some p =>
                obtain ⟨escaped, after⟩ := p
                have hlength := congrArg List.length (append_of_escape? hescaped)
                rw [List.length_append] at hlength
                have hshort : after.length < fuel := by omega
                have hshort' : after.length < fuel' := by omega
                exact bind_eq_some_congr (x :: escaped ++ ·) fun more => ih hshort hshort'
          · exact bind_eq_some_congr (x :: ·) fun more => ih (by omega) (by omega)

/-- A quoted character is taken from the front, up to a quote. -/
theorem append_of_quotedCharacter {cs a after : List Char}
    (h : quotedCharacter cs = some (a, after)) : a ++ after = cs ∧ ClosedBy '\'' a := by
  fun_cases quotedCharacter cs with
  | case1 tail escaped left hescaped =>
      obtain ⟨rfl, rfl⟩ : '\\' :: escaped ++ ['\''] = a ∧ left = after := by
        simpa [quotedCharacter, hescaped] using h
      rw [← append_of_escape? hescaped]
      exact ⟨by simp, '\\' :: escaped, rfl⟩
  | case2 tail hopen =>
      rw [quotedCharacter] at h
      split at h
      · next hescaped => exact (hopen _ _ hescaped).elim
      · simp at h
  | case3 c tail hne hbad =>
      rw [quotedCharacter.eq_2 _ _ hne, if_pos hbad] at h
      simp at h
  | case4 c tail hne hgood =>
      rw [quotedCharacter.eq_2 _ _ hne, if_neg hgood] at h
      obtain ⟨rfl, rfl⟩ := Prod.mk.inj (Option.some.inj h)
      exact ⟨rfl, [c], rfl⟩
  | case5 _ hescape hquote =>
      rw [quotedCharacter.eq_3 _ hescape hquote] at h
      simp at h

/-- A quoted character that is closed before another one is the same whatever follows. -/
theorem quotedCharacter_before {xs rest ys a : List Char} {c : Char} (hc : EndsToken c) :
    quotedCharacter (xs ++ c :: rest) = some (a, ys ++ c :: rest) ↔
      quotedCharacter xs = some (a, ys) := by
  have hquote : c ≠ '\'' := hc.ne (by decide)
  fun_cases quotedCharacter xs with
  | case1 tail escaped left hescaped =>
      rw [List.cons_append, quotedCharacter, escape?_before hc, hescaped]
      simp [followedBy]
  | case2 tail hopen =>
      refine iff_of_false ?_ (by simp)
      rw [List.cons_append, quotedCharacter, escape?_before hc]
      cases hescaped : escape? tail with
      | none => simp
      | some p =>
          obtain ⟨escaped, left⟩ := p
          cases left with
          | nil => simp [followedBy, hquote]
          | cons d left =>
              have hd : d ≠ '\'' := fun heq => hopen escaped left (by rw [hescaped, heq])
              simp [followedBy, hd]
  | case3 d tail hne hbad =>
      rw [List.cons_append, List.cons_append, quotedCharacter.eq_2 _ _ hne, if_pos hbad]
      simp
  | case4 d tail hne hgood =>
      rw [List.cons_append, List.cons_append, quotedCharacter.eq_2 _ _ hne, if_neg hgood]
      simp
  | case5 _ hescape hclosed =>
      refine iff_of_false ?_ (by simp)
      cases xs with
      | nil =>
          intro h
          obtain ⟨hall, hclosed⟩ := append_of_quotedCharacter h
          exact hclosed.ne ys (c :: rest) hall
      | cons d xs =>
          have hne : ∀ tail, d :: (xs ++ c :: rest) = '\\' :: tail → False := by
            intro tail heq
            exact hescape xs (by rw [(List.cons.inj heq).1])
          have hopen : ∀ e tail, d :: (xs ++ c :: rest) = e :: '\'' :: tail → False := by
            intro e tail heq
            cases xs with
            | nil => exact hquote (List.cons.inj (List.cons.inj heq).2).1
            | cons f xs =>
                have hf := (List.cons.inj (List.cons.inj heq).2).1
                exact hclosed d xs (by rw [hf])
          rw [List.cons_append, quotedCharacter.eq_3 _ hne hopen]
          simp

/-- What the front of a text does not begin with, the text does not begin with either. -/
theorem prefix_before {p xs rest : List Char} {c : Char} (hp : c ∉ p) (h : p <+: xs ++ c :: rest) :
    p <+: xs := by
  induction p generalizing xs with
  | nil => exact List.nil_prefix
  | cons d p ih =>
      rw [List.mem_cons, not_or] at hp
      cases xs with
      | nil => exact absurd (List.cons_prefix_cons.1 h).1.symm hp.1
      | cons x xs =>
          obtain ⟨rfl, htail⟩ := List.cons_prefix_cons.1 h
          exact List.cons_prefix_cons.2 ⟨rfl, ih hp.2 htail⟩

theorem not_prefix_before {p xs rest : List Char} {c : Char} (hp : c ∉ p)
    (h : ∀ more, xs = p ++ more → False) : ∀ more, xs ++ c :: rest = p ++ more → False := by
  intro more heq
  obtain ⟨more', hmore'⟩ := prefix_before hp ⟨more, heq.symm⟩
  exact h more' hmore'.symm

theorem some_map_congr {o o' : Option (List Char × List Char)} (g : List Char → List Char)
    {after after' a : List Char} (h : ∀ more, o = some (more, after) ↔ o' = some (more, after')) :
    (some (o.map fun p => (g p.1, p.2)) = none ↔ some (o'.map fun p => (g p.1, p.2)) = none) ∧
      (some (o.map fun p => (g p.1, p.2)) = some (some (a, after)) ↔
        some (o'.map fun p => (g p.1, p.2)) = some (some (a, after'))) := by
  rw [Option.some_inj, Option.some_inj]
  exact ⟨by simp, map_eq_some_congr g h⟩

/-- Whatever quotation comes first, its end is found before the character or not at all. -/
theorem quotedAt?_before {xs rest ys a : List Char} {c : Char} (hc : EndsToken c) (hne : xs ≠ []) :
    (quotedAt? (xs ++ c :: rest) = none ↔ quotedAt? xs = none) ∧
      (quotedAt? (xs ++ c :: rest) = some (some (a, ys ++ c :: rest)) ↔
        quotedAt? xs = some (some (a, ys))) := by
  have hat : c ≠ '@' := hc.ne (by decide)
  have hquote : c ≠ '"' := hc.ne (by decide)
  have hdollar : c ≠ '$' := hc.ne (by decide)
  have hatQuote : c ∉ ['@', '"'] := by simp [hat, hquote]
  have hdollars := fun zs =>
    takeWhile_before (p := (· == '$')) (beq_eq_false_iff_ne.2 hdollar) zs rest
  have hafter := fun zs =>
    dropWhile_before (p := (· == '$')) (beq_eq_false_iff_ne.2 hdollar) zs rest
  have hquotes := fun zs =>
    takeWhile_before (p := (· == '"')) (beq_eq_false_iff_ne.2 hquote) zs rest
  have hinside := fun zs =>
    dropWhile_before (p := (· == '"')) (beq_eq_false_iff_ne.2 hquote) zs rest
  fun_cases quotedAt? xs with
  | case1 withLead tail => exact some_map_congr (['\''] ++ ·) fun more => quotedCharacter_before hc
  | case2 withLead tail =>
      exact some_map_congr (['$', '@', '"'] ++ ·) fun more => interpolatedText_before hc
  | case3 withLead tail =>
      exact some_map_congr (['@', '$', '"'] ++ ·) fun more => interpolatedText_before hc
  | case4 withLead tail => exact some_map_congr (['@', '"'] ++ ·) fun more => verbatimText_before hc
  | case5 withLead tail hplain dollars after quotes hraw =>
      rw [List.cons_append, quotedAt?.eq_5 _ (not_prefix_before (p := ['@', '"']) hatQuote hplain)]
      simp only [hdollars, hafter, hquotes, hinside]
      rw [if_pos hraw]
      exact some_map_congr ('$' :: dollars ++ quotes ++ ·) fun more => rawText_before hc
  | case6 withLead tail hplain dollars after quotes hraw hone =>
      rw [List.cons_append, quotedAt?.eq_5 _ (not_prefix_before (p := ['@', '"']) hatQuote hplain)]
      simp only [hdollars, hafter, hquotes, hinside]
      rw [if_neg hraw, if_pos hone]
      have hfirst : after = '"' :: after.drop 1 := by
        refine eq_cons_of_run_ne_nil (?_ : quotes ≠ [])
        simp only [Bool.and_eq_true] at hone
        simpa using hone.2
      have hdrop : (after ++ c :: rest).drop 1 = after.drop 1 ++ c :: rest := by
        rw [hfirst]
        rfl
      rw [hdrop]
      exact some_map_congr (['$', '"'] ++ ·) fun more => interpolatedText_before hc
  | case7 tail hplain dollars after quotes hraw hone =>
      rw [List.cons_append, quotedAt?.eq_5 _ (not_prefix_before (p := ['@', '"']) hatQuote hplain)]
      simp only [hdollars, hafter, hquotes, hinside]
      rw [if_neg hraw, if_neg hone]
      simp
  | case8 withLead tail quotes hraw =>
      rw [List.cons_append, quotedAt?.eq_6, ← List.cons_append]
      simp only [hquotes, hinside]
      rw [if_pos hraw, if_pos hraw]
      exact some_map_congr (quotes ++ ·) fun more => rawText_before hc
  | case9 withLead tail quotes hraw =>
      rw [List.cons_append, quotedAt?.eq_6, ← List.cons_append]
      simp only [hquotes, hinside]
      rw [if_neg hraw, if_neg hraw]
      refine some_map_congr (['"'] ++ ·) fun more => quotedText_before hc ?_ (by omega)
      rw [List.length_append]
      omega
  | case10 _ h1 h2 h3 h4 h5 h6 =>
      obtain ⟨d, tail, rfl⟩ := List.exists_cons_of_ne_nil hne
      have hsame : ∀ {e : Char}, (∀ more, d :: tail = e :: more → False) →
          ∀ more, d :: (tail ++ c :: rest) = e :: more → False := by
        intro e hno more heq
        exact hno tail (by rw [(List.cons.inj heq).1])
      have hfar : ∀ {p : List Char}, c ∉ p → (∀ more, d :: tail = p ++ more → False) →
          ∀ more, d :: tail ++ c :: rest = p ++ more → False :=
        fun hp hno => not_prefix_before hp hno
      have hmarks : c ∉ ['$', '@', '"'] := by simp [hat, hquote, hdollar]
      have hmarks' : c ∉ ['@', '$', '"'] := by simp [hat, hquote, hdollar]
      rw [List.cons_append, quotedAt?.eq_7 _ (hsame h1) (hfar hmarks h2) (hfar hmarks' h3)
        (hfar hatQuote h4) (hsame h5) (hsame h6)]
      simp

/-- What is read behind the opening marks of a quoted text is closed as the whole is. -/
theorem append_of_lead {lead inside a after : List Char} {o : Option (List Char × List Char)}
    (h : some (o.map fun p => (lead ++ p.1, p.2)) = some (some (a, after)))
    (hread : ∀ more, o = some (more, after) →
      more ++ after = inside ∧ (ClosedBy '"' more ∨ ClosedBy '\'' more)) :
    a ++ after = lead ++ inside ∧ (ClosedBy '"' a ∨ ClosedBy '\'' a) := by
  obtain ⟨⟨more, rest⟩, hmore, heq⟩ := Option.map_eq_some_iff.1 (Option.some.inj h)
  obtain ⟨rfl, rfl⟩ := Prod.mk.inj heq
  obtain ⟨rfl, hclosed⟩ := hread more hmore
  exact ⟨List.append_assoc .., hclosed.imp (·.append lead) (·.append lead)⟩

/-- A text in quotes is all that has been read of it, and ends with a quote. -/
theorem append_of_quotedAt? {cs a after : List Char} (h : quotedAt? cs = some (some (a, after))) :
    a ++ after = cs ∧ (ClosedBy '"' a ∨ ClosedBy '\'' a) := by
  have hruns : ∀ (d : Char) (cs : List Char), cs.takeWhile (· == d) ++ cs.dropWhile (· == d) = cs :=
    fun d cs => List.takeWhile_append_dropWhile
  fun_cases quotedAt? cs with
  | case1 withLead tail =>
      exact append_of_lead h fun more hmore => (append_of_quotedCharacter hmore).imp_right .inr
  | case2 withLead tail =>
      exact append_of_lead h fun more hmore =>
        (append_of_interpolatedText hmore).imp_right .inl
  | case3 withLead tail =>
      exact append_of_lead h fun more hmore =>
        (append_of_interpolatedText hmore).imp_right .inl
  | case4 withLead tail =>
      exact append_of_lead h fun more hmore => (append_of_verbatimText hmore).imp_right .inl
  | case5 withLead tail hplain dollars rest quotes hraw =>
      rw [quotedAt?.eq_5 _ hplain] at h
      simp only at h
      rw [if_pos hraw] at h
      have hall := append_of_lead h fun more hmore =>
        (append_of_rawText hmore).imp_right .inl
      rw [List.append_assoc, hruns, List.cons_append, hruns] at hall
      exact hall
  | case6 withLead tail hplain dollars rest quotes hraw hone =>
      rw [quotedAt?.eq_5 _ hplain] at h
      simp only at h
      rw [if_neg hraw, if_pos hone] at h
      have hall := append_of_lead h fun more hmore =>
        (append_of_interpolatedText hmore).imp_right .inl
      obtain ⟨hdollars, hquotes⟩ : dollars = [] ∧ quotes ≠ [] := by simpa using hone
      have htail : rest = tail := by
        have hrun : dollars ++ rest = tail := hruns '$' tail
        rwa [hdollars] at hrun
      have hfirst : rest = '"' :: rest.drop 1 := eq_cons_of_run_ne_nil hquotes
      rw [List.cons_append, List.singleton_append, ← hfirst, htail] at hall
      exact hall
  | case7 tail hplain dollars rest quotes hraw hone =>
      rw [quotedAt?.eq_5 _ hplain] at h
      simp only at h
      rw [if_neg hraw, if_neg hone] at h
      simp at h
  | case8 withLead tail quotes hraw =>
      rw [quotedAt?.eq_6] at h
      simp only at h
      rw [if_pos hraw] at h
      have hall := append_of_lead h fun more hmore => (append_of_rawText hmore).imp_right .inl
      rw [hruns] at hall
      exact hall
  | case9 withLead tail quotes hraw =>
      rw [quotedAt?.eq_6] at h
      simp only at h
      rw [if_neg hraw] at h
      exact append_of_lead h fun more hmore => (append_of_quotedText hmore).imp_right .inl
  | case10 _ h1 h2 h3 h4 h5 h6 =>
      rw [quotedAt?.eq_7 _ h1 h2 h3 h4 h5 h6] at h
      simp at h

end PlatformClasses.Source
