import Mathlib.Data.List.Find
import PlatformClasses.Proofs.Source.Quotations

/-!
# Where tokens end

A token is taken from the front of a text, and all that is not taken is left (`append_of_faceAt?`).  Where it
ends is decided by the characters behind it, as many as two for some numbers and marks.  White space and
semicolons end every token, unless they are in quotes.  So a token that is taken in front of such a character
is the same whatever comes after the character, and even if another one stands in its place
(`faceAt?_before`).
-/

namespace PlatformClasses.Source

/-! ## What is taken -/

/-! ### Words -/

/-- The parts of an identifier are taken from the front, escapes included. -/
theorem append_identifierParts (fuel : Nat) (atStart : Bool) (cs : List Char) :
    (identifierParts fuel atStart cs).1 ++ (identifierParts fuel atStart cs).2 = cs := by
  fun_induction identifierParts fuel atStart cs with
  | case3 fuel atStart c cs hc more after hmore ih =>
      rw [hmore] at ih
      exact congrArg (c :: ·) ih
  | case4 fuel atStart c hc hslash cs ds left hds more after hmore ih
  | case6 fuel atStart c hc hslash cs ds left hds more after hmore ih =>
      rw [hmore] at ih
      rw [← append_of_hexExactly hds, ← ih]
      simp
  | _ => rfl

/-- An identifier is taken from the front. -/
theorem append_identifierText (cs : List Char) :
    (identifierText cs).1 ++ (identifierText cs).2 = cs := by
  fun_cases identifierText cs with
  | case1 => rfl
  | case2 cs name after hname hne =>
      have hall := append_identifierParts cs.length true cs
      rw [hname] at hall
      exact congrArg ('@' :: ·) hall
  | case3 cs hno => exact append_identifierParts cs.length true cs

/-- An identifier goes as far as there are characters of identifiers. -/
theorem not_isIdentifierPart_of_identifierParts {fuel : Nat} {atStart : Bool} {cs rest : List Char}
    {d : Char} (hfuel : cs.length ≤ fuel)
    (hstart : atStart = true → (identifierParts fuel atStart cs).1 ≠ [])
    (h : (identifierParts fuel atStart cs).2 = d :: rest) : Text.isIdentifierPart d = false := by
  have hstop : ∀ {atStart : Bool} {c : Char} {tail : List Char},
      ¬(if atStart = true then Text.isIdentifierStart c else Text.isIdentifierPart c) = true →
        (atStart = true → ([] : List Char) ≠ []) → c :: tail = d :: rest →
          Text.isIdentifierPart d = false := by
    intro atStart c tail hc hne heq
    obtain ⟨rfl, -⟩ := List.cons.inj heq
    cases atStart with
    | true => exact absurd rfl (hne rfl)
    | false => simpa using hc
  fun_induction identifierParts fuel atStart cs with
  | case1 atStart cs =>
      obtain rfl : cs = [] := List.eq_nil_of_length_eq_zero (by omega)
      simp at h
  | case2 => simp at h
  | case3 fuel atStart c cs hc more after hmore ih =>
      rw [hmore] at ih
      rw [List.length_cons] at hfuel
      exact ih (by omega) (by simp) h
  | case4 fuel atStart c hc hslash cs ds left hds more after hmore ih
  | case6 fuel atStart c hc hslash cs ds left hds more after hmore ih =>
      rw [hmore] at ih
      have hlength := congrArg List.length (append_of_hexExactly hds)
      simp only [List.length_cons, List.length_append] at hfuel hlength
      exact ih (by omega) (by simp) h
  | case5 fuel atStart c hc | case7 fuel atStart c hc => exact hstop hc hstart h
  | case8 fuel atStart c cs hc | case9 fuel atStart c cs hc => exact hstop hc hstart h

/-- Behind an identifier stands no character that could belong to it. -/
theorem not_isIdentifierPart_of_identifierText {cs rest : List Char} {d : Char}
    (hne : (identifierText cs).1 ≠ []) (h : (identifierText cs).2 = d :: rest) :
    Text.isIdentifierPart d = false := by
  fun_cases identifierText cs with
  | case1 cs name after hname hempty => simp [identifierText, hname, hempty] at hne
  | case2 cs name after hname hempty =>
      have hname' : identifierText ('@' :: cs) = ('@' :: name, after) := by
        simp only [identifierText, hname, hempty, Bool.false_eq_true, if_false]
      rw [hname'] at h
      refine not_isIdentifierPart_of_identifierParts le_rfl (fun _ : true = true => ?_)
        ((congrArg Prod.snd hname).trans h)
      rw [hname]
      simpa using hempty
  | case3 cs hno =>
      rw [identifierText.eq_2 _ hno] at hne h
      exact not_isIdentifierPart_of_identifierParts le_rfl (fun _ => hne) h

/-! ### Numbers -/

/-- Digits are taken from the front. -/
theorem append_digitRun (isDigit : Char → Bool) (cs : List Char) :
    (digitRun isDigit cs).1 ++ (digitRun isDigit cs).2 = cs :=
  List.takeWhile_append_dropWhile

theorem append_of_digitRun {isDigit : Char → Bool} {cs ds after : List Char}
    (h : digitRun isDigit cs = (ds, after)) : ds ++ after = cs := by
  have hall := append_digitRun isDigit cs
  rwa [h] at hall

/-- The sign at the front of an exponent, if there is one. -/
def signText : List Char → List Char × List Char
  | '+' :: rest => (['+'], rest)
  | '-' :: rest => (['-'], rest)
  | cs => ([], cs)

theorem exponent_cons (e : Char) (cs : List Char) : exponent (e :: cs) =
    if e == 'e' || e == 'E' then
      let (sign, digits) := signText cs
      let (ds, after) := digitRun Text.isAsciiDigit digits
      if ds.isEmpty then ([], e :: cs) else (e :: sign ++ ds, after)
    else ([], e :: cs) := rfl

/-- A sign is taken from the front. -/
theorem append_signText (cs : List Char) : (signText cs).1 ++ (signText cs).2 = cs := by
  fun_cases signText cs <;> rfl

/-- An exponent is taken from the front. -/
theorem append_exponent (cs : List Char) : (exponent cs).1 ++ (exponent cs).2 = cs := by
  cases cs with
  | nil => rfl
  | cons e cs =>
      rw [exponent_cons]
      simp only
      split_ifs
      · rfl
      · simp only [List.cons_append, List.append_assoc, append_digitRun, append_signText]
      · rfl

/-- A suffix is taken from the front. -/
theorem append_numberSuffix (cs : List Char) : (numberSuffix cs).1 ++ (numberSuffix cs).2 = cs := by
  fun_cases numberSuffix cs <;> rfl

/-- The fraction at the front of a text, if there is one. -/
def fractionText (cs : List Char) : List Char × List Char :=
  match cs with
  | '.' :: d :: rest =>
    if Text.isAsciiDigit d then
      let (ds, after) := digitRun Text.isAsciiDigit (d :: rest)
      ('.' :: ds, after)
    else ([], cs)
  | _ => ([], cs)

/-- A decimal number is its digits, a fraction, an exponent and a suffix, one after the other. -/
theorem decimal_eq (cs : List Char) : numberText.decimal cs =
    let (whole, after) := digitRun Text.isAsciiDigit cs
    let (fraction, after) := fractionText after
    let (power, after) := exponent after
    let (suffix, after) := numberSuffix after
    (whole ++ fraction ++ power ++ suffix, after) := rfl

theorem append_fractionText (cs : List Char) : (fractionText cs).1 ++ (fractionText cs).2 = cs := by
  fun_cases fractionText cs with
  | case1 d cs hd ds after hds =>
      exact congrArg ('.' :: ·) (append_of_digitRun hds)
  | case2 => rfl
  | case3 => rfl

/-- A decimal number is taken from the front. -/
theorem append_decimal (cs : List Char) :
    (numberText.decimal cs).1 ++ (numberText.decimal cs).2 = cs := by
  rw [decimal_eq]
  simp only [List.append_assoc, append_numberSuffix, append_exponent, append_fractionText,
    append_digitRun]

/-- A number of any base is taken from the front. -/
theorem append_numberText (cs : List Char) : (numberText cs).1 ++ (numberText cs).2 = cs := by
  fun_cases numberText cs with
  | case1 x cs hx ds left hds suffix after hsuffix
  | case2 x cs _ hx ds left hds suffix after hsuffix =>
      have hall := append_numberSuffix left
      rw [hsuffix] at hall
      rw [← append_of_digitRun hds, ← hall]
      simp
  | case3 x cs hx hx' => exact append_decimal ('0' :: x :: cs)
  | case4 => exact append_decimal cs

/-- Whether a number begins a text. -/
def startsNumber : List Char → Bool
  | '.' :: d :: _ => Text.isAsciiDigit d
  | d :: _ => Text.isAsciiDigit d
  | [] => false

/-- A number takes at least one character. -/
theorem numberText_ne_nil {cs : List Char} (h : startsNumber cs = true) : (numberText cs).1 ≠ [] := by
  have hdecimal : (numberText.decimal cs).1 ≠ [] := by
    rw [decimal_eq]
    fun_cases startsNumber cs with
    | case1 d cs =>
        have hd : Text.isAsciiDigit d = true := h
        have hdot : Text.isAsciiDigit '.' = false := by decide
        simp [digitRun, fractionText, hd, hdot]
    | case2 d cs hno =>
        have hd : Text.isAsciiDigit d = true := by rwa [startsNumber] at h; exact hno
        simp [digitRun, hd]
    | case3 => simp [startsNumber] at h
  fun_cases numberText cs with
  | case1 | case2 => simp
  | case3 | case4 => exact hdecimal

/-! ### Tokens -/

/-- A mark is taken from the front. -/
theorem append_of_markAt? {cs a after : List Char} (h : markAt? cs = some (a, after)) :
    a ++ after = cs := by
  unfold markAt? at h
  split at h
  · next m hm =>
    obtain ⟨rfl, rfl⟩ := Prod.mk.inj (Option.some.inj h)
    obtain ⟨after, rfl⟩ := List.isPrefixOf_iff_prefix.1
      (List.find?_some (p := fun m : String => m.toList.isPrefixOf cs) hm)
    rw [← String.length_toList, List.drop_left]
  · split at h
    · split at h
      · obtain ⟨rfl, rfl⟩ := Prod.mk.inj (Option.some.inj h)
        rfl
      · simp at h
    · simp at h

/-! ## What comes after a token -/

section

variable {xs rest : List Char} {c : Char} (hc : EndsToken c)

include hc

/-! ### Words -/

/-- What ends tokens does not belong to identifiers. -/
theorem EndsToken.not_identifier :
    Text.isIdentifierStart c = false ∧ Text.isIdentifierPart c = false := by
  have hall : (tokenEnds.all fun c =>
      !Text.isIdentifierStart c && !Text.isIdentifierPart c) = true := by decide +kernel
  simpa using hc.all hall

theorem identifierParts_endsToken (fuel : Nat) (atStart : Bool) :
    identifierParts fuel atStart (c :: rest) = ([], c :: rest) := by
  obtain ⟨hstart, hpart⟩ := hc.not_identifier
  have hslash : c ≠ '\\' := hc.ne (by decide)
  cases fuel with
  | zero => rfl
  | succ fuel => cases atStart <;> simp [identifierParts, hstart, hpart, hslash]

/-- The parts of an identifier end where tokens end, whatever the fuel, if there is enough of it. -/
theorem identifierParts_before {fuel fuel' : Nat} {atStart : Bool} (hfuel : xs.length ≤ fuel)
    (hfuel' : xs.length ≤ fuel') : identifierParts fuel atStart (xs ++ c :: rest) =
      followedBy (c :: rest) (identifierParts fuel' atStart xs) := by
  have huc : c ≠ 'u' := hc.ne (by decide)
  have hUc : c ≠ 'U' := hc.ne (by decide)
  fun_induction identifierParts fuel' atStart xs generalizing fuel with
  | case1 atStart cs =>
      obtain rfl : cs = [] := List.eq_nil_of_length_eq_zero (by omega)
      exact identifierParts_endsToken hc fuel atStart
  | case2 fuel' atStart => exact identifierParts_endsToken hc fuel atStart
  | case3 fuel' atStart x tail hx more after hmore ih =>
      obtain ⟨fuel, rfl⟩ := Nat.exists_eq_add_one_of_ne_zero (by simp at hfuel; omega : fuel ≠ 0)
      rw [List.length_cons] at hfuel hfuel'
      have htail := ih (by omega : tail.length ≤ fuel) (by omega)
      rw [hmore] at htail
      rw [List.cons_append, identifierParts.eq_def]
      simp only [hx, if_true, htail]
      rfl
  | case4 fuel' atStart x hx hslash tail ds left hds more after hmore ih
  | case6 fuel' atStart x hx hslash tail ds left hds more after hmore ih =>
      obtain ⟨fuel, rfl⟩ := Nat.exists_eq_add_one_of_ne_zero (by simp at hfuel; omega : fuel ≠ 0)
      have hlength := congrArg List.length (append_of_hexExactly hds)
      simp only [List.length_cons, List.length_append] at hfuel hfuel' hlength
      have hleft := ih (by omega : left.length ≤ fuel) (by omega)
      rw [hmore] at hleft
      rw [List.cons_append, List.cons_append, identifierParts.eq_def]
      simp only [hx, Bool.false_eq_true, if_false, hslash, if_true, hexExactly_before hc, hds,
        Option.map_some, followedBy, hleft]
  | case5 fuel' atStart x hx hslash tail hds | case7 fuel' atStart x hx hslash tail hds  =>
      obtain ⟨fuel, rfl⟩ := Nat.exists_eq_add_one_of_ne_zero (by simp at hfuel; omega : fuel ≠ 0)
      rw [List.cons_append, List.cons_append, identifierParts.eq_def]
      simp only [hx, hslash, if_true, hexExactly_before hc, hds, Option.map_none]
      rfl
  | case8 fuel' atStart x tail hx hslash hu hU =>
      obtain ⟨fuel, rfl⟩ := Nat.exists_eq_add_one_of_ne_zero (by simp at hfuel; omega : fuel ≠ 0)
      rw [List.cons_append, identifierParts.eq_def]
      simp only [hx, Bool.false_eq_true, if_false, hslash, if_true]
      split
      · next heq => exact (not_prefix_before (p := ['u']) (by simpa using huc) hu _ heq).elim
      · next heq => exact (not_prefix_before (p := ['U']) (by simpa using hUc) hU _ heq).elim
      · rfl
  | case9 fuel' atStart x tail hx hslash =>
      obtain ⟨fuel, rfl⟩ := Nat.exists_eq_add_one_of_ne_zero (by simp at hfuel; omega : fuel ≠ 0)
      rw [List.cons_append, identifierParts.eq_def]
      simp only [hx, hslash]
      rfl

/-- An identifier ends where tokens end. -/
theorem identifierText_before :
    identifierText (xs ++ c :: rest) = followedBy (c :: rest) (identifierText xs) := by
  have hat : c ≠ '@' := hc.ne (by decide)
  fun_cases identifierText xs with
  | case1 tail name after hname hempty =>
      have hparts : identifierParts (tail ++ c :: rest).length true (tail ++ c :: rest) =
          followedBy (c :: rest) (identifierParts tail.length true tail) :=
        identifierParts_before hc (by simp) le_rfl
      rw [hname] at hparts
      rw [List.cons_append, identifierText, hparts]
      simp only [followedBy, hempty, if_true]
      rfl
  | case2 tail name after hname hempty =>
      have hparts : identifierParts (tail ++ c :: rest).length true (tail ++ c :: rest) =
          followedBy (c :: rest) (identifierParts tail.length true tail) :=
        identifierParts_before hc (by simp) le_rfl
      rw [hname] at hparts
      rw [List.cons_append, identifierText, hparts]
      simp only [followedBy, hempty, Bool.false_eq_true, if_false]
  | case3 xs hno =>
      rw [identifierText.eq_2 _ (not_prefix_before (p := ['@']) (by simpa using hat) hno)]
      exact identifierParts_before hc (by simp) le_rfl

/-! ### Numbers -/

/-- Digits end where tokens end. -/
theorem digitRun_before (isDigit : Char → Bool) (hdigit : isDigit c = false) :
    digitRun isDigit (xs ++ c :: rest) = followedBy (c :: rest) (digitRun isDigit xs) := by
  have hline : (c == '_') = false := beq_eq_false_iff_ne.2 (hc.ne (by decide))
  have hrun : (isDigit c || c == '_') = false := by rw [hdigit, hline, Bool.or_self]
  unfold digitRun followedBy
  rw [takeWhile_before (p := fun c => isDigit c || c == '_') hrun,
    dropWhile_before (p := fun c => isDigit c || c == '_') hrun]

theorem EndsToken.not_isAsciiDigit : Text.isAsciiDigit c = false := by
  simpa using hc.all (p := fun c => !Text.isAsciiDigit c) (by decide)

theorem signText_before : signText (xs ++ c :: rest) = followedBy (c :: rest) (signText xs) := by
  have hplus : c ≠ '+' := hc.ne (by decide)
  have hminus : c ≠ '-' := hc.ne (by decide)
  fun_cases signText xs with
  | case1 tail => rfl
  | case2 tail => rfl
  | case3 xs hp hm =>
      rw [signText.eq_3]
      · rfl
      · exact not_prefix_before (p := ['+']) (by simpa using hplus) hp
      · exact not_prefix_before (p := ['-']) (by simpa using hminus) hm

/-- An exponent ends where tokens end: its sign and its digits do. -/
theorem exponent_before : exponent (xs ++ c :: rest) = followedBy (c :: rest) (exponent xs) := by
  cases xs with
  | nil =>
      have he : (c == 'e' || c == 'E') = false := by
        simpa using hc.all (p := fun c => !(c == 'e' || c == 'E')) (by decide)
      rw [List.nil_append, exponent_cons, he]
      rfl
  | cons e tail =>
      rw [List.cons_append, exponent_cons, exponent_cons]
      simp only [signText_before hc, followedBy, digitRun_before hc _ hc.not_isAsciiDigit]
      split_ifs <;> rfl

theorem numberSuffix_before :
    numberSuffix (xs ++ c :: rest) = followedBy (c :: rest) (numberSuffix xs) := by
  have hu : "uU".toList.contains c = false := by
    simpa using hc.all (p := fun c => !"uU".toList.contains c) (by decide)
  have hl : "lL".toList.contains c = false := by
    simpa using hc.all (p := fun c => !"lL".toList.contains c) (by decide)
  have hone : "uUlLfFdDmM".toList.contains c = false := by
    simpa using hc.all (p := fun c => !"uUlLfFdDmM".toList.contains c) (by decide)
  fun_cases numberSuffix xs with
  | case1 x y tail hpair => simp only [List.cons_append, numberSuffix, hpair, if_true, followedBy]
  | case2 x y tail hno hpair =>
      simp only [List.cons_append, numberSuffix, hno, hpair, if_true, followedBy, if_false,
        Bool.false_eq_true]
  | case3 x y tail hno hno' hx =>
      simp only [List.cons_append, numberSuffix, hno, hno', hx, if_true, followedBy, if_false,
        Bool.false_eq_true]
  | case4 x y tail hno hno' hx =>
      simp only [List.cons_append, numberSuffix, hno, hno', hx, followedBy, if_false,
        Bool.false_eq_true]
  | case5 x hx =>
      simp only [List.singleton_append, numberSuffix, hu, hl, hx, Bool.and_false, if_true, if_false,
        Bool.false_eq_true]
      rfl
  | case6 x hx =>
      simp only [List.singleton_append, numberSuffix, hu, hl, hx, Bool.and_false, if_false,
        Bool.false_eq_true]
      rfl
  | case7 =>
      cases rest with
      | nil =>
          simp only [List.nil_append, numberSuffix, hone, if_false, Bool.false_eq_true]
          rfl
      | cons d rest =>
          simp only [List.nil_append, numberSuffix, hu, hl, hone, Bool.false_and, if_false,
            Bool.false_eq_true]
          rfl

/-- A fraction ends where tokens end, although two characters decide whether there is one. -/
theorem fractionText_before :
    fractionText (xs ++ c :: rest) = followedBy (c :: rest) (fractionText xs) := by
  have hdot : c ≠ '.' := hc.ne (by decide)
  have hdigit := hc.not_isAsciiDigit
  fun_cases fractionText xs with
  | case1 d tail hd ds after hds =>
      have hrun : digitRun Text.isAsciiDigit (d :: tail ++ c :: rest) =
          followedBy (c :: rest) (digitRun Text.isAsciiDigit (d :: tail)) :=
        digitRun_before hc _ hdigit
      rw [hds, List.cons_append] at hrun
      rw [List.cons_append, List.cons_append, fractionText, if_pos hd, hrun]
      rfl
  | case2 d tail hd =>
      rw [List.cons_append, List.cons_append, fractionText, if_neg hd]
      rfl
  | case3 xs hno =>
      cases xs with
      | nil =>
          rw [List.nil_append, fractionText]
          · rfl
          · intro d more heq
            exact hdot (List.cons.inj heq).1
      | cons x xs =>
          cases xs with
          | nil =>
              by_cases hx : x = '.'
              · subst hx
                rw [List.singleton_append, fractionText, if_neg (by simp [hdigit])]
                rfl
              · rw [List.singleton_append, fractionText]
                · rfl
                · intro d more heq
                  exact hx (List.cons.inj heq).1
          | cons y ys =>
              rw [List.cons_append, List.cons_append, fractionText]
              · rfl
              · intro d more heq
                exact hno y ys (by rw [(List.cons.inj heq).1])

/-- A decimal number ends where tokens end. -/
theorem decimal_before :
    numberText.decimal (xs ++ c :: rest) = followedBy (c :: rest) (numberText.decimal xs) := by
  rw [decimal_eq, decimal_eq]
  simp only [digitRun_before hc _ hc.not_isAsciiDigit, followedBy, fractionText_before hc,
    exponent_before hc, numberSuffix_before hc]

/-- A number of any base ends where tokens end. -/
theorem numberText_before : numberText (xs ++ c :: rest) = followedBy (c :: rest) (numberText xs) := by
  have hhex := hc.not_isHexDigit
  have hhead : ∀ (p : Char → Bool) (tail : List Char), p c = false →
      ((tail ++ c :: rest).head?.map p).getD false = (tail.head?.map p).getD false := by
    intro p tail hp
    cases tail with
    | nil => simpa using hp
    | cons y ys => rfl
  have hbit : (c == '0' || c == '1') = false := by
    simpa using hc.all (p := fun d => !(d == '0' || d == '1')) (by decide)
  have hbitHead := fun tail => hhead (fun d => d == '0' || d == '1') tail hbit
  have hbitRun : ∀ tail, digitRun (fun d => d == '0' || d == '1') (tail ++ c :: rest) =
      followedBy (c :: rest) (digitRun (fun d => d == '0' || d == '1') tail) :=
    fun tail => digitRun_before hc _ hbit
  fun_cases numberText xs with
  | case1 x tail hx ds left hds suffix after hsuffix =>
      rw [List.cons_append, List.cons_append, numberText]
      simp only [hhead _ tail hhex, hx, if_true, digitRun_before hc _ hhex, hds, followedBy,
        numberSuffix_before hc, hsuffix]
  | case2 x tail hx hx' ds left hds suffix after hsuffix =>
      rw [List.cons_append, List.cons_append, numberText]
      simp only [hhead _ tail hhex, hbitHead, hx, hx', Bool.false_eq_true, if_false, if_true, hbitRun,
        hds, followedBy, numberSuffix_before hc, hsuffix]
  | case3 x tail hx hx' =>
      rw [List.cons_append, List.cons_append, numberText]
      simp only [hhead _ tail hhex, hbitHead, hx, hx', Bool.false_eq_true, if_false]
      have hdecimal : numberText.decimal ('0' :: x :: tail ++ c :: rest) =
          followedBy (c :: rest) (numberText.decimal ('0' :: x :: tail)) :=
        decimal_before hc
      exact hdecimal
  | case4 xs hno =>
      have hall : numberText (xs ++ c :: rest) = numberText.decimal (xs ++ c :: rest) := by
        unfold numberText
        split
        · next x tail heq =>
          cases xs with
          | nil => exact absurd (List.cons.inj heq).1 (hc.ne (by decide))
          | cons y ys =>
              cases ys with
              | nil =>
                  obtain ⟨rfl, rfl⟩ := List.cons.inj (List.cons.inj heq).2
                  have hx : (c == 'x' || c == 'X') = false := by
                    simpa using hc.all (p := fun d => !(d == 'x' || d == 'X')) (by decide)
                  have hb : (c == 'b' || c == 'B') = false := by
                    simpa using hc.all (p := fun d => !(d == 'b' || d == 'B')) (by decide)
                  simp only [hx, hb, Bool.false_and, Bool.false_eq_true, if_false]
              | cons z zs =>
                  obtain ⟨rfl, heq⟩ := List.cons.inj heq
                  exact (hno z zs rfl).elim
        · rfl
      rw [hall, decimal_before hc]

/-! ### Marks -/

/-- A mark ends where tokens end, since no mark but the semicolon holds such a character. -/
theorem markAt?_before (hne : xs ≠ []) :
    markAt? (xs ++ c :: rest) = (markAt? xs).map (followedBy (c :: rest)) := by
  have hlong : ∀ m ∈ longMarks, c ∉ m.toList := by
    have hall := hc.all (p := fun d => longMarks.all fun m => !m.toList.contains d) (by decide)
    intro m hm
    simpa using List.all_eq_true.1 hall m hm
  have hprefix : ∀ m ∈ longMarks, m.toList.isPrefixOf (xs ++ c :: rest) = m.toList.isPrefixOf xs := by
    intro m hm
    rw [Bool.eq_iff_iff, List.isPrefixOf_iff_prefix, List.isPrefixOf_iff_prefix]
    exact ⟨prefix_before (hlong m hm), fun h => h.trans (List.prefix_append _ _)⟩
  unfold markAt?
  rw [List.find?_congr hprefix]
  cases hfind : longMarks.find? fun m => m.toList.isPrefixOf xs with
  | some m =>
      have hm : m.toList <+: xs :=
        List.isPrefixOf_iff_prefix.1 (List.find?_some (p := fun m : String => m.toList.isPrefixOf xs) hfind)
      have hlength : m.length ≤ xs.length := by
        rw [← String.length_toList]
        exact hm.length_le
      simp only [Option.map_some, followedBy, List.drop_append_of_le_length hlength]
  | none =>
      obtain ⟨x, tail, rfl⟩ := List.exists_cons_of_ne_nil hne
      simp only [List.cons_append]
      split <;> rfl

/-! ### Tokens -/

/-- The kind and the text of the token at the front of a text, if it is not in quotes, and what
follows. -/
def unquotedAt? (cs : List Char) : Option (TokenKind × List Char × List Char) :=
  if !(identifierText cs).1.isEmpty then some (.word, identifierText cs)
  else if startsNumber cs then some (.number, numberText cs)
  else (markAt? cs).map fun p => (.mark, p)

/-- The kind and the text of the token at the front of a text, and what follows. -/
def faceAt? (cs : List Char) : Option (TokenKind × List Char × List Char) :=
  match quotedAt? cs with
  | some inQuotes => inQuotes.map fun p => (.quoted, p)
  | none => unquotedAt? cs

omit hc in
/-- A token is what is seen at the front, with the trivia before it. -/
theorem tokenAt?_eq (lead : List Trivia) (cs : List Char) : tokenAt? lead cs =
    (faceAt? cs).map fun (kind, text, after) => (⟨lead, kind, String.ofList text⟩, after) := by
  unfold tokenAt? faceAt?
  rcases quotedAt? cs with _ | _ | p
  · show (if !(identifierText cs).1.isEmpty then _
      else if startsNumber cs = true then _ else _) = _
    unfold unquotedAt?
    split_ifs
    · rfl
    · rfl
    · rw [Option.map_map]
      rfl
  · rfl
  · rfl

/-- Whether a number starts is decided by what stands before the end of a token. -/
theorem startsNumber_before (hne : xs ≠ []) : startsNumber (xs ++ c :: rest) = startsNumber xs := by
  obtain ⟨x, tail, rfl⟩ := List.exists_cons_of_ne_nil hne
  by_cases hx : x = '.'
  · subst hx
    cases tail with
    | nil => exact hc.not_isAsciiDigit
    | cons y tail => rfl
  · rw [List.cons_append, startsNumber, startsNumber]
    · exact fun d more heq => (hx heq).elim
    · exact fun d more heq => (hx heq).elim

/-- A token without quotes ends where tokens end. -/
theorem unquotedAt?_before (hne : xs ≠ []) : unquotedAt? (xs ++ c :: rest) =
    (unquotedAt? xs).map fun p => (p.1, followedBy (c :: rest) p.2) := by
  unfold unquotedAt?
  rw [identifierText_before hc, startsNumber_before hc hne, numberText_before hc, markAt?_before hc hne,
    followedBy]
  split_ifs
  · rfl
  · rfl
  · rw [Option.map_map, Option.map_map]
    rfl

/-- What is taken in front of white space or a semicolon depends on that part of the text only. -/
theorem faceAt?_before {kind : TokenKind} {a ys : List Char} (hne : xs ≠ []) :
    faceAt? (xs ++ c :: rest) = some (kind, a, ys ++ c :: rest) ↔ faceAt? xs = some (kind, a, ys) := by
  obtain ⟨hnone, hsome⟩ : (quotedAt? (xs ++ c :: rest) = none ↔ quotedAt? xs = none) ∧
      (quotedAt? (xs ++ c :: rest) = some (some (a, ys ++ c :: rest)) ↔
        quotedAt? xs = some (some (a, ys))) :=
    quotedAt?_before hc hne
  have hmap : ∀ (o : Option (List Char × List Char)) (left : List Char),
      o.map (fun p => (TokenKind.quoted, p)) = some (kind, a, left) ↔
        .quoted = kind ∧ o = some (a, left) := by
    intro o left
    cases o <;> simp
  unfold faceAt?
  cases hfront : quotedAt? xs with
  | none =>
      rw [hnone.2 hfront]
      show unquotedAt? (xs ++ c :: rest) = _ ↔ unquotedAt? xs = _
      rw [unquotedAt?_before hc hne]
      rcases unquotedAt? xs with _ | ⟨kind', text, left⟩
      · simp
      · simp [followedBy]
  | some q =>
      cases hall : quotedAt? (xs ++ c :: rest) with
      | none =>
          rw [hnone.1 hall] at hfront
          simp at hfront
      | some q' =>
          rw [hfront, hall, Option.some_inj, Option.some_inj] at hsome
          show q'.map _ = _ ↔ q.map _ = _
          rw [hmap, hmap, hsome]

end

/-! ## How a token ends -/

/-- A text whose last character is not white space. -/
def EndsVisibly (cs : List Char) : Prop := ∃ c, Text.isBlank c = false ∧ ClosedBy c cs

/-- What a reader takes does not end with a character that it stops at. -/
theorem endsVisibly_of_before {read : List Char → List Char × List Char}
    (hbefore : ∀ {xs rest : List Char} {c : Char}, EndsToken c →
      read (xs ++ c :: rest) = followedBy (c :: rest) (read xs))
    (happend : ∀ cs, (read cs).1 ++ (read cs).2 = cs) {cs : List Char} (hne : (read cs).1 ≠ []) :
    EndsVisibly (read cs).1 := by
  obtain ⟨inside, c, hread⟩ := (List.eq_nil_or_concat' _).resolve_left hne
  refine ⟨c, ?_, inside, hread⟩
  rw [← Bool.not_eq_true]
  intro hblank
  have hall := happend cs
  rw [hread, List.append_assoc, List.singleton_append] at hall
  have htaken : read (inside ++ c :: (read cs).2) = followedBy (c :: (read cs).2) (read inside) :=
    hbefore (endsToken_of_isBlank hblank)
  rw [hall] at htaken
  have hlength := congrArg List.length (happend inside)
  have hlength' := congrArg (fun p => p.1.length) htaken
  simp only [hread, followedBy, List.length_append, List.length_singleton] at hlength hlength'
  omega

theorem endsVisibly_of_markAt? {cs a after : List Char} (h : markAt? cs = some (a, after)) :
    EndsVisibly a := by
  have hlong : ∀ m ∈ longMarks, m.toList.getLast?.map Text.isBlank = some false := by decide
  have hshort : (shortMarks.all fun c => !Text.isBlank c) = true := by decide
  unfold markAt? at h
  split at h
  · next m hm =>
    obtain ⟨rfl, rfl⟩ := Prod.mk.inj (Option.some.inj h)
    obtain ⟨c, hlast, hblank⟩ := Option.map_eq_some_iff.1 (hlong m (List.mem_of_find?_eq_some hm))
    obtain ⟨inside, hinside⟩ := List.getLast?_eq_some_iff.1 hlast
    exact ⟨c, hblank, inside, hinside⟩
  · split at h
    · next c rest _ =>
      split at h
      · next hmem =>
        obtain ⟨rfl, rfl⟩ := Prod.mk.inj (Option.some.inj h)
        exact ⟨c, by simpa using List.all_eq_true.1 hshort c (by simpa using hmem), [], rfl⟩
      · simp at h
    · simp at h

/-- A token is all that has been taken for it, and does not end with white space. -/
theorem append_of_faceAt? {kind : TokenKind} {cs a after : List Char}
    (h : faceAt? cs = some (kind, a, after)) : a ++ after = cs ∧ EndsVisibly a := by
  unfold faceAt? at h
  split at h
  · next inQuotes hquoted =>
    obtain ⟨p, rfl, heq⟩ := Option.map_eq_some_iff.1 h
    obtain ⟨-, rfl⟩ := Prod.mk.inj heq
    obtain ⟨hall, hclosed⟩ := append_of_quotedAt? hquoted
    refine ⟨hall, ?_⟩
    rcases hclosed with hclosed | hclosed
    · exact ⟨'"', by decide, hclosed⟩
    · exact ⟨'\'', by decide, hclosed⟩
  · unfold unquotedAt? at h
    split at h
    · next hname =>
      obtain ⟨-, heq⟩ := Prod.mk.inj (Option.some.inj h)
      have hne : (identifierText cs).1 ≠ [] := by simpa using hname
      have hword := endsVisibly_of_before (fun hc => identifierText_before hc) append_identifierText hne
      have hall := append_identifierText cs
      rw [heq] at hall hword
      exact ⟨hall, hword⟩
    split at h
    · next hstart =>
      obtain ⟨-, heq⟩ := Prod.mk.inj (Option.some.inj h)
      have hne := numberText_ne_nil hstart
      have hnumber := endsVisibly_of_before (fun hc => numberText_before hc) append_numberText hne
      have hall := append_numberText cs
      rw [heq] at hall hnumber
      exact ⟨hall, hnumber⟩
    · obtain ⟨p, hp, heq⟩ := Option.map_eq_some_iff.1 h
      obtain ⟨-, rfl⟩ := Prod.mk.inj heq
      exact ⟨append_of_markAt? hp, endsVisibly_of_markAt? hp⟩

/-- A word is an identifier. -/
theorem identifierText_of_faceAt? {cs a after : List Char} (h : faceAt? cs = some (.word, a, after)) :
    identifierText cs = (a, after) ∧ a ≠ [] := by
  unfold faceAt? at h
  split at h
  · obtain ⟨p, -, heq⟩ := Option.map_eq_some_iff.1 h
    simp at heq
  · unfold unquotedAt? at h
    split at h
    · next hname =>
      obtain ⟨-, heq⟩ := Prod.mk.inj (Option.some.inj h)
      refine ⟨heq, ?_⟩
      simpa [heq] using hname
    split at h
    · simp at h
    · obtain ⟨p, -, heq⟩ := Option.map_eq_some_iff.1 h
      simp at heq

end PlatformClasses.Source
