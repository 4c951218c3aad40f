import Mathlib.Data.Nat.Digits.Defs
import PlatformClasses.Proofs.TypeRef.Scanning
import PlatformClasses.Text.Integer

/-!
# What an integer literal is

The texts that denote integers, by a grammar: white space, a sign or none, digits with single underscores
between them, and white space again.  The reader keeps a value and a count while it goes through the digits;
for what it reads of the rest of a text these only shift the result (`readDigits?_eq_some_iff`).  White
space ends where the literal begins, since neither a sign nor a digit is white space, so the reader
accepts exactly the texts of the grammar and gives what they denote (`toInt?_eq_some_iff`).
-/

namespace PlatformClasses.Text

open TypeRef

/-- Characters that spell digits, with single underscores between neighbours. -/
inductive SpellsDigits : List Char → List Nat → Prop
  | last {c : Char} {d : Nat} (h : digitValue? c = some d) : SpellsDigits [c] [d]
  | next {c : Char} {d : Nat} {cs : List Char} {ds : List Nat} (h : digitValue? c = some d)
      (rest : SpellsDigits cs ds) : SpellsDigits (c :: cs) (d :: ds)
  | underscored {c : Char} {d : Nat} {cs : List Char} {ds : List Nat} (h : digitValue? c = some d)
      (rest : SpellsDigits cs ds) : SpellsDigits (c :: '_' :: cs) (d :: ds)

/-- Characters that spell a number of no more digits than a literal may have. -/
inductive SpellsNumber (cs : List Char) : Nat → Prop
  | digits {ds : List Nat} (h : SpellsDigits cs ds) (hlength : ds.length ≤ maxDigits) :
      SpellsNumber cs (Nat.ofDigits 10 ds.reverse)

/-- Characters that spell an integer. -/
inductive SpellsInteger : List Char → Int → Prop
  | unsigned {cs : List Char} {n : Nat} (h : SpellsNumber cs n) : SpellsInteger cs n
  | plus {cs : List Char} {n : Nat} (h : SpellsNumber cs n) : SpellsInteger ('+' :: cs) n
  | minus {cs : List Char} {n : Nat} (h : SpellsNumber cs n) : SpellsInteger ('-' :: cs) (-n)

/-- A text that denotes an integer. -/
inductive IsIntegerLiteral (n : Int) : String → Prop
  | between {s : String} {front cs back : List Char} (hs : s.toList = front ++ cs ++ back)
      (hfront : ∀ c ∈ front, isBlankAroundInteger c = true)
      (hback : ∀ c ∈ back, isBlankAroundInteger c = true) (h : SpellsInteger cs n) :
      IsIntegerLiteral n s

/-! ## Digits -/

theorem ne_underscore_of_digit {c : Char} {d : Nat} (h : digitValue? c = some d) : c ≠ '_' := by
  rintro rfl
  have hnone : digitValue? '_' = none := by decide
  simp [hnone] at h

theorem isBlankAroundInteger_of_digit {c : Char} {d : Nat} (h : digitValue? c = some d) :
    isBlankAroundInteger c = false := by
  have hword : isWordChar c = true := by
    unfold digitValue? at h
    unfold isWordChar isDecimalDigit digitValue?
    split at h
    case isTrue hascii =>
      have hdigit : isAsciiDigit c = true := by
        rw [Option.ite_none_right_eq_some] at h
        exact h.1
      simp [hascii, hdigit]
    case isFalse hascii => simp [hascii, h]
  cases hblank : isBlank c with
  | false => simp [isBlankAroundInteger, hblank]
  | true => simp [isWordChar_of_isBlank hblank] at hword

/-- Reading digits goes on from the value and the count of the digits before. -/
theorem readDigits?_of_spells {cs : List Char} {ds : List Nat} (h : SpellsDigits cs ds)
    (value count : Nat) (afterDigit : Bool) :
    readDigits? value count afterDigit cs =
      if count + ds.length ≤ maxDigits then some (ds.foldl (fun n d => 10 * n + d) value) else none := by
  induction h generalizing value count afterDigit with
  | last h =>
      have hne := ne_underscore_of_digit h
      simp [readDigits?, h, hne]
  | next h _ ih =>
      have hne := ne_underscore_of_digit h
      simp [readDigits?, h, hne, ih, ← Nat.add_assoc, Nat.add_right_comm count 1]
  | underscored h _ ih =>
      have hne := ne_underscore_of_digit h
      simp [readDigits?, h, hne, ih, ← Nat.add_assoc, Nat.add_right_comm count 1]

/-- What can be read is spelled digits, or what may follow a digit. -/
theorem exists_spells_of_readDigits? {cs : List Char} {value count n : Nat} {afterDigit : Bool}
    (h : readDigits? value count afterDigit cs = some n) :
    (∃ ds, SpellsDigits cs ds) ∨ afterDigit = true ∧
      (cs = [] ∨ ∃ rest ds, cs = '_' :: rest ∧ SpellsDigits rest ds) := by
  induction cs generalizing value count afterDigit with
  | nil =>
      rw [readDigits?, Option.ite_none_right_eq_some] at h
      exact .inr ⟨(Bool.and_eq_true_iff.1 h.1).1, .inl rfl⟩
  | cons c rest ih =>
      rw [readDigits?] at h
      split at h
      case isTrue hc =>
        obtain rfl : c = '_' := by simpa using hc
        rw [Option.ite_none_right_eq_some] at h
        obtain ⟨ds, hds⟩ | ⟨hfalse, -⟩ := ih h.2
        · exact .inr ⟨h.1, .inr ⟨rest, ds, rfl, hds⟩⟩
        · cases hfalse
      case isFalse =>
        split at h
        · next d hd =>
          obtain ⟨ds, hds⟩ | ⟨-, rfl | ⟨more, ds, rfl, hds⟩⟩ := ih h
          · exact .inl ⟨d :: ds, .next hd hds⟩
          · exact .inl ⟨[d], .last hd⟩
          · exact .inl ⟨d :: ds, .underscored hd hds⟩
        · cases h

/-- Reading digits from the left gives their positional value. -/
theorem foldl_eq_ofDigits (ds : List Nat) :
    ds.foldl (fun n d => 10 * n + d) 0 = Nat.ofDigits 10 ds.reverse := by
  rw [Nat.ofDigits_eq_foldr, List.foldr_reverse]
  simp [Nat.add_comm]

/-- Digits are read exactly where a number is spelled. -/
theorem readDigits?_eq_some_iff {cs : List Char} {n : Nat} :
    readDigits? 0 0 false cs = some n ↔ SpellsNumber cs n := by
  constructor
  · intro h
    obtain ⟨ds, hds⟩ | ⟨hfalse, -⟩ := exists_spells_of_readDigits? h
    · rw [readDigits?_of_spells hds, Option.ite_none_right_eq_some, foldl_eq_ofDigits] at h
      obtain ⟨hlength, hn⟩ := h
      cases hn
      exact .digits hds (by omega)
    · cases hfalse
  · rintro ⟨hds, hlength⟩
    rw [readDigits?_of_spells hds, if_pos (by omega), foldl_eq_ofDigits]

/-! ## The white space around a literal -/

/-- Digits begin with a character that is no white space. -/
theorem SpellsDigits.exists_first {cs : List Char} {ds : List Nat} (h : SpellsDigits cs ds) :
    ∃ c rest, cs = c :: rest ∧ isBlankAroundInteger c = false := by
  cases h with
  | last h | next h | underscored h => exact ⟨_, _, rfl, isBlankAroundInteger_of_digit h⟩

theorem SpellsDigits.exists_last {cs : List Char} {ds : List Nat} (h : SpellsDigits cs ds) :
    ∃ front c, cs = front ++ [c] ∧ isBlankAroundInteger c = false := by
  induction h with
  | @last c d h => exact ⟨[], c, rfl, isBlankAroundInteger_of_digit h⟩
  | @next c d cs ds h _ ih =>
      obtain ⟨front, last, rfl, hlast⟩ := ih
      exact ⟨c :: front, last, rfl, hlast⟩
  | @underscored c d cs ds h _ ih =>
      obtain ⟨front, last, rfl, hlast⟩ := ih
      exact ⟨c :: '_' :: front, last, rfl, hlast⟩

/-- An integer begins with a character that is no white space. -/
theorem SpellsInteger.exists_first {cs : List Char} {n : Int} (h : SpellsInteger cs n) :
    ∃ c rest, cs = c :: rest ∧ isBlankAroundInteger c = false := by
  cases h with
  | unsigned h =>
      obtain ⟨hds, -⟩ := h
      exact hds.exists_first
  | plus h => exact ⟨'+', _, rfl, by decide⟩
  | minus h => exact ⟨'-', _, rfl, by decide⟩

theorem SpellsInteger.exists_last {cs : List Char} {n : Int} (h : SpellsInteger cs n) :
    ∃ front c, cs = front ++ [c] ∧ isBlankAroundInteger c = false := by
  cases h with
  | unsigned h =>
      obtain ⟨hds, -⟩ := h
      exact hds.exists_last
  | plus h | minus h =>
      obtain ⟨hds, -⟩ := h
      obtain ⟨front, c, rfl, hc⟩ := hds.exists_last
      exact ⟨_ :: front, c, rfl, hc⟩

/-- The white space around an integer is taken away, and nothing else. -/
theorem bareInteger_of_spells {front cs back : List Char} {n : Int}
    (hfront : ∀ c ∈ front, isBlankAroundInteger c = true)
    (hback : ∀ c ∈ back, isBlankAroundInteger c = true) (h : SpellsInteger cs n) :
    bareInteger (front ++ cs ++ back) = cs :=
  trim_append_of_stops hfront hback h.exists_first h.exists_last

/-- Only white space is taken away. -/
theorem exists_eq_bareInteger (cs : List Char) :
    ∃ front back, cs = front ++ bareInteger cs ++ back ∧
      (∀ c ∈ front, isBlankAroundInteger c = true) ∧ ∀ c ∈ back, isBlankAroundInteger c = true := by
  refine ⟨cs.takeWhile isBlankAroundInteger,
    ((cs.dropWhile isBlankAroundInteger).reverse.takeWhile isBlankAroundInteger).reverse, ?_, ?_, ?_⟩
  · rw [bareInteger, List.append_assoc, ← List.reverse_append, List.takeWhile_append_dropWhile,
      List.reverse_reverse, List.takeWhile_append_dropWhile]
  · exact fun c hc => List.mem_takeWhile_imp hc
  · exact fun c hc => List.mem_takeWhile_imp (List.mem_reverse.1 hc)

/-! ## Literals -/

/-- A number does not begin with a sign. -/
theorem SpellsNumber.ne_sign {c : Char} {cs : List Char} {n : Nat} (h : SpellsNumber (c :: cs) n) :
    c ≠ '-' ∧ c ≠ '+' := by
  obtain ⟨hds, -⟩ := h
  have hdigit : ∃ d, digitValue? c = some d := by
    cases hds with
    | last h | next h | underscored h => exact ⟨_, h⟩
  obtain ⟨d, hd⟩ := hdigit
  constructor
  · rintro rfl
    have hnone : digitValue? '-' = none := by decide
    simp [hnone] at hd
  · rintro rfl
    have hnone : digitValue? '+' = none := by decide
    simp [hnone] at hd

/-- A sign and digits are read exactly where an integer is spelled. -/
theorem readSigned?_eq_some_iff {cs : List Char} {n : Int} :
    readSigned? cs = some n ↔ SpellsInteger cs n := by
  constructor
  · intro h
    unfold readSigned? at h
    split at h
    all_goals
      obtain ⟨m, hm, rfl⟩ := Option.map_eq_some_iff.1 h
      have hnumber := readDigits?_eq_some_iff.1 hm
    · exact .minus hnumber
    · exact .plus hnumber
    · exact .unsigned hnumber
  · intro h
    cases h with
    | minus h | plus h => simp [readSigned?, readDigits?_eq_some_iff.2 h]
    | unsigned h =>
        have hread := readDigits?_eq_some_iff.2 h
        obtain ⟨c, rest, rfl, -⟩ := (SpellsInteger.unsigned h).exists_first
        obtain ⟨hminus, hplus⟩ := h.ne_sign
        simp [readSigned?, hminus, hplus, hread]

/-- A text is read as an integer if and only if it denotes that integer. -/
theorem toInt?_eq_some_iff {s : String} {n : Int} : toInt? s = some n ↔ IsIntegerLiteral n s := by
  unfold toInt?
  constructor
  · intro h
    obtain ⟨front, back, hs, hfront, hback⟩ := exists_eq_bareInteger s.toList
    exact .between hs hfront hback (readSigned?_eq_some_iff.1 h)
  · rintro ⟨hs, hfront, hback, h⟩
    rw [hs, bareInteger_of_spells hfront hback h]
    exact readSigned?_eq_some_iff.2 h

end PlatformClasses.Text
