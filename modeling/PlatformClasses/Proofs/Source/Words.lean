import Mathlib.Logic.Basic
import PlatformClasses.Source.Lexer

/-!
# The characters of words

A word of a source is an identifier: letters, digits and what else may stand in one, perhaps with an `@`
before it, and letters written as escapes.  So no word contains a slash, a dot or a space.
-/

namespace PlatformClasses.Source

/-- A character that the text of a word may contain. -/
def isNameChar (c : Char) : Bool :=
  Text.isIdentifierStart c || Text.isIdentifierPart c || c == '@' || c == '\\'

/-- All characters are such that a word may contain them. -/
def AreNameChars (cs : List Char) : Prop := ∀ c ∈ cs, isNameChar c = true

theorem AreNameChars.cons {c : Char} {cs : List Char} (hc : isNameChar c = true)
    (hcs : AreNameChars cs) : AreNameChars (c :: cs) := by
  intro d hd
  rcases List.mem_cons.1 hd with rfl | hd
  · exact hc
  · exact hcs d hd

theorem AreNameChars.append {cs ds : List Char} (hcs : AreNameChars cs) (hds : AreNameChars ds) :
    AreNameChars (cs ++ ds) := by
  intro c hc
  rcases List.mem_append.1 hc with hc | hc
  · exact hcs c hc
  · exact hds c hc

/-- The digits of an escape are characters of names. -/
theorem isNameChar_of_isHexDigit {c : Char} (h : isHexDigit c = true) : isNameChar c = true := by
  have hrange : (0x30 ≤ c.toNat ∧ c.toNat ≤ 0x39) ∨ (0x61 ≤ c.toNat ∧ c.toNat ≤ 0x66) ∨
      (0x41 ≤ c.toNat ∧ c.toNat ≤ 0x46) := by
    simp only [isHexDigit, Text.isAsciiDigit, Bool.or_eq_true, Bool.and_eq_true, decide_eq_true_eq,
      Char.le_def, UInt32.le_iff_toNat_le] at h
    rcases h with (h | h) | h
    · exact .inl h
    · exact .inr (.inl h)
    · exact .inr (.inr h)
  have hsmall : c.toNat < 128 := by omega
  have hpart : Text.isIdentifierPart c = true := by
    simp only [Text.isIdentifierPart, hsmall, if_true, Text.isAsciiLetter, Text.isAsciiDigit,
      Bool.or_eq_true, Bool.and_eq_true, decide_eq_true_eq]
    omega
  simp [isNameChar, hpart]

theorem areNameChars_hexExactly {n : Nat} {cs ds after : List Char}
    (h : hexExactly n cs = some (ds, after)) : AreNameChars ds := by
  induction n generalizing cs ds with
  | zero =>
      obtain ⟨rfl, -⟩ : [] = ds ∧ cs = after := by simpa [hexExactly] using h
      intro c hc
      simp at hc
  | succ n ih =>
      cases cs with
      | nil => simp [hexExactly] at h
      | cons c cs =>
          unfold hexExactly at h
          split at h
          · next hdigit =>
            obtain ⟨⟨more, rest⟩, hmore, heq⟩ := Option.map_eq_some_iff.1 h
            obtain ⟨rfl, rfl⟩ := Prod.mk.inj heq
            exact AreNameChars.cons (isNameChar_of_isHexDigit hdigit) (ih hmore)
          · simp at h

/-- The parts of an identifier are characters of names, escapes included. -/
theorem areNameChars_identifierParts (fuel : Nat) (atStart : Bool) (cs : List Char) :
    AreNameChars (identifierParts fuel atStart cs).1 := by
  have hnil : AreNameChars [] := fun c hc => by simp at hc
  induction fuel generalizing atStart cs with
  | zero => exact hnil
  | succ fuel ih =>
      cases cs with
      | nil => exact hnil
      | cons c rest =>
          unfold identifierParts
          by_cases hc : (if atStart then Text.isIdentifierStart c else Text.isIdentifierPart c) = true
          · rw [if_pos hc]
            have hname : isNameChar c = true := by
              cases atStart
              · have hpart : Text.isIdentifierPart c = true := hc
                simp [isNameChar, hpart]
              · have hstart : Text.isIdentifierStart c = true := hc
                simp [isNameChar, hstart]
            exact AreNameChars.cons hname (ih false rest)
          · rw [if_neg hc]
            split
            · next hbackslash =>
              have hname : isNameChar c = true := by simp [isNameChar, eq_of_beq hbackslash]
              split
              · next r =>
                split
                · next ds after hds =>
                  have htail := (areNameChars_hexExactly hds).append (ih false after)
                  exact AreNameChars.cons hname (AreNameChars.cons (by decide) htail)
                · exact hnil
              · next r =>
                split
                · next ds after hds =>
                  have htail := (areNameChars_hexExactly hds).append (ih false after)
                  exact AreNameChars.cons hname (AreNameChars.cons (by decide) htail)
                · exact hnil
              · exact hnil
            · exact hnil

/-- An identifier is made of characters of names, with the sign that may stand before it. -/
theorem areNameChars_identifierText (cs : List Char) : AreNameChars (identifierText cs).1 := by
  unfold identifierText
  split
  · next rest =>
    simp only
    split
    · exact fun c hc => by simp at hc
    · exact AreNameChars.cons (by decide) (areNameChars_identifierParts _ true rest)
  · exact areNameChars_identifierParts _ true _

/-- A token that is a word is made of characters of names. -/
theorem areNameChars_tokenAt? {lead : List Trivia} {cs after : List Char} {t : Token}
    (h : tokenAt? lead cs = some (t, after)) (hkind : t.kind = .word) :
    AreNameChars t.text.toList := by
  unfold tokenAt? at h
  split at h
  · simp at h
  · obtain ⟨rfl, -⟩ := Prod.mk.inj (Option.some.inj h)
    simp at hkind
  · simp only at h
    split at h
    · obtain ⟨rfl, -⟩ := Prod.mk.inj (Option.some.inj h)
      rw [String.toList_ofList]
      exact areNameChars_identifierText cs
    · rcases ite_eq_iff.1 h with ⟨-, heq⟩ | ⟨-, heq⟩
      · obtain ⟨rfl, -⟩ := Prod.mk.inj (Option.some.inj heq)
        simp at hkind
      · obtain ⟨⟨mark, rest⟩, -, heq⟩ := Option.map_eq_some_iff.1 heq
        obtain ⟨rfl, -⟩ := Prod.mk.inj heq
        simp at hkind

/-- Each word among tokens is made of the characters of names. -/
def WordsAreNames (ts : List Token) : Prop :=
  ∀ t ∈ ts, t.kind = .word → AreNameChars t.text.toList

theorem WordsAreNames.cons {t : Token} {ts : List Token}
    (ht : t.kind = .word → AreNameChars t.text.toList) (hts : WordsAreNames ts) :
    WordsAreNames (t :: ts) := by
  intro u hu
  rcases List.mem_cons.1 hu with rfl | hu
  · exact ht
  · exact hts u hu

/-- All words among the tokens of a text are made of characters of names. -/
theorem wordsAreNames_tokensFrom? {fuel : Nat} {lead : List Trivia} {cs : List Char}
    {ts : List Token} (h : tokensFrom? fuel lead cs = some ts) : WordsAreNames ts := by
  induction fuel generalizing lead cs ts with
  | zero => simp [tokensFrom?] at h
  | succ fuel ih =>
      cases cs with
      | nil =>
          obtain rfl : [⟨lead.reverse, .stop, ""⟩] = ts := by simpa [tokensFrom?] using h
          intro t ht hkind
          obtain rfl := List.mem_singleton.1 ht
          simp at hkind
      | cons c rest =>
          unfold tokensFrom? at h
          simp only at h
          split at h
          · exact ih h
          split at h
          · exact ih h
          split at h
          · obtain ⟨⟨inside, after⟩, -, h⟩ := Option.bind_eq_some_iff.1 h
            exact ih h
          split at h
          · obtain ⟨⟨line, after⟩, -, h⟩ := Option.bind_eq_some_iff.1 h
            simp only at h
            split at h
            · exact ih h
            · obtain ⟨more, hmore, h⟩ := Option.bind_eq_some_iff.1 h
              obtain rfl := Option.some.inj h
              exact WordsAreNames.cons (by simp) (ih hmore)
          · obtain ⟨⟨t, after⟩, ht, h⟩ := Option.bind_eq_some_iff.1 h
            obtain ⟨more, hmore, h⟩ := Option.bind_eq_some_iff.1 h
            obtain rfl := Option.some.inj h
            exact WordsAreNames.cons (areNameChars_tokenAt? ht) (ih hmore)

/-- The words of a source are made of the characters of names. -/
theorem wordsAreNames_tokens? {cs : List Char} {ts : List Token} (h : tokens? cs = some ts) :
    WordsAreNames ts := by
  unfold tokens? at h
  split at h
  · exact wordsAreNames_tokensFrom? h
  · exact wordsAreNames_tokensFrom? h

end PlatformClasses.Source
