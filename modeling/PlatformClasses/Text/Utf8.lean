/-!
# Texts as bytes

A text is written as UTF-8 and read back byte by byte.  Reading stops at the first malformed sequence
and reports where it stands, how long it is and what is wrong with it; the length follows the longest
start of the sequence that some character begins with.

The main statement is that what is written is read back (`decode_encode`).
-/

namespace PlatformClasses.Text.Utf8

/-- What is wrong with a malformed sequence. -/
inductive Reason where
  /-- No character starts with the byte. -/
  | invalidStart
  /-- The bytes so far begin a character, and the next byte does not go on with it. -/
  | invalidContinuation
  /-- The bytes begin a character, and there are no more. -/
  | unexpectedEnd
deriving Repr, DecidableEq

/-- A malformed sequence: its first byte, its position, and its length in bytes. -/
structure Malformed where
  reason : Reason
  position : Nat
  length : Nat
  first : UInt8
deriving Repr, DecidableEq

/-- The UTF-8 form of a text. -/
def encode (cs : List Char) : List UInt8 :=
  cs.flatMap String.utf8EncodeChar

/-- The number of bytes of the character that a byte starts, and the bits the byte gives to it. -/
def lead? (b : UInt8) : Option (Nat × Nat) :=
  let n := b.toNat
  if n < 0x80 then some (1, n)
  else if n < 0xc2 then none
  else if n < 0xe0 then some (2, n - 0xc0)
  else if n < 0xf0 then some (3, n - 0xe0)
  else if n < 0xf5 then some (4, n - 0xf0)
  else none

/-- The least and greatest second byte after a first byte: overlong forms, surrogates and code points
beyond U+10FFFF are excluded here. -/
def secondBounds (b : UInt8) : Nat × Nat :=
  let n := b.toNat
  if n == 0xe0 then (0xa0, 0xbf)
  else if n == 0xed then (0x80, 0x9f)
  else if n == 0xf0 then (0x90, 0xbf)
  else if n == 0xf4 then (0x80, 0x8f)
  else (0x80, 0xbf)

/-- Reads the continuation bytes of a character: `missing` of them, the next between the bounds, with
the bits of the bytes before.  Gives the code point and the rest, or the number of bytes that fitted
and what stopped them. -/
def continuation (missing bits : Nat) (bounds : Nat × Nat) (bytes : List UInt8) (seen : Nat) :
    Except (Reason × Nat) (Nat × List UInt8) :=
  match missing, bytes with
  | 0, rest => .ok (bits, rest)
  | _ + 1, [] => .error (.unexpectedEnd, seen)
  | missing + 1, b :: rest =>
    if bounds.1 ≤ b.toNat && b.toNat ≤ bounds.2 then
      continuation missing (bits * 64 + (b.toNat - 0x80)) (0x80, 0xbf) rest (seen + 1)
    else .error (.invalidContinuation, seen)

/-- The characters of at most `fuel` bytes, the first of which stands at `position`. -/
def decodeFrom : (fuel position : Nat) → List UInt8 → Except Malformed (List Char)
  | 0, _, _ => .ok []
  | _ + 1, _, [] => .ok []
  | fuel + 1, position, b :: rest =>
    match lead? b with
    | none => .error ⟨.invalidStart, position, 1, b⟩
    | some (size, bits) =>
      match continuation (size - 1) bits (secondBounds b) rest 1 with
      | .error (reason, seen) => .error ⟨reason, position, seen, b⟩
      | .ok (n, rest) => (decodeFrom fuel (position + size) rest).map (Char.ofNat n :: ·)

/-- The text that bytes are the UTF-8 form of. -/
def decode (bytes : List UInt8) : Except Malformed (List Char) :=
  decodeFrom bytes.length 0 bytes

/-! ## Reading what is written -/

theorem continuation_succ_ofNat {missing bits m : Nat} {bounds : Nat × Nat} (hm : m < 256)
    (h1 : bounds.1 ≤ m) (h2 : m ≤ bounds.2) (rest : List UInt8) (seen : Nat) :
    continuation (missing + 1) bits bounds (UInt8.ofNat m :: rest) seen =
      continuation missing (bits * 64 + (m - 0x80)) (0x80, 0xbf) rest (seen + 1) := by
  simp [continuation, UInt8.toNat_ofNat_of_lt' hm, h1, h2]

theorem lead?_ofNat {n : Nat} (h : n < 256) :
    lead? (UInt8.ofNat n) =
      if n < 0x80 then some (1, n)
      else if n < 0xc2 then none
      else if n < 0xe0 then some (2, n - 0xc0)
      else if n < 0xf0 then some (3, n - 0xe0)
      else if n < 0xf5 then some (4, n - 0xf0)
      else none := by
  simp only [lead?, UInt8.toNat_ofNat_of_lt' h]

theorem secondBounds_ofNat {n : Nat} (h : n < 256) :
    secondBounds (UInt8.ofNat n) =
      if n = 0xe0 then (0xa0, 0xbf)
      else if n = 0xed then (0x80, 0x9f)
      else if n = 0xf0 then (0x90, 0xbf)
      else if n = 0xf4 then (0x80, 0x8f)
      else (0x80, 0xbf) := by
  simp only [secondBounds, UInt8.toNat_ofNat_of_lt' h, beq_iff_eq]

/-- The second byte of a character of three bytes lies between the bounds of the first. -/
theorem secondBounds_three {n : Nat} (h : n < 0xd800 ∨ 0xdfff < n) (h1 : 0x7ff < n)
    (h2 : n ≤ 0xffff) :
    (secondBounds (UInt8.ofNat (n / 4096 % 16 + 224))).1 ≤ n / 64 % 64 + 128 ∧
      n / 64 % 64 + 128 ≤ (secondBounds (UInt8.ofNat (n / 4096 % 16 + 224))).2 := by
  rw [secondBounds_ofNat (by omega)]
  repeat' split
  all_goals dsimp only; omega

/-- The second byte of a character of four bytes lies between the bounds of the first. -/
theorem secondBounds_four {n : Nat} (h1 : 0xffff < n) (h2 : n < 0x110000) :
    (secondBounds (UInt8.ofNat (n / 262144 % 8 + 240))).1 ≤ n / 4096 % 64 + 128 ∧
      n / 4096 % 64 + 128 ≤ (secondBounds (UInt8.ofNat (n / 262144 % 8 + 240))).2 := by
  rw [secondBounds_ofNat (by omega)]
  repeat' split
  all_goals dsimp only; omega

/-- The bytes of a character are read before others as that character. -/
theorem decodeFrom_utf8EncodeChar_append (c : Char) (rest : List UInt8) (fuel position : Nat) :
    decodeFrom (fuel + 1) position (String.utf8EncodeChar c ++ rest) =
      (decodeFrom fuel (position + (String.utf8EncodeChar c).length) rest).map (c :: ·) := by
  have hv : c.val.toNat < 0xd800 ∨ 0xdfff < c.val.toNat ∧ c.val.toNat < 0x110000 := c.valid
  have hc : Char.ofNat c.val.toNat = c := Char.ofNat_toNat c
  simp only [String.utf8EncodeChar]
  generalize c.val.toNat = n at hv hc
  split
  · simp only [List.cons_append, List.nil_append, decodeFrom, lead?_ofNat (n := n) (by omega)]
    rw [if_pos (by omega)]
    simp [continuation, hc]
  split
  · have h2 := secondBounds_ofNat (n := n / 64 % 32 + 192) (by omega)
    rw [if_neg (by omega), if_neg (by omega), if_neg (by omega), if_neg (by omega)] at h2
    simp only [List.cons_append, List.nil_append, decodeFrom, h2,
      lead?_ofNat (n := n / 64 % 32 + 192) (by omega)]
    rw [if_neg (by omega), if_neg (by omega), if_pos (by omega)]
    simp only [Nat.reduceSub]
    rw [continuation_succ_ofNat (by omega) (by dsimp only; omega) (by dsimp only; omega)]
    have hn : (n / 64 % 32 + 192 - 192) * 64 + (n % 64 + 128 - 128) = n := by omega
    simp only [continuation, hn, hc, List.length_cons, List.length_nil]
  split
  · have h2 := secondBounds_three (n := n) (by omega) (by omega) (by omega)
    simp only [List.cons_append, List.nil_append, decodeFrom,
      lead?_ofNat (n := n / 4096 % 16 + 224) (by omega)]
    rw [if_neg (by omega), if_neg (by omega), if_neg (by omega), if_pos (by omega)]
    simp only [Nat.reduceSub]
    rw [continuation_succ_ofNat (by omega) h2.1 h2.2,
      continuation_succ_ofNat (by omega) (by dsimp only; omega) (by dsimp only; omega)]
    have hn : ((n / 4096 % 16 + 224 - 224) * 64 + (n / 64 % 64 + 128 - 128)) * 64 +
        (n % 64 + 128 - 128) = n := by omega
    simp only [continuation, hn, hc, List.length_cons, List.length_nil]
  · have h2 := secondBounds_four (n := n) (by omega) (by omega)
    simp only [List.cons_append, List.nil_append, decodeFrom,
      lead?_ofNat (n := n / 262144 % 8 + 240) (by omega)]
    rw [if_neg (by omega), if_neg (by omega), if_neg (by omega), if_neg (by omega),
      if_pos (by omega)]
    simp only [Nat.reduceSub]
    rw [continuation_succ_ofNat (by omega) h2.1 h2.2,
      continuation_succ_ofNat (by omega) (by dsimp only; omega) (by dsimp only; omega),
      continuation_succ_ofNat (by omega) (by dsimp only; omega) (by dsimp only; omega)]
    have hn : (((n / 262144 % 8 + 240 - 240) * 64 + (n / 4096 % 64 + 128 - 128)) * 64 +
        (n / 64 % 64 + 128 - 128)) * 64 + (n % 64 + 128 - 128) = n := by omega
    simp only [continuation, hn, hc, List.length_cons, List.length_nil]

theorem decodeFrom_encode {cs : List Char} {fuel : Nat} (h : cs.length ≤ fuel) (position : Nat) :
    decodeFrom fuel position (encode cs) = .ok cs := by
  induction cs generalizing fuel position with
  | nil => cases fuel <;> rfl
  | cons c rest ih =>
    obtain ⟨fuel, rfl⟩ : ∃ m, fuel = m + 1 := ⟨fuel - 1, by simp at h; omega⟩
    have he : encode (c :: rest) = String.utf8EncodeChar c ++ encode rest := rfl
    rw [he, decodeFrom_utf8EncodeChar_append, ih (by simpa using h)]
    rfl

theorem length_le_length_encode (cs : List Char) : cs.length ≤ (encode cs).length := by
  induction cs with
  | nil => simp
  | cons c rest ih =>
    have he : encode (c :: rest) = String.utf8EncodeChar c ++ encode rest := rfl
    have hp : 0 < (String.utf8EncodeChar c).length :=
      List.length_pos_iff.2 String.utf8EncodeChar_ne_nil
    rw [he, List.length_append, List.length_cons]
    omega

/-- What is written is read back. -/
theorem decode_encode (cs : List Char) : decode (encode cs) = .ok cs :=
  decodeFrom_encode (length_le_length_encode cs) 0

end PlatformClasses.Text.Utf8
