import Mathlib.Data.List.Lex
import Mathlib.Order.Compare
import Mathlib.Order.Lattice
import PlatformClasses.Proofs.Path.Names

/-!
# The order of paths

Paths are compared by what they are made of, and a comparison of texts is one of their character codes.
So the order is that of a key, a list of lists of numbers, and paths whose components hold no slash differ
if and only if their keys do.
-/

namespace PlatformClasses.Path

/-- No component of the path holds a slash, as is true of every path that is read from a text. -/
def IsSound (p : Path) : Prop := ∀ c ∈ p.components, '/' ∉ c.toList

instance (p : Path) : Decidable p.IsSound :=
  inferInstanceAs (Decidable (∀ c ∈ p.components, '/' ∉ c.toList))

/-- A path that is read from a text is sound. -/
theorem isSound_ofString (s : String) : (ofString s).IsSound :=
  fun _ hc => (isComponent_of_mem_ofString hc).noSlash

theorem IsSound.append {p q : Path} (hp : p.IsSound) (hq : q.IsSound) : (p.append q).IsSound := by
  intro c hc
  unfold Path.append at hc
  split at hc
  · rcases List.mem_append.1 hc with hc | hc
    · exact hp c hc
    · exact hq c hc
  · exact hq c hc

/-- Going on from a sound path gives a sound one. -/
theorem IsSound.join {p : Path} (hp : p.IsSound) (s : String) : (p.join s).IsSound :=
  hp.append (isSound_ofString s)

/-! ## Keys -/

/-- The components of a path, after its anchor if it has one. -/
def anchored (p : Path) : List String :=
  if p.anchor = 0 then p.components
  else String.ofList (List.replicate p.anchor '/') :: p.components

/-- The codes of the characters of a text. -/
def codes (s : String) : List Nat := s.toList.map Char.toNat

/-- What the order of a path depends on. -/
def key (p : Path) : List (List Nat) := p.anchored.map codes

/-- Texts are told apart by their code points. -/
theorem codes_injective : Function.Injective codes := by
  intro s s' h
  have hchars : Function.Injective Char.toNat := fun c d hcd => Char.toNat_inj.1 hcd
  exact String.toList_inj.1 (List.map_injective_iff.2 hchars h)

theorem compares_cons {α : Type} [LinearOrder α] {o o' : Ordering} {x y : α} {xs ys : List α}
    (h : o.Compares x y) (h' : o'.Compares xs ys) :
    (o.then o').Compares (x :: xs) (y :: ys) := by
  cases o with
  | lt => exact List.cons_lt_cons_iff.2 (.inl h)
  | gt => exact List.cons_lt_cons_iff.2 (.inl h)
  | eq =>
      obtain rfl : x = y := h
      cases o' with
      | lt => exact List.cons_lt_cons_iff.2 (.inr ⟨rfl, h'⟩)
      | gt => exact List.cons_lt_cons_iff.2 (.inr ⟨rfl, h'⟩)
      | eq => exact congrArg (x :: ·) h'

/-- Texts are compared as the lists of their code points. -/
theorem textCompare_compares (as bs : List Char) :
    (textCompare as bs).Compares (as.map Char.toNat) (bs.map Char.toNat) := by
  induction as generalizing bs with
  | nil =>
      cases bs with
      | nil => rfl
      | cons b bs => exact List.nil_lt_cons _ _
  | cons a as ih =>
      cases bs with
      | nil => exact List.nil_lt_cons _ _
      | cons b bs =>
          unfold textCompare
          split
          · next h => exact List.cons_lt_cons_iff.2 (.inl h)
          · split
            · next h => exact List.cons_lt_cons_iff.2 (.inl h)
            · have heq : a.toNat = b.toNat := by omega
              exact compares_cons (o := .eq) heq (ih bs)

/-- Components are compared one after the other. -/
theorem componentsCompare_compares (as bs : List String) :
    (componentsCompare as bs).Compares (as.map codes) (bs.map codes) := by
  induction as generalizing bs with
  | nil =>
      cases bs with
      | nil => rfl
      | cons b bs => exact List.nil_lt_cons _ _
  | cons a as ih =>
      cases bs with
      | nil => exact List.nil_lt_cons _ _
      | cons b bs =>
          have hcons := compares_cons (textCompare_compares a.toList b.toList) (ih bs)
          unfold componentsCompare
          cases h : textCompare a.toList b.toList <;> rw [h] at hcons <;> exact hcons

/-- Paths are compared by their keys, which are ordered linearly. -/
theorem compare_compares (p q : Path) : (p.compare q).Compares p.key q.key :=
  componentsCompare_compares p.anchored q.anchored

theorem replicate_slash_notSound {n : Nat} (h : n ≠ 0) :
    '/' ∈ (String.ofList (List.replicate n '/')).toList := by
  simp [h]

/-- Sound paths are told apart by their keys. -/
theorem eq_of_key_eq {p q : Path} (hp : p.IsSound) (hq : q.IsSound) (h : p.key = q.key) : p = q := by
  have hanchored : p.anchored = q.anchored := List.map_injective_iff.2 codes_injective h
  obtain ⟨a, cs⟩ := p
  obtain ⟨b, ds⟩ := q
  unfold anchored at hanchored
  by_cases ha : a = 0
  · by_cases hb : b = 0
    · simp only [ha, hb, if_true] at hanchored
      rw [ha, hb, hanchored]
    · simp only [ha, hb, if_true, if_false] at hanchored
      exact absurd (replicate_slash_notSound hb) (hp _ (by simp [hanchored]))
  · by_cases hb : b = 0
    · simp only [ha, hb, if_true, if_false] at hanchored
      exact absurd (replicate_slash_notSound ha) (hq _ (by simp [← hanchored]))
    · simp only [ha, hb, if_false, List.cons.injEq] at hanchored
      obtain ⟨hslashes, rfl⟩ := hanchored
      have hlength := congrArg (fun s => s.toList.length) hslashes
      have heq : a = b := by simpa using hlength
      rw [heq]

end PlatformClasses.Path
