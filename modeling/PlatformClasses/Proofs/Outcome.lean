import Mathlib.Control.Monad.Basic
import Mathlib.Data.List.Forall2
import PlatformClasses.ClassFile.Generation

/-!
# Steps that may fail

How a sequence of steps ends when one of its steps fails.  That all steps over a list succeed is said by
one equation, `xs.map f = ys.map .ok`, which gives the results in order.  Where a step is only known by
what it relates, the results correspond to the steps by `List.Forall₂`.
-/

namespace PlatformClasses

variable {ε α β γ : Type}

/-- Two steps succeed if the first does and the second does with what it gives. -/
theorem bind_eq_ok {x : Except ε α} {f : α → Except ε β} {b : β} :
    (x >>= f) = .ok b ↔ ∃ a, x = .ok a ∧ f a = .ok b := by
  cases x <;> simp [bind, Except.bind]

/-- Two steps fail if the first does, or the second with what the first gives. -/
theorem bind_eq_error {x : Except ε α} {f : α → Except ε β} {e : ε} :
    (x >>= f) = .error e ↔ x = .error e ∨ ∃ a, x = .ok a ∧ f a = .error e := by
  cases x <;> simp [bind, Except.bind]

/-- A result that is changed is that of a step that succeeds. -/
theorem map_eq_ok {x : Except ε α} {f : α → β} {b : β} :
    x.map f = .ok b ↔ ∃ a, x = .ok a ∧ f a = b := by
  cases x <;> simp [Except.map]

theorem map_eq_error {x : Except ε α} {f : α → β} {e : ε} :
    x.map f = .error e ↔ x = .error e := by
  cases x <;> simp [Except.map]

@[simp] theorem pure_eq_ok {a b : α} : (pure a : Except ε α) = .ok b ↔ a = b := by
  simp [pure, Except.pure]

/-- All steps over a list succeed, with the given results. -/
theorem allOrFault_eq_ok_iff (f : α → Except Fault β) (xs : List α) (ys : List β) :
    allOrFault f xs = .ok ys ↔ xs.map f = ys.map .ok := by
  induction xs generalizing ys with
  | nil => cases ys <;> simp [allOrFault]
  | cons x xs ih =>
      cases hx : f x with
      | error e => cases ys <;> simp [allOrFault, hx]
      | ok y =>
          cases ys with
          | nil => simp [allOrFault, hx, map_eq_ok]
          | cons z zs =>
              simp only [allOrFault, hx, map_eq_ok, ih, List.map_cons, List.cons.injEq,
                Except.ok.injEq]
              constructor
              · rintro ⟨ys, hys, rfl, rfl⟩
                exact ⟨rfl, hys⟩
              · rintro ⟨rfl, hzs⟩
                exact ⟨zs, hzs, rfl, rfl⟩

/-! ## Lists that correspond -/

/-- Each result is that of the step over its element. -/
theorem forall₂_of_allOrFault {f : α → Except Fault β} {xs : List α} {ys : List β}
    (h : allOrFault f xs = .ok ys) : List.Forall₂ (fun x y => f x = .ok y) xs ys := by
  rw [allOrFault_eq_ok_iff, ← List.forall₂_eq_eq_eq, List.forall₂_map_left_iff,
    List.forall₂_map_right_iff] at h
  exact h

/-- Each step has a result that corresponds to it. -/
theorem exists_of_forall₂ {R : α → β → Prop} {xs : List α} {ys : List β}
    (h : List.Forall₂ R xs ys) {x : α} (hx : x ∈ xs) : ∃ y ∈ ys, R x y := by
  induction h with
  | nil => simp at hx
  | cons hxy _ ih =>
      rcases List.mem_cons.1 hx with rfl | hmem
      · exact ⟨_, List.mem_cons_self, hxy⟩
      · obtain ⟨y, hy, hrelated⟩ := ih hmem
        exact ⟨y, List.mem_cons_of_mem _ hy, hrelated⟩

/-- Some step has a property if and only if some result has the property that corresponds to it. -/
theorem exists_mem_iff_of_forall₂ {R : α → β → Prop} {xs : List α} {ys : List β} {p : α → Prop}
    {q : β → Prop} (h : List.Forall₂ R xs ys) (hpq : ∀ x y, R x y → (p x ↔ q y)) :
    (∃ x ∈ xs, p x) ↔ ∃ y ∈ ys, q y := by
  induction h with
  | nil => simp
  | cons hxy _ ih => rw [List.exists_mem_cons_iff, List.exists_mem_cons_iff, hpq _ _ hxy, ih]

/-- Correspondences one after the other are a correspondence. -/
theorem forall₂_comp {R : α → β → Prop} {S : β → γ → Prop} {xs : List α} {ys : List β} {zs : List γ}
    (h : List.Forall₂ R xs ys) (h' : List.Forall₂ S ys zs) :
    List.Forall₂ (fun x z => ∃ y, R x y ∧ S y z) xs zs := by
  induction h generalizing zs with
  | nil =>
      obtain rfl := List.forall₂_nil_left_iff.1 h'
      exact .nil
  | cons hxy _ ih =>
      obtain ⟨z, rest, hyz, hrest, rfl⟩ := List.forall₂_cons_left_iff.1 h'
      exact .cons ⟨_, hxy, hyz⟩ (ih hrest)

end PlatformClasses
