/-!
# Tables of code points

Character classes beyond ASCII are given by tables: inclusive ranges of code points, or runs that take
every `step`-th code point from a first to a last one.
-/

namespace PlatformClasses.Text

/-- Whether a code point lies in one of the inclusive ranges. -/
def inRanges (n : Nat) (ranges : List (Nat × Nat)) : Bool :=
  ranges.any fun (first, last) => first ≤ n && n ≤ last

/-- Whether a code point is a member of the run `first, first + step, …, last`. -/
def inRun (n first last step : Nat) : Bool :=
  first ≤ n && n ≤ last && (n - first) % step == 0

@[simp] theorem inRanges_nil (n : Nat) : inRanges n [] = false := rfl

theorem inRanges_eq_true_iff {n : Nat} {ranges : List (Nat × Nat)} :
    inRanges n ranges = true ↔ ∃ r ∈ ranges, r.1 ≤ n ∧ n ≤ r.2 := by
  simp [inRanges]

end PlatformClasses.Text
