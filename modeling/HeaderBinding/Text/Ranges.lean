/-
Membership of a code point in a table of closed intervals, or of strided
runs.

* `inRanges_eq_true_iff`: a code point is in the table exactly when one of
  its intervals holds it.
-/

namespace HeaderBinding

/-- Some interval of the table holds the code point. -/
def inRanges (ranges : List (Nat × Nat)) (code : Nat) : Bool :=
  ranges.any fun r => r.1 ≤ code && code ≤ r.2

theorem inRanges_eq_true_iff {ranges : List (Nat × Nat)} {code : Nat} :
    inRanges ranges code = true
      ↔ ∃ r ∈ ranges, r.1 ≤ code ∧ code ≤ r.2 := by
  simp [inRanges]

/-- The code point lies between the ends of the run, a whole number of
strides above its first member. -/
def inRun (first last stride code : Nat) : Bool :=
  first ≤ code && code ≤ last && (code - first) % stride == 0

end HeaderBinding
