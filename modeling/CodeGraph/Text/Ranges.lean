/-!
# Ranges of code points

A character class is kept as the list of its ranges, both ends included.
-/

namespace CodeGraph.Text

/-- The code point lies in one of the ranges. -/
def inRanges (ranges : List (Nat × Nat)) (code : Nat) : Bool :=
  ranges.any fun (low, high) => low ≤ code && code ≤ high

@[simp]
theorem inRanges_iff {ranges : List (Nat × Nat)} {code : Nat} :
    inRanges ranges code = true ↔ ∃ r ∈ ranges, r.1 ≤ code ∧ code ≤ r.2 := by
  simp [inRanges]

end CodeGraph.Text
