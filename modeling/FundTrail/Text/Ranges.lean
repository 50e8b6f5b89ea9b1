/-
  FundTrail.Text.Ranges
  ─────────────────────
  **CLASSES OF CHARACTERS AS RANGES OF CODE POINTS.**

  Unicode lists its classes of characters by ranges of code points.  A class is
  kept as such a list, and a code point belongs to it if some range holds it.

  Main facts: `inRanges_append` and `inRanges_eq_true_iff`.
-/

namespace FundTrail.Text

/-- Whether a code point lies in one of the ranges. -/
def inRanges (ranges : List (Nat × Nat)) (code : Nat) : Bool :=
  ranges.any fun (low, high) => low ≤ code && code ≤ high

theorem inRanges_append (a b : List (Nat × Nat)) (code : Nat) :
    inRanges (a ++ b) code = (inRanges a code || inRanges b code) :=
  List.any_append

theorem inRanges_eq_true_iff {ranges : List (Nat × Nat)} {code : Nat} :
    inRanges ranges code = true ↔ ∃ r ∈ ranges, r.1 ≤ code ∧ code ≤ r.2 := by
  simp [inRanges]

end FundTrail.Text
