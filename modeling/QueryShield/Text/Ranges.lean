/-!
# Code point ranges

A character class given by a table is a list of closed ranges of code points.  Membership
is a search through the list; the tables are short enough that no index is needed.
-/

namespace QueryShield
namespace Text

/-- Whether `n` lies in one of the closed ranges. -/
def inRanges (ranges : List (Nat × Nat)) (n : Nat) : Bool :=
  ranges.any fun r => r.1 ≤ n && n ≤ r.2

theorem inRanges_iff (ranges : List (Nat × Nat)) (n : Nat) :
    inRanges ranges n = true ↔ ∃ r ∈ ranges, r.1 ≤ n ∧ n ≤ r.2 := by
  simp [inRanges]

end Text
end QueryShield
