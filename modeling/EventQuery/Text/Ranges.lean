/-! Sets of characters as ascending closed ranges of code points. -/

namespace EventQuery.Text

/-- Membership in ranges that ascend: the search ends at the first range that lies above. -/
def inRanges : List (Nat × Nat) → Nat → Bool
  | [], _ => false
  | (lo, hi) :: rest, n => lo ≤ n && (n ≤ hi || inRanges rest n)

end EventQuery.Text
