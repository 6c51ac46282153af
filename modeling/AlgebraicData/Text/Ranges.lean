/-!
# Sets of characters

A Unicode property is a set of code points that mostly come in long stretches, so it is kept as the
increasing list of its stretches.
-/

namespace AlgebraicData.Text

/-- Whether `n` lies in one of the inclusive ranges.  The ranges increase, so the search ends at the
first one that begins beyond `n`. -/
def inRanges : List (Nat × Nat) → Nat → Bool
  | [], _ => false
  | (lo, hi) :: rest, n => lo ≤ n && (n ≤ hi || inRanges rest n)

end AlgebraicData.Text
