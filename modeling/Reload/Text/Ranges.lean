/-!
Classes of characters given by ranges of code points. A table lists its ranges in ascending
order, so a search may stop at the first range that lies above the code point.
-/

namespace Reload.Text

/-- Whether the code point lies in one of the ranges, which are in ascending order. -/
def inRanges (code : Nat) : List (Nat × Nat) → Bool
  | [] => false
  | (first, last) :: rest => first ≤ code && (code ≤ last || inRanges code rest)

end Reload.Text
