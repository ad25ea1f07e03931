/-!
# Ranges of Code Points

A character class is given by the runs of code points that belong to it, in increasing order.
-/

namespace DocLint.Text

/-- Whether a code point lies in one of the runs, both ends of a run included. -/
def inRanges (ranges : List (Nat × Nat)) (code : Nat) : Bool :=
  ranges.any fun range => range.1 ≤ code && code ≤ range.2

end DocLint.Text
