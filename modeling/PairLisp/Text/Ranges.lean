/-!
# Sets of code points

A property of characters is given as a table: the code points that have it, as inclusive ranges
in increasing order. Because a table is sorted, a look-up stops at the first range that begins
above the code point.
-/

namespace PairLisp.Text

/-- Whether a code point lies in one of the given ranges, which are sorted. -/
def inSortedRanges (n : Nat) : List (Nat × Nat) → Bool
  | [] => false
  | (first, last) :: rest => first ≤ n && (n ≤ last || inSortedRanges n rest)

end PairLisp.Text
