/-! # Sets of code points

    A class of characters is given by a table of ranges of code points, both ends included.
-/

namespace Parley.Text

/-- Whether `code` lies in one of the ranges of `table`. -/
def inRanges (table : Array (Nat × Nat)) (code : Nat) : Bool :=
  table.any fun (low, high) => low ≤ code && code ≤ high

end Parley.Text
