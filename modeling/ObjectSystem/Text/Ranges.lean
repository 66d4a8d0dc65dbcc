/-!
# Sets of characters

A property of characters is given by the code points that have it, as a list of ranges.
-/

namespace ObjectSystem.Text

abbrev Range := Nat × Nat

def inRanges (ranges : List Range) (code : Nat) : Bool :=
  ranges.any fun (first, last) => decide (first ≤ code) && decide (code ≤ last)

end ObjectSystem.Text
