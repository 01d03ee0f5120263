/-!
# Sets of characters

Properties of characters are given as lists of code point ranges, both ends included.
-/

namespace MetricRelay.Text

def inRanges (ranges : List (Nat × Nat)) (c : Char) : Bool :=
  ranges.any fun r => decide (r.1 ≤ c.toNat ∧ c.toNat ≤ r.2)

end MetricRelay.Text
