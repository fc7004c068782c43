/-!
# Classes of characters given by ranges
-/

namespace FoodScan.Text

/-- Membership in a class given by the first and last code points of its ranges. -/
def inRanges (ranges : List (Nat × Nat)) (c : Char) : Bool :=
  ranges.any fun r => decide (r.1 ≤ c.toNat) && decide (c.toNat ≤ r.2)

end FoodScan.Text
