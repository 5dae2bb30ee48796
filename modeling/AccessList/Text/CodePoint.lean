/-!
# Ranges of code points

Properties of characters are given as the ranges of code points that have them.
-/

namespace AccessList.Text

def isAmong (ranges : List (Nat × Nat)) (c : Char) : Bool :=
  ranges.any fun (low, high) => low ≤ c.toNat && c.toNat ≤ high

end AccessList.Text
