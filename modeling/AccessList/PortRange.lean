/-!
# Port ranges

A range holds the ports between its ends. Lists of ranges can be brought to the one form in which ranges ascend
and neither overlap nor touch.
-/

namespace AccessList

abbrev Port := Fin 65536

/-- The ports from `low` to `high`, both included; none when `high < low`. -/
structure PortRange where
  low : Port
  high : Port
deriving DecidableEq

namespace PortRange

instance : Membership Port PortRange where
  mem r p := r.low ≤ p ∧ p ≤ r.high

instance (p : Port) (r : PortRange) : Decidable (p ∈ r) :=
  inferInstanceAs (Decidable (r.low ≤ p ∧ p ≤ r.high))

def single (p : Port) : PortRange := ⟨p, p⟩

def ephemeral : PortRange := ⟨1024, 65535⟩

def isSingle (r : PortRange) : Bool := r.low == r.high

def text (r : PortRange) : String := toString r.low.val ++ "-" ++ toString r.high.val

def le (r s : PortRange) : Bool := r.low < s.low || (r.low == s.low && r.high ≤ s.high)

/-- Merges ascending ranges that overlap or touch, `r` being the range before them. -/
def merge (r : PortRange) : List PortRange → List PortRange
  | [] => [r]
  | s :: ss =>
    if s.low.val ≤ r.high.val + 1 then merge ⟨r.low, if r.high ≤ s.high then s.high else r.high⟩ ss
    else r :: merge s ss

def collapse (rs : List PortRange) : List PortRange :=
  match rs.mergeSort le with
  | [] => []
  | r :: rs => merge r rs

def splitPairs (rs : List PortRange) : List PortRange :=
  rs.flatMap fun r => if r.low.val + 1 = r.high.val then [single r.low, single r.high] else [r]

end PortRange

end AccessList
