import AccessList.Text.Numeral

/-!
# Numbers beyond the doubles

A decimal number rounds to a double unless it is too large. JSON text is read with less precision: digits that
do not fit 64 bits only scale the number, and the scaling rounds a second time.
-/

namespace AccessList

structure Decimal where
  whole : List Char
  fraction : List Char
  exponent : Int

namespace Double

def bound : Nat := Nat.pow 2 1024 - Nat.pow 2 970

/-- Rounds to 53 bits, a tie to the even neighbour. -/
def round (n : Nat) : Nat :=
  let unit := Nat.pow 2 (n.log2 - 52)
  let q := n / unit
  let r := n % unit
  (if unit < 2 * r ∨ (unit = 2 * r ∧ q % 2 = 1) then q + 1 else q) * unit

def exceeds (m : Nat) (e : Int) : Bool :=
  if m = 0 then false
  else if 0 ≤ e then 308 < e || bound ≤ m * Nat.pow 10 e.toNat
  else
    let k := (-e).toNat
    if (Nat.toDigits 10 m).length < k then false else bound * Nat.pow 10 k ≤ m

/-- Whether `significand` scaled by ten to `e` overflows; both factors are rounded before, the product after. -/
def overflows (significand : Nat) (e : Int) : Bool :=
  significand ≠ 0 && 0 ≤ e && (308 < e || bound ≤ round significand * round (Nat.pow 10 e.toNat))

end Double

namespace Decimal

def digits (cs : List Char) : Nat := (Text.digits? 10 cs).getD 0

def exceeds (d : Decimal) : Bool :=
  Double.exceeds (digits (d.whole ++ d.fraction)) (d.exponent - d.fraction.length)

/-- Takes digits after a significand as long as it fits 64 bits: the significand, how many digits it took, and the
digits that are left. -/
def accumulate (significand : Nat) (taken : Nat) : List Char → Nat × Nat × List Char
  | [] => (significand, taken, [])
  | c :: cs =>
    let next := significand * 10 + (c.toNat - '0'.toNat)
    if next < 0x10000000000000000 then accumulate next (taken + 1) cs else (significand, taken, c :: cs)

/-- Too large for a double, as JSON text is read: the digits of the whole that do not fit count as zeros, and the
fraction ends at the first digit that does not fit. -/
def overflows (d : Decimal) : Bool :=
  let (significand, _, left) := accumulate 0 0 d.whole
  let (significand, taken, _) := accumulate significand 0 d.fraction
  if 0x7FFFFFFF < d.exponent then significand ≠ 0
  else Double.overflows significand (left.length - taken + d.exponent)

end Decimal

end AccessList
