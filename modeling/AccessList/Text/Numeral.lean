/-!
# Numbers in text

Digits are ASCII; letters of either case stand for the digits above nine.
-/

namespace AccessList.Text

def digit? (base : Nat) (c : Char) : Option Nat :=
  let v :=
    if '0' ≤ c ∧ c ≤ '9' then c.toNat - '0'.toNat
    else if 'a' ≤ c ∧ c ≤ 'f' then c.toNat - 'a'.toNat + 10
    else if 'A' ≤ c ∧ c ≤ 'F' then c.toNat - 'A'.toNat + 10
    else base
  if v < base then some v else none

def digitsFrom (base acc : Nat) : List Char → Option Nat
  | [] => some acc
  | c :: cs => (digit? base c).bind fun d => digitsFrom base (acc * base + d) cs

def digits? (base : Nat) : List Char → Option Nat
  | [] => none
  | cs => digitsFrom base 0 cs

/-- Decimal digits, after a plus sign or not, for a number up to `max`. -/
def unsigned? (max : Nat) (s : List Char) : Option Nat :=
  let ds := match s with
    | '+' :: ds => ds
    | ds => ds
  (digits? 10 ds).filter (· ≤ max)

def isNumeric (s : String) : Bool := !s.isEmpty && s.toList.all Char.isDigit

end AccessList.Text
