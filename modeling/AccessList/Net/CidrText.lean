import AccessList.Net.AddressText
import AccessList.Net.Cidr

/-!
# The text of blocks

An address, a slash and a length, or an address alone for the block that holds nothing else.
-/

namespace AccessList

def Text.splitLast (sep : Char) : List Char → Option (List Char × List Char)
  | [] => none
  | c :: cs =>
    match splitLast sep cs with
    | some (front, back) => some (c :: front, back)
    | none => if c = sep then some ([], cs) else none

namespace Cidr

def text (p : Cidr) : String := p.address.text ++ "/" ++ toString p.length

def ofLength (a : Address) (length : Nat) : Except AddressError Cidr :=
  if h : length ≤ a.family.width then .ok ⟨a, length, h⟩ else .error (.tooLong length a.family.width)

/-- An address and a length up to 255 around the last slash; without a slash, the block of one address. A bad
address is reported before a bad length. -/
def parse (s : String) : Except AddressError Cidr :=
  match Text.splitLast '/' s.toList with
  | none => (Address.parse s).map host
  | some (front, back) => do
    let a ← Address.parse (String.ofList front)
    match Text.unsigned? 255 back with
    | none => throw (.badBlock s)
    | some length => ofLength a length

end Cidr

end AccessList
