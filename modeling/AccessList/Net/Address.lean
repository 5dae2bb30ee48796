import AccessList.Net.Family

/-!
# IP addresses

An address is a number below the count of its family; bytes and groups of hexadecimal digits are its digits in
another base.
-/

namespace AccessList

structure Address where
  family : Family
  bits : Nat
  bits_lt : bits < family.count
deriving DecidableEq

namespace Address

def ofBits? (family : Family) (bits : Nat) : Option Address :=
  if h : bits < family.count then some ⟨family, bits, h⟩ else none

def ofGroups (base : Nat) (ds : List Nat) : Nat := ds.foldl (fun n d => n * base + d) 0

def groups (base count n : Nat) : List Nat :=
  match count with
  | 0 => []
  | k + 1 => groups base k (n / base) ++ [n % base]

def ofBytes? (bytes : List Nat) : Option Address :=
  if bytes.any (255 < ·) then none
  else if bytes.length = 4 then ofBits? .inet (ofGroups 256 bytes)
  else if bytes.length = 16 then ofBits? .inet6 (ofGroups 256 bytes)
  else none

def zero (family : Family) : Address := ⟨family, 0, family.count_pos⟩

end Address

end AccessList
