/-!
# Address families

IPv4 addresses have 32 bits and IPv6 addresses 128.
-/

namespace AccessList

inductive Family
  | inet
  | inet6
deriving DecidableEq, Repr

namespace Family

def width : Family → Nat
  | inet => 32
  | inet6 => 128

def count (family : Family) : Nat := Nat.pow 2 family.width

theorem count_pos (family : Family) : 0 < family.count := Nat.two_pow_pos _

/-- Either address fits in a word of 128 bits. -/
theorem width_le_word (family : Family) : family.width ≤ 128 := by cases family <;> decide

def name : Family → String
  | inet => "inet"
  | inet6 => "inet6"

def rank : Family → Nat
  | inet => 0
  | inet6 => 1

/-- Case does not matter. Lowering ASCII letters is enough: no other letter lowers to a letter of these names. -/
def ofText? (s : String) : Option Family :=
  match s.toLower with
  | "inet" | "ipv4" | "4" => some inet
  | "inet6" | "ipv6" | "6" => some inet6
  | _ => none

end Family

end AccessList
