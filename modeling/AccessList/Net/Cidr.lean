import AccessList.Net.Address

/-!
# Address blocks

A block is an address with a length: it holds the addresses that agree with it in that many leading bits. The
address keeps its host bits. The addresses of a block are as many as a power of two, so masks are arithmetic:
dividing by the count drops the host bits.
-/

namespace AccessList

structure Cidr where
  address : Address
  length : Nat
  length_le : length ≤ address.family.width
deriving DecidableEq

namespace Cidr

def family (p : Cidr) : Family := p.address.family

def hostBits (p : Cidr) : Nat := p.family.width - p.length

def host (a : Address) : Cidr := ⟨a, a.family.width, Nat.le_refl _⟩

def all (family : Family) : Cidr := ⟨.zero family, 0, Nat.zero_le _⟩

def count (p : Cidr) : Nat := Nat.pow 2 p.hostBits

theorem count_pos (p : Cidr) : 0 < p.count := Nat.two_pow_pos _

/-- The blocks of one length share out the addresses of a family. -/
theorem blocks_mul_count (p : Cidr) : Nat.pow 2 p.length * p.count = p.family.count := by
  have hw : p.length + p.hostBits = p.family.width := by
    have := p.length_le; simp only [hostBits, family] at *; omega
  exact (Nat.pow_add 2 p.length p.hostBits).symm.trans (congrArg (Nat.pow 2) hw)

instance : Membership Address Cidr where
  mem p x := x.family = p.family ∧ x.bits / p.count = p.address.bits / p.count

instance (x : Address) (p : Cidr) : Decidable (x ∈ p) :=
  inferInstanceAs (Decidable (x.family = p.family ∧ x.bits / p.count = p.address.bits / p.count))

def isFullLength (p : Cidr) : Bool := p.length == p.family.width

def size (p : Cidr) : Nat := min p.count (Family.inet6.count - 1)

def isHost (p : Cidr) : Bool := p.size == 1

/-! ## Masks -/

def networkBits (p : Cidr) : Nat := p.address.bits / p.count * p.count

theorem networkBits_le (p : Cidr) : p.networkBits ≤ p.address.bits := Nat.div_mul_le_self _ _

/-- There is room for all host bits above the network address. -/
theorem networkBits_add_le (p : Cidr) : p.networkBits + p.count ≤ p.family.count := by
  have hq : p.address.bits / p.count < Nat.pow 2 p.length := by
    rw [Nat.div_lt_iff_lt_mul p.count_pos, p.blocks_mul_count]; exact p.address.bits_lt
  have hm := Nat.mul_le_mul_right p.count hq
  rwa [p.blocks_mul_count, Nat.succ_mul] at hm

def network (p : Cidr) : Address :=
  ⟨p.family, p.networkBits, Nat.lt_of_le_of_lt p.networkBits_le p.address.bits_lt⟩

def hostmask (p : Cidr) : Address :=
  ⟨p.family, p.count - 1, by have := p.networkBits_add_le; have := p.count_pos; omega⟩

def netmask (p : Cidr) : Address :=
  ⟨p.family, p.family.count - p.count, by have := p.count_pos; have := p.family.count_pos; omega⟩

def normalized (p : Cidr) : Cidr := ⟨p.network, p.length, p.length_le⟩

/-! ## Order and inclusion -/

def contains (p q : Cidr) : Bool :=
  p.family == q.family && p.length ≤ q.length &&
    q.address.bits / p.count == p.address.bits / p.count

def order (p q : Cidr) : Ordering :=
  (compare p.family.rank q.family.rank).then
    ((compare p.address.bits q.address.bits).then (compare p.length q.length))

def sort (ps : List Cidr) : List Cidr := ps.mergeSort fun p q => (order p q).isLE

/-! ## Halves -/

def lower (p : Cidr) (h : p.length < p.family.width) : Cidr := ⟨p.network, p.length + 1, h⟩

def upper (p : Cidr) (h : p.length < p.family.width) : Cidr :=
  ⟨⟨p.family, p.networkBits + p.count / 2, by have := p.networkBits_add_le; have := p.count_pos; omega⟩,
    p.length + 1, h⟩

/-! ## Subtraction -/

/-- What is left of `p` without a block `q` inside it, by address: the half without `q` stays, the other half is
carved in turn. -/
def carve (p q : Cidr) : List Cidr :=
  if h : p.length < q.length ∧ p.length < p.family.width then
    if (p.lower h.2).contains q then carve (p.lower h.2) q ++ [p.upper h.2]
    else p.lower h.2 :: carve (p.upper h.2) q
  else []
termination_by q.length - p.length
decreasing_by all_goals (simp only [lower, upper]; omega)

/-- `p` without `q`; blocks are nested or disjoint. -/
def minus (p q : Cidr) : List Cidr :=
  if p.contains q then carve p q
  else if q.contains p then []
  else [p]

def minusAll (p : Cidr) (qs : List Cidr) : List Cidr := qs.foldl (fun pieces q => pieces.flatMap (·.minus q)) [p]

end Cidr

end AccessList
