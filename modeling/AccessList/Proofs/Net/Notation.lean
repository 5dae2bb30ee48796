import AccessList.Rule.Extended
import AccessList.Rule.Standard
import AccessList.Proofs.Net.Membership

/-!
# What the notations of blocks mean

A line does not write a block but a pattern: an address by itself, an address with a mask of bits that do not
matter, or an address with a length. Each pattern of a block takes just the addresses of the block.
-/

namespace AccessList

inductive AddressPattern
  | any
  | host (address : Address)
  /-- The bits of the mask do not matter. -/
  | wildcard (network mask : Address)
  /-- So many leading bits matter. -/
  | leading (network : Address) (length : Nat)

namespace AddressPattern

/-- What the device takes a pattern for. -/
def Matches : AddressPattern → Address → Prop
  | any, _ => True
  | host a, x => x = a
  | wildcard n m, x => x.family = n.family ∧ x.bits ||| m.bits = n.bits ||| m.bits
  | leading n length, x =>
    x.family = n.family ∧ x.bits >>> (n.family.width - length) = n.bits >>> (n.family.width - length)

def OfFamily (family : Family) : AddressPattern → Prop
  | any => True
  | host a => a.family = family
  | wildcard n m => n.family = family ∧ m.family = family
  | leading n _ => n.family = family

/-- Numbered standard lists write single addresses bare. -/
def text (bare : Bool) : AddressPattern → String
  | any => "any"
  | host a => (if bare then "" else "host ") ++ a.text
  | wildcard n m => n.text ++ " " ++ m.text
  | leading n length => n.text ++ "/" ++ toString length

end AddressPattern

def Cidr.pattern (p : Cidr) : AddressPattern :=
  if p.isHost then .host p.address
  else
    match p.family with
    | .inet => .wildcard p.network p.hostmask
    | .inet6 => .leading p.network p.length

def Endpoint.pattern : Endpoint → AddressPattern
  | any => .any
  | block p => p.pattern

theorem Endpoint.text_eq (e : Endpoint) : e.text = e.pattern.text false := by
  cases e with
  | any => rfl
  | block p =>
    simp only [text, pattern, Cidr.pattern]
    split
    · rfl
    · cases p.family <;> rfl

def StandardRule.pattern (r : StandardRule) : AddressPattern :=
  match r.block with
  | none => .any
  | some p => if p.isFullLength then .host p.address else .wildcard p.network p.hostmask

theorem StandardRule.blockText_eq (numeric : Bool) (r : StandardRule) :
    blockText numeric r.block = r.pattern.text numeric := by
  unfold blockText pattern
  cases r.block with
  | none => rfl
  | some p =>
    simp only
    split <;> rfl

/-! ## Masks -/

/-- Numbers that agree above their lowest `k` bits. -/
theorem or_mask_eq_iff (x n k : Nat) : x ||| (2 ^ k - 1) = n ||| (2 ^ k - 1) ↔ x / 2 ^ k = n / 2 ^ k := by
  constructor
  · intro h
    refine Nat.eq_of_testBit_eq fun i => ?_
    have hi := congrArg (·.testBit (i + k)) h
    have hge : ¬i + k < k := by omega
    simpa [Nat.testBit_or, Nat.testBit_two_pow_sub_one, Nat.testBit_div_two_pow, hge] using hi
  · intro h
    refine Nat.eq_of_testBit_eq fun i => ?_
    rw [Nat.testBit_or, Nat.testBit_or, Nat.testBit_two_pow_sub_one]
    by_cases hi : i < k
    · simp [hi]
    · have hb := congrArg (·.testBit (i - k)) h
      simp only [Nat.testBit_div_two_pow, Nat.sub_add_cancel (Nat.le_of_not_lt hi)] at hb
      rw [hb]

namespace Cidr

theorem networkBits_div_count (p : Cidr) : p.networkBits / p.count = p.address.bits / p.count :=
  Nat.mul_div_cancel _ p.count_pos

theorem mem_wildcard_iff (p : Cidr) (x : Address) :
    (AddressPattern.wildcard p.network p.hostmask).Matches x ↔ x ∈ p := by
  refine and_congr_right fun _ => ?_
  rw [← networkBits_div_count]
  exact or_mask_eq_iff x.bits p.networkBits p.hostBits

theorem mem_leading_iff (p : Cidr) (x : Address) :
    (AddressPattern.leading p.network p.length).Matches x ↔ x ∈ p := by
  refine and_congr_right fun _ => ?_
  rw [← networkBits_div_count, Nat.shiftRight_eq_div_pow, Nat.shiftRight_eq_div_pow]
  exact Iff.rfl

theorem isFullLength_iff (p : Cidr) : p.isFullLength = true ↔ p.hostBits = 0 := by
  have hl : p.length ≤ p.family.width := p.length_le
  unfold isFullLength hostBits
  rw [beq_iff_eq]
  omega

theorem isHost_iff (p : Cidr) : p.isHost = true ↔ p.hostBits = 0 := by
  -- The size of a block is cut off, but far above one.
  have hmax : 1 < Family.inet6.count - 1 := by decide
  unfold isHost size
  rw [beq_iff_eq, count_eq]
  constructor
  · intro h
    refine Classical.byContradiction fun hb => ?_
    have : 2 ^ 1 ≤ 2 ^ p.hostBits := Nat.pow_le_pow_right (by decide) (Nat.pos_of_ne_zero hb)
    omega
  · intro h
    rw [h]
    omega

theorem mem_iff_eq_address {p : Cidr} (h : p.hostBits = 0) (x : Address) : x ∈ p ↔ x = p.address := by
  have hc : p.count = 1 := by rw [count_eq, h, Nat.pow_zero]
  rw [mem_iff, hc, Nat.div_one, Nat.div_one]
  constructor
  · obtain ⟨family, bits, hlt⟩ := x
    obtain ⟨⟨family', bits', hlt'⟩, length, hl⟩ := p
    rintro ⟨hf, hb⟩
    cases hf; cases hb
    rfl
  · rintro rfl
    exact ⟨rfl, rfl⟩

theorem pattern_matches_iff (p : Cidr) (x : Address) : p.pattern.Matches x ↔ x ∈ p := by
  unfold pattern
  split
  · rename_i h
    exact (mem_iff_eq_address (p.isHost_iff.mp h) x).symm
  · split
    · exact p.mem_wildcard_iff x
    · exact p.mem_leading_iff x

theorem pattern_ofFamily (p : Cidr) : p.pattern.OfFamily p.family := by
  unfold pattern
  split
  · rfl
  · split
    · exact ⟨rfl, rfl⟩
    · rfl

end Cidr

theorem StandardRule.matches_block_iff {r : StandardRule} {p : Cidr} (h : r.block = some p) (x : Address) :
    r.pattern.Matches x ↔ x ∈ p := by
  unfold pattern
  rw [h]
  simp only
  split
  · rename_i hfull
    exact (Cidr.mem_iff_eq_address (p.isFullLength_iff.mp hfull) x).symm
  · exact p.mem_wildcard_iff x

end AccessList
