import AccessList.Proofs.Net.AddressClause
import Mathlib.Data.Set.Card
import Mathlib.Order.Bounds.Basic
import Mathlib.Order.Interval.Finset.Nat

/-!
# Masks and the addresses of a block

The addresses of a block agree with it in its leading bits. The network address is the least of them and has the bits of
the host mask to spare up to the greatest one; the two masks share out the bits of the family.
-/

namespace AccessList

theorem div_two_pow_eq_iff_testBit {x y k : Nat} :
    x / 2 ^ k = y / 2 ^ k ↔ ∀ i, k ≤ i → x.testBit i = y.testBit i := by
  constructor
  · intro h i hi
    have hbit := congrArg (·.testBit (i - k)) h
    simpa only [Nat.testBit_div_two_pow, Nat.sub_add_cancel hi] using hbit
  · intro h
    refine Nat.eq_of_testBit_eq fun i => ?_
    rw [Nat.testBit_div_two_pow, Nat.testBit_div_two_pow]
    exact h _ (Nat.le_add_left k i)

namespace Cidr

def numbers (p : Cidr) : Set Nat := {n | ∃ x ∈ p, x.bits = n}

theorem mem_iff_testBit (p : Cidr) (x : Address) :
    x ∈ p ↔ x.family = p.family ∧ ∀ i, p.hostBits ≤ i → x.bits.testBit i = p.address.bits.testBit i :=
  and_congr_right fun _ => div_two_pow_eq_iff_testBit

theorem numbers_eq (p : Cidr) : p.numbers = Set.Ico p.networkBits (p.networkBits + p.count) := by
  ext n
  rw [Set.mem_Ico]
  constructor
  · rintro ⟨x, hx, rfl⟩
    exact ((mem_iff_bounds p x).mp hx).2
  · intro hn
    have hlt := Nat.lt_of_lt_of_le hn.2 p.networkBits_add_le
    exact ⟨⟨p.family, n, hlt⟩, (mem_iff_bounds p _).mpr ⟨rfl, hn⟩, rfl⟩

theorem network_or_hostmask (p : Cidr) : p.network.bits ||| p.hostmask.bits = p.networkBits + (p.count - 1) := by
  have hlt : p.count - 1 < 2 ^ p.hostBits := Nat.sub_lt p.count_pos Nat.one_pos
  have hor := Nat.two_pow_add_eq_or_of_lt hlt (p.address.bits / p.count)
  rw [Nat.mul_comm] at hor
  exact hor.symm

theorem isLeast_network (p : Cidr) : IsLeast p.numbers p.network.bits := by
  rw [numbers_eq]
  exact isLeast_Ico (Nat.lt_add_of_pos_right p.count_pos)

theorem isGreatest_network_or_hostmask (p : Cidr) : IsGreatest p.numbers (p.network.bits ||| p.hostmask.bits) := by
  have hpos := p.count_pos
  rw [network_or_hostmask, numbers_eq]
  refine ⟨Set.mem_Ico.mpr ⟨Nat.le_add_right _ _, by omega⟩, fun n hn => ?_⟩
  have hlt := (Set.mem_Ico.mp hn).2
  omega

/-- An address of a block is told by its number. -/
theorem card_mem (p : Cidr) : Nat.card {x // x ∈ p} = p.count := by
  have hset : Nat.card p.numbers = p.count := by
    rw [numbers_eq, Nat.card_coe_set_eq, ← Finset.coe_Ico, Set.ncard_coe_finset, Nat.card_Ico,
      Nat.add_sub_cancel_left]
  rw [← hset]
  refine Nat.card_congr (Equiv.ofBijective (fun x => ⟨x.val.bits, x.val, x.property, rfl⟩) ⟨?_, ?_⟩)
  · intro ⟨x, hx⟩ ⟨y, hy⟩ h
    have hbits : x.bits = y.bits := congrArg Subtype.val h
    obtain ⟨family, bits, hbits'⟩ := x
    obtain ⟨family', bits', hbits''⟩ := y
    have hfamily : family = family' := hx.1.trans hy.1.symm
    subst hfamily
    cases hbits
    rfl
  · rintro ⟨_, x, hx, rfl⟩
    exact ⟨⟨x, hx⟩, rfl⟩

theorem testBit_netmask (p : Cidr) {i : Nat} (hi : i < p.family.width) :
    p.netmask.bits.testBit i = !p.hostmask.bits.testBit i := by
  have hle : p.hostBits ≤ p.family.width := Nat.sub_le _ _
  have hmask : p.netmask.bits = 2 ^ p.family.width - ((2 ^ p.hostBits - 1) + 1) := by
    rw [Nat.sub_add_cancel (Nat.one_le_two_pow)]
    rfl
  have hlt : 2 ^ p.hostBits - 1 < 2 ^ p.family.width :=
    Nat.lt_of_lt_of_le (Nat.sub_lt (Nat.two_pow_pos _) Nat.one_pos) (Nat.pow_le_pow_right (by decide) hle)
  rw [hmask, Nat.testBit_two_pow_sub_succ hlt, decide_eq_true hi, Bool.true_and]
  rfl

theorem hostBits_le_word (p : Cidr) : p.hostBits ≤ 128 := Nat.le_trans (Nat.sub_le _ _) p.family.width_le_word

theorem size_of_lt {p : Cidr} (h : p.hostBits < 128) : p.size = 2 ^ p.hostBits :=
  Nat.min_eq_left (Nat.le_sub_one_of_lt (Nat.pow_lt_pow_right (by decide) h))

theorem size_of_eq {p : Cidr} (h : p.hostBits = 128) : p.size = 2 ^ 128 - 1 := by
  rw [size, count_eq, h]
  rfl

theorem hostBits_eq_word_iff (p : Cidr) : p.hostBits = 128 ↔ p.family = .inet6 ∧ p.length = 0 := by
  have hle : p.length ≤ p.family.width := p.length_le
  unfold hostBits
  cases hf : p.family <;> simp only [hf, Family.width] at hle ⊢
  · exact iff_of_false (by omega) nofun
  · simp only [true_and]
    omega

/-- The size counts the addresses of a block, but for all of IPv6. -/
theorem size_eq (p : Cidr) :
    p.size = if p.family = .inet6 ∧ p.length = 0 then 2 ^ 128 - 1 else Nat.card {x // x ∈ p} := by
  rw [card_mem]
  split
  · rename_i h
    exact size_of_eq (p.hostBits_eq_word_iff.mpr h)
  · rename_i h
    exact size_of_lt (Nat.lt_of_le_of_ne p.hostBits_le_word (mt p.hostBits_eq_word_iff.mp h))

end Cidr

end AccessList
