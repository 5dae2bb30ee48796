import AccessList.Net.Cidr
import Mathlib.Algebra.Group.Nat.Defs

/-!
# The addresses of a block

A block is an interval of its family, as long as a power of two and aligned to its length. Of two blocks of one
family, the longer prefix is inside the shorter one or apart from it.
-/

namespace AccessList.Cidr

theorem count_eq (p : Cidr) : p.count = 2 ^ p.hostBits := rfl

theorem mem_iff (p : Cidr) (x : Address) :
    x ∈ p ↔ x.family = p.family ∧ x.bits / p.count = p.address.bits / p.count := Iff.rfl

theorem mem_iff_bounds (p : Cidr) (x : Address) :
    x ∈ p ↔ x.family = p.family ∧ p.networkBits ≤ x.bits ∧ x.bits < p.networkBits + p.count := by
  have hc := p.count_pos
  rw [mem_iff, Nat.div_eq_iff hc]
  refine and_congr_right fun _ => ?_
  unfold networkBits
  omega

theorem address_mem (p : Cidr) : p.address ∈ p := ⟨rfl, rfl⟩

theorem mem_all (x : Address) : x ∈ all x.family := by
  have hlt : x.bits < (all x.family).count := x.bits_lt
  have hzero : (all x.family).address.bits = 0 := rfl
  rw [mem_iff]
  refine ⟨rfl, ?_⟩
  rw [hzero, Nat.zero_div, Nat.div_eq_of_lt hlt]

/-! ## Nested or apart -/

/-- The count of the shorter prefix is a multiple of that of the longer one. -/
theorem count_mul {p q : Cidr} (hf : p.family = q.family) (hl : p.length ≤ q.length) :
    q.count * 2 ^ (q.length - p.length) = p.count := by
  have hq : q.length ≤ q.family.width := q.length_le
  rw [count_eq, count_eq, ← Nat.pow_add]
  congr 1
  unfold hostBits
  rw [hf]; omega

theorem div_count_eq {p q : Cidr} {x : Address} (hf : p.family = q.family) (hl : p.length ≤ q.length)
    (hx : x ∈ q) : x.bits / p.count = q.address.bits / p.count := by
  rw [← count_mul hf hl, ← Nat.div_div_eq_div_mul, ← Nat.div_div_eq_div_mul, hx.2]

/-- All addresses of a block are in a shorter prefix, or none is. -/
theorem mem_shorter_iff {p q : Cidr} {x : Address} (hl : p.length ≤ q.length) (hx : x ∈ q) :
    x ∈ p ↔ q.address ∈ p := by
  have hxf : x.family = q.family := hx.1
  constructor
  · intro hp
    have hf : p.family = q.family := hp.1.symm.trans hxf
    exact ⟨hf.symm, (div_count_eq hf hl hx).symm.trans hp.2⟩
  · intro hp
    have hf : p.family = q.family := hp.1.symm
    exact ⟨hxf.trans hf.symm, (div_count_eq hf hl hx).trans hp.2⟩

theorem contains_iff (p q : Cidr) : p.contains q = true ↔ p.length ≤ q.length ∧ q.address ∈ p := by
  unfold contains
  simp only [Bool.and_eq_true, beq_iff_eq, decide_eq_true_eq, mem_iff]
  constructor
  · rintro ⟨⟨hf, hl⟩, hd⟩; exact ⟨hl, hf.symm, hd⟩
  · rintro ⟨hl, hf, hd⟩; exact ⟨⟨hf.symm, hl⟩, hd⟩

theorem mem_of_contains {p q : Cidr} (h : p.contains q = true) {x : Address} (hx : x ∈ q) : x ∈ p := by
  obtain ⟨hl, hq⟩ := (contains_iff p q).mp h
  exact (mem_shorter_iff hl hx).mpr hq

def Disjoint (p q : Cidr) : Prop := ∀ x ∈ p, x ∉ q

theorem contains_of_mem {p q : Cidr} {x : Address} (hl : p.length ≤ q.length) (hp : x ∈ p) (hq : x ∈ q) :
    p.contains q = true :=
  (contains_iff p q).mpr ⟨hl, (mem_shorter_iff hl hq).mp hp⟩

theorem contains_of_common {p q : Cidr} {x : Address} (hp : x ∈ p) (hq : x ∈ q) :
    p.contains q = true ∨ q.contains p = true :=
  (Nat.le_total p.length q.length).imp (fun hl => contains_of_mem hl hp hq) fun hl => contains_of_mem hl hq hp

theorem disjoint_of_not_contains {p q : Cidr} (hpq : ¬p.contains q = true) (hqp : ¬q.contains p = true) :
    p.Disjoint q :=
  fun _ hp hq => (contains_of_common hp hq).elim hpq hqp

/-! ## Inclusion as sets -/

theorem count_le_of_subset {p q : Cidr} (h : ∀ x ∈ q, x ∈ p) : q.count ≤ p.count := by
  have hbound := q.networkBits_add_le
  have hpos := q.count_pos
  have hfirst : q.network ∈ q := (mem_iff_bounds q _).mpr ⟨rfl, Nat.le_refl _, by change q.networkBits < _; omega⟩
  have hlast : (⟨q.family, q.networkBits + (q.count - 1), by omega⟩ : Address) ∈ q :=
    (mem_iff_bounds q _).mpr ⟨rfl, Nat.le_add_right _ _, by change q.networkBits + _ < _; omega⟩
  obtain ⟨-, hlow, -⟩ := (mem_iff_bounds p _).mp (h _ hfirst)
  obtain ⟨-, -, hhigh⟩ := (mem_iff_bounds p _).mp (h _ hlast)
  change p.networkBits ≤ q.networkBits at hlow
  change q.networkBits + (q.count - 1) < _ at hhigh
  omega

theorem contains_iff_subset (p q : Cidr) : p.contains q = true ↔ ∀ x ∈ q, x ∈ p := by
  refine ⟨fun h x => mem_of_contains h, fun h => ?_⟩
  have hq : q.address ∈ p := h _ q.address_mem
  refine (contains_iff p q).mpr ⟨?_, hq⟩
  have hbits : q.hostBits ≤ p.hostBits := (Nat.pow_le_pow_iff_right (by decide)).mp (count_le_of_subset h)
  have hf : q.family = p.family := hq.1
  have hpl : p.length ≤ p.family.width := p.length_le
  have hql : q.length ≤ q.family.width := q.length_le
  simp only [hostBits, hf] at hbits hql
  omega

theorem contains_trans {p q r : Cidr} (hpq : p.contains q = true) (hqr : q.contains r = true) :
    p.contains r = true :=
  (contains_iff_subset p r).mpr fun _ hx => mem_of_contains hpq (mem_of_contains hqr hx)

/-- Blocks of the same addresses differ in host bits only. -/
theorem normalized_eq_of_contains {p q : Cidr} (hpq : p.contains q = true) (hqp : q.contains p = true) :
    p.normalized = q.normalized := by
  obtain ⟨⟨pf, pbits, hpb⟩, plen, hpl⟩ := p
  obtain ⟨⟨qf, qbits, hqb⟩, qlen, hql⟩ := q
  obtain ⟨hle, hf, hdiv⟩ := (contains_iff _ _).mp hpq
  obtain ⟨hge, -⟩ := (contains_iff _ _).mp hqp
  obtain rfl : qf = pf := hf
  obtain rfl : plen = qlen := Nat.le_antisymm hle hge
  have hbits : networkBits ⟨⟨qf, qbits, hqb⟩, plen, hql⟩ = networkBits ⟨⟨qf, pbits, hpb⟩, plen, hpl⟩ :=
    congrArg (· * _) hdiv
  simp only [normalized, network, family, hbits]

theorem normalized_eq_self {p : Cidr} (h : p.networkBits = p.address.bits) : p.normalized = p := by
  obtain ⟨⟨family, bits, hbits⟩, length, hlength⟩ := p
  simp only [normalized, network, h]
  rfl

/-! ## Without host bits -/

theorem network_normalized (p : Cidr) : p.normalized.network = p.network := by
  have hbits : p.normalized.networkBits = p.networkBits :=
    congrArg (· * p.count) (Nat.mul_div_cancel (p.address.bits / p.count) p.count_pos)
  simp only [network, hbits]
  rfl

theorem normalized_normalized (p : Cidr) : p.normalized.normalized = p.normalized :=
  normalized_eq_self (congrArg Address.bits p.network_normalized)

theorem mem_normalized_iff (p : Cidr) (x : Address) : x ∈ p.normalized ↔ x ∈ p := by
  have hbits : p.normalized.networkBits = p.networkBits := congrArg Address.bits p.network_normalized
  rw [mem_iff_bounds, mem_iff_bounds, hbits]
  rfl

theorem contains_normalized (p q : Cidr) : p.normalized.contains q.normalized = p.contains q := by
  rw [Bool.eq_iff_iff, contains_iff_subset, contains_iff_subset]
  simp only [mem_normalized_iff]

/-! ## Halves -/

section
variable (p : Cidr) (h : p.length < p.family.width)

theorem count_lower : 2 * (p.lower h).count = p.count := by
  have := count_mul (p := p) (q := p.lower h) rfl (Nat.le_succ _)
  rw [show (p.lower h).length = p.length + 1 from rfl, Nat.add_sub_cancel_left, Nat.pow_one] at this
  omega

theorem count_upper : (p.upper h).count = (p.lower h).count := rfl

theorem networkBits_lower : (p.lower h).networkBits = p.networkBits := by
  have hc := (p.lower h).count_pos
  have h2 := p.count_lower h
  have ha : (p.lower h).address.bits = p.address.bits / p.count * p.count := rfl
  unfold networkBits
  rw [ha, ← h2, ← Nat.mul_assoc, Nat.mul_div_cancel _ hc]

theorem networkBits_upper : (p.upper h).networkBits = p.networkBits + (p.lower h).count := by
  have hc := (p.upper h).count_pos
  have h2 := p.count_lower h
  have h3 := p.count_upper h
  have ha : (p.upper h).address.bits = p.address.bits / p.count * p.count + p.count / 2 := rfl
  unfold networkBits
  rw [ha, ← h3, show p.count / 2 = (p.upper h).count by omega]
  generalize hn : p.address.bits / p.count = n
  have : n * p.count + (p.upper h).count = (n * 2 + 1) * (p.upper h).count := by
    rw [← h2, ← h3, Nat.add_mul, Nat.one_mul, Nat.mul_assoc]
  rw [this, Nat.mul_div_cancel _ hc]

theorem mem_iff_halves (x : Address) : x ∈ p ↔ x ∈ p.lower h ∨ x ∈ p.upper h := by
  have h1 := p.count_lower h
  have h2 := p.count_upper h
  have fl : (p.lower h).family = p.family := rfl
  have fu : (p.upper h).family = p.family := rfl
  rw [mem_iff_bounds, mem_iff_bounds, mem_iff_bounds, networkBits_lower, networkBits_upper, fl, fu, h2]
  constructor
  · rintro ⟨hf, hlo, hhi⟩
    rcases Nat.lt_or_ge x.bits (p.networkBits + (p.lower h).count) with hx | hx
    · exact .inl ⟨hf, hlo, hx⟩
    · exact .inr ⟨hf, hx, by omega⟩
  · rintro (⟨hf, hlo, hhi⟩ | ⟨hf, hlo, hhi⟩) <;> exact ⟨hf, by omega, by omega⟩

theorem normalized_lower : (p.lower h).normalized = p.lower h := normalized_eq_self (p.networkBits_lower h)

theorem normalized_upper : (p.upper h).normalized = p.upper h := by
  have hcount := p.count_lower h
  refine normalized_eq_self ((p.networkBits_upper h).trans ?_)
  change p.networkBits + (p.lower h).count = p.networkBits + p.count / 2
  omega

theorem halves_disjoint : (p.lower h).Disjoint (p.upper h) := by
  intro x hl hu
  rw [mem_iff_bounds, networkBits_lower] at hl
  rw [mem_iff_bounds, networkBits_upper] at hu
  omega

end

end AccessList.Cidr
