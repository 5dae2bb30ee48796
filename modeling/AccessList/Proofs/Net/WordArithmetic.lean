import AccessList.Proofs.Net.Canonical
import AccessList.Proofs.Net.Masks
import AccessList.Proofs.Net.Words

/-!
# Arithmetic of blocks in words

Blocks can be computed with in words: every operation gives what it gives of the block itself, and no step of it fails.
-/

namespace AccessList

def Address.word (a : Address) : Word := .ofNat 128 a.bits

namespace Address

theorem bits_lt_word (a : Address) : a.bits < 2 ^ 128 := Nat.lt_of_lt_of_le a.bits_lt a.family.count_le

theorem toNat_word (a : Address) : a.word.toNat = a.bits := Word.toNat_ofNat a.bits_lt_word

theorem cut_word (a : Address) : a.family.cut a.word = a.word := Family.cut_ofNat a.bits_lt

end Address

namespace Cidr

def words (p : Cidr) : WordBlock := ⟨p.family, p.address.word, .ofNat p.length⟩

theorem length_le_word (p : Cidr) : p.length ≤ 128 := Nat.le_trans p.length_le p.family.width_le_word

theorem toNat_length_words (p : Cidr) : p.words.length.toNat = p.length := Byte.toNat_ofNat p.length_le_word

theorem admissible_words (p : Cidr) : p.words.Admissible := by
  constructor
  · rw [UInt8.le_iff_toNat_le, toNat_length_words, Family.maxLength_eq, Byte.toNat_ofNat (Family.width_le_word _)]
    exact p.length_le
  · change p.address.word.toNat < p.family.count
    rw [Address.toNat_word]
    exact p.address.bits_lt

/-- The admissible blocks in words are those of blocks. -/
theorem admissible_iff (b : WordBlock) : b.Admissible ↔ ∃ p : Cidr, p.words = b := by
  constructor
  · rintro ⟨hlength, hword⟩
    rw [UInt8.le_iff_toNat_le, Family.maxLength_eq, Byte.toNat_ofNat (Family.width_le_word _)] at hlength
    refine ⟨⟨⟨b.family, b.word.toNat, hword⟩, b.length.toNat, hlength⟩, ?_⟩
    simp only [words, family, Address.word, BitVec.ofNat_toNat, BitVec.setWidth_eq, UInt8.ofNat_toNat]
  · rintro ⟨p, rfl⟩
    exact p.admissible_words

theorem length_words_lt_iff (p q : Cidr) : p.words.length < q.words.length ↔ p.length < q.length :=
  Byte.ofNat_lt_iff p.length_le_word q.length_le_word

/-! ## Masks -/

theorem hostBits?_words (p : Cidr) : p.words.hostBits? = some (.ofNat p.hostBits) := by
  rw [WordBlock.hostBits?, Family.maxLength_eq]
  exact Byte.sub?_ofNat p.family.width_le_word p.length_le

theorem shifted_ones (p : Cidr) :
    (p.family.ones <<< p.hostBits) &&& p.family.ones = p.netmask.word := by
  have hle : p.hostBits ≤ p.family.width := Nat.sub_le _ _
  have hdvd : p.family.count ∣ 2 ^ 128 := Nat.pow_dvd_pow 2 p.family.width_le_word
  have hpos : 0 < 2 ^ p.hostBits := Nat.two_pow_pos _
  have hpow : 2 ^ p.hostBits ≤ p.family.count := Nat.pow_le_pow_right (by decide) hle
  have hmul : p.family.count ≤ p.family.count * 2 ^ p.hostBits := Nat.le_mul_of_pos_right _ hpos
  have hsplit : (p.family.count - 1) * 2 ^ p.hostBits =
      p.family.count - 2 ^ p.hostBits + p.family.count * (2 ^ p.hostBits - 1) := by
    rw [Nat.sub_mul, Nat.mul_sub, Nat.one_mul, Nat.mul_one]
    omega
  refine Family.cut_eq ?_
  rw [BitVec.toNat_shiftLeft, Family.toNat_ones, Nat.mod_mod_of_dvd _ hdvd, Nat.shiftLeft_eq, hsplit,
    Nat.add_mul_mod_self_left, Nat.mod_eq_of_lt (Nat.sub_lt p.family.count_pos hpos)]
  rfl

theorem mask?_words (p : Cidr) : p.words.mask? = some p.netmask.word := by
  unfold WordBlock.mask?
  split
  · rename_i h
    have hzero : p.length = 0 := (Byte.ofNat_inj p.length_le_word (Nat.zero_le _)).mp h
    have hmask : p.netmask.bits = 0 := by
      change 2 ^ p.family.width - 2 ^ (p.family.width - p.length) = 0
      rw [hzero, Nat.sub_zero, Nat.sub_self]
    rw [Address.word, hmask]
    rfl
  · rename_i h
    have hpos : 0 < p.length := Nat.pos_of_ne_zero fun hzero => h (congrArg UInt8.ofNat hzero)
    have hlt : p.hostBits < 128 := by
      have := p.family.width_le_word
      have := p.length_le
      unfold hostBits
      omega
    rw [hostBits?_words, Option.bind_eq_bind, Option.bind_some, Word.shl?_ofNat _ hlt]
    exact congrArg some p.shifted_ones

theorem and_netmask_word {p : Cidr} {x : Address} (hx : x.family = p.family) :
    x.word &&& p.netmask.word = .ofNat 128 (x.bits / p.count * p.count) := by
  have hlt : x.bits < 2 ^ p.family.width := hx ▸ x.bits_lt
  have hmask := and_mask_eq hlt (Nat.sub_le p.family.width p.length)
  rw [Address.word, Address.word, ← BitVec.ofNat_and]
  exact congrArg (BitVec.ofNat 128) hmask

theorem network?_words (p : Cidr) : p.words.network? = some p.network.word := by
  rw [WordBlock.network?, mask?_words]
  exact congrArg some ((congrArg p.family.cut (and_netmask_word rfl)).trans p.network.cut_word)

theorem netmask?_words (p : Cidr) : p.words.netmask? = some p.netmask.word := by
  rw [WordBlock.netmask?, mask?_words]
  exact congrArg some p.netmask.cut_word

theorem not_netmask_word (p : Cidr) : ~~~p.netmask.word &&& p.family.ones = p.hostmask.word := by
  have hword : 2 ^ 128 = p.family.count * 2 ^ (128 - p.family.width) := by
    rw [Family.count, Nat.pow_eq, ← Nat.pow_add, Nat.add_sub_cancel' p.family.width_le_word]
  have hle : p.count ≤ p.family.count := Nat.le_trans (Nat.le_add_left _ _) p.networkBits_add_le
  have hmul : p.family.count ≤ p.family.count * 2 ^ (128 - p.family.width) :=
    Nat.le_mul_of_pos_right _ (Nat.two_pow_pos _)
  have hpos := p.count_pos
  have hsplit : 2 ^ 128 - 1 - (p.family.count - p.count) =
      p.count - 1 + p.family.count * (2 ^ (128 - p.family.width) - 1) := by
    rw [hword, Nat.mul_sub, Nat.mul_one]
    omega
  refine Family.cut_eq ?_
  rw [BitVec.toNat_not, Address.toNat_word]
  change (2 ^ 128 - 1 - (p.family.count - p.count)) % p.family.count = p.count - 1
  rw [hsplit, Nat.add_mul_mod_self_left, Nat.mod_eq_of_lt (by omega)]

theorem hostmask?_words (p : Cidr) : p.words.hostmask? = some p.hostmask.word := by
  rw [WordBlock.hostmask?, mask?_words]
  exact congrArg some ((congrArg p.family.cut p.not_netmask_word).trans p.hostmask.cut_word)

theorem size?_words (p : Cidr) : p.words.size? = some (.ofNat 128 p.size) := by
  rw [WordBlock.size?, hostBits?_words, Option.map_some]
  rcases Nat.lt_or_eq_of_le p.hostBits_le_word with h | h
  · rw [Word.shl?_ofNat _ h, Option.getD_some, size_of_lt h, Word.one_shiftLeft]
  · rw [h, Word.shl?_width, Option.getD_none, size_of_eq h]
    rfl

theorem normalized?_words (p : Cidr) : p.words.normalized? = some p.normalized.words := by
  rw [WordBlock.normalized?, network?_words]
  rfl

theorem contains?_words (p q : Cidr) : p.words.contains? q.words = some (p.contains q) := by
  have hguard : (p.words.family ≠ q.words.family ∨ q.words.length < p.words.length) ↔
      ¬(p.family = q.family ∧ p.length ≤ q.length) := by
    rw [length_words_lt_iff, not_and_or, Nat.not_le]
    rfl
  unfold WordBlock.contains?
  by_cases h : p.family = q.family ∧ p.length ≤ q.length
  · have hmasked : (q.address.word &&& p.netmask.word == p.network.word) = p.contains q := by
      have hlt : q.address.bits / p.count * p.count < 2 ^ 128 :=
        Nat.lt_of_le_of_lt (Nat.div_mul_le_self _ _) q.address.bits_lt_word
      rw [and_netmask_word h.1.symm, Bool.eq_iff_iff, beq_iff_eq, contains_iff]
      refine (Word.ofNat_inj hlt p.network.bits_lt_word).trans ((Nat.mul_left_inj p.count_pos.ne').trans ?_)
      exact ⟨fun hq => ⟨h.2, h.1.symm, hq⟩, fun hq => hq.2.2⟩
    rw [if_neg (fun hg => hguard.mp hg h), mask?_words, network?_words]
    exact congrArg some hmasked
  · have hfalse : p.contains q = false := Bool.eq_false_iff.mpr fun hc =>
      have hpq := (contains_iff p q).mp hc
      h ⟨hpq.2.1.symm, hpq.1⟩
    rw [if_pos (hguard.mpr h), hfalse]

/-! ## Halves -/

def halves (p : Cidr) : Cidr × Cidr :=
  if h : p.length < p.family.width then (p.lower h, p.upper h) else (p, p)

theorem network_or_half (p : Cidr) (h : p.length < p.family.width) :
    p.network.word ||| .ofNat 128 (2 ^ (p.hostBits - 1)) = (p.upper h).address.word := by
  have hpos : 0 < p.hostBits := Nat.sub_pos_of_lt h
  have hlt : 2 ^ (p.hostBits - 1) < 2 ^ p.hostBits := Nat.pow_lt_pow_right (by decide) (Nat.sub_one_lt_of_lt hpos)
  have hor := Nat.two_pow_add_eq_or_of_lt hlt (p.address.bits / p.count)
  have hhalf : p.count / 2 = 2 ^ (p.hostBits - 1) := Nat.pow_div hpos (by decide)
  rw [Nat.mul_comm] at hor
  rw [Address.word, Address.word, ← BitVec.ofNat_or]
  change BitVec.ofNat 128 (p.networkBits ||| _) = .ofNat 128 (p.networkBits + p.count / 2)
  rw [hhalf]
  exact congrArg (BitVec.ofNat 128) hor.symm

theorem halves?_words (p : Cidr) : p.words.halves? = some (p.halves.1.words, p.halves.2.words) := by
  have hfull : p.words.length = p.words.family.maxLength ↔ ¬p.length < p.family.width := by
    rw [Family.maxLength_eq]
    refine (Byte.ofNat_inj p.length_le_word (Family.width_le_word _)).trans ?_
    have hle : p.length ≤ p.family.width := p.length_le
    change p.length = p.family.width ↔ _
    omega
  unfold WordBlock.halves?
  by_cases h : p.length < p.family.width
  · have hbits : p.hostBits - 1 < 128 := by
      have := p.hostBits_le_word
      omega
    have hadd : Byte.add? p.words.length 1 = some (.ofNat (p.length + 1)) := Byte.add?_ofNat_one p.length_le_word
    have hsub : Byte.sub? p.words.family.maxLength (.ofNat (p.length + 1)) = some (.ofNat (p.hostBits - 1)) := by
      rw [Family.maxLength_eq]
      exact Byte.sub?_ofNat p.family.width_le_word h
    rw [if_neg (fun hf => hfull.mp hf h), hadd, network?_words, halves, dif_pos h]
    simp only [Option.bind_eq_bind, Option.bind_some, hsub, Word.shl?_ofNat _ hbits, Word.one_shiftLeft,
      p.network_or_half h]
    exact congrArg some (Prod.ext (congrArg (WordBlock.mk _ · _) p.network.cut_word)
      (congrArg (WordBlock.mk _ · _) (p.upper h).address.cut_word))
  · rw [if_pos (hfull.mpr h), halves, dif_neg h]

theorem order_words (p q : Cidr) : WordBlock.order p.words q.words = order p q := by
  have hbits : ∀ p : Cidr, p.words.word.toNat = p.address.bits := fun p => p.address.toNat_word
  rw [WordBlock.order, hbits, hbits, toNat_length_words, toNat_length_words]
  rfl

theorem sort_map_words (ps : List Cidr) : WordBlock.sort (ps.map words) = (sort ps).map words :=
  (List.map_mergeSort fun p _ q _ => by rw [order_words]).symm

/-! ## Subtraction -/

theorem step?_words (p q : Cidr) (h : p.length < p.family.width) (aside : List WordBlock) :
    Halving.step? q.words ⟨p.words, aside⟩ =
      some (if (p.lower h).contains q then ⟨(p.lower h).words, aside ++ [(p.upper h).words]⟩
        else ⟨(p.upper h).words, aside ++ [(p.lower h).words]⟩) := by
  have hhalves : p.words.halves? = some ((p.lower h).words, (p.upper h).words) := by
    rw [halves?_words, halves, dif_pos h]
  simp only [Halving.step?, hhalves, Option.bind_eq_bind, Option.bind_some, contains?_words]
  rfl

/-- Halving `p` down to `q` puts `ps` aside, one block each round, and leaves `q`. -/
structure PutsAside (p q : Cidr) (ps : List Cidr) : Prop where
  lengths : ps.map length = List.range' (p.length + 1) (q.length - p.length)
  ends : ∀ aside, Halving.Ends q.words ⟨p.words, aside⟩ (q.length - p.length) ⟨q.words, aside ++ ps.map words⟩

theorem PutsAside.cons {p q r u : Cidr} {ps : List Cidr} (h : PutsAside r q ps) (hlt : p.length < q.length)
    (hr : r.length = p.length + 1) (hu : u.length = p.length + 1)
    (hstep : ∀ aside, Halving.step? q.words ⟨p.words, aside⟩ = some ⟨r.words, aside ++ [u.words]⟩) :
    PutsAside p q (u :: ps) := by
  have hrounds : q.length - p.length = q.length - r.length + 1 := by omega
  constructor
  · rw [List.map_cons, h.lengths, hu, hrounds, List.range'_succ, hr]
  · intro aside
    have hrest := h.ends (aside ++ [u.words])
    rw [List.append_assoc] at hrest
    rw [hrounds]
    exact .round ((length_words_lt_iff p q).mpr hlt) (hstep aside) hrest

/-- The halves put aside are the pieces of the carved block. -/
theorem putsAside_carve {p q : Cidr} (hc : p.contains q = true) (hp : p.normalized = p) (hq : q.normalized = q) :
    ∃ ps : List Cidr, ps.Perm (p.carve q) ∧ PutsAside p q ps := by
  fun_induction carve p q with
  | case1 p h hlo ih =>
    obtain ⟨ps, hperm, haside⟩ := ih hlo (p.normalized_lower h.2)
    refine ⟨p.upper h.2 :: ps, ?_, ?_⟩
    · exact (hperm.cons _).trans (List.perm_append_singleton _ _).symm
    · refine haside.cons h.1 rfl rfl fun aside => ?_
      rw [step?_words p q h.2, if_pos hlo]
  | case2 p h hlo ih =>
    obtain ⟨ps, hperm, haside⟩ := ih (upper_contains hc h.1 h.2 hlo) (p.normalized_upper h.2)
    refine ⟨p.lower h.2 :: ps, hperm.cons _, ?_⟩
    refine haside.cons h.1 rfl rfl fun aside => ?_
    rw [step?_words p q h.2, if_neg hlo]
  | case3 p h =>
    have hlength : ¬p.length < q.length := fun hl => h ⟨hl, length_lt_width hc hl⟩
    have hqp : q.contains p = true :=
      (contains_iff q p).mpr ⟨Nat.le_of_not_lt hlength, mem_of_contains_of_length hc hlength p.address_mem⟩
    obtain rfl : p = q := by rw [← hp, ← hq, normalized_eq_of_contains hc hqp]
    refine ⟨[], .nil, ?_, fun aside => ?_⟩
    · rw [Nat.sub_self]
      rfl
    · rw [Nat.sub_self, List.map_nil, List.append_nil]
      exact .stop fun hlt => hlength ((length_words_lt_iff p p).mp hlt)

theorem run?_words {p q : Cidr} (hc : p.contains q = true) (hp : p.normalized = p) (hq : q.normalized = q) :
    ∃ ps : List Cidr, ps.Perm (p.carve q) ∧
      Halving.run? q.words ⟨p.words, []⟩ = some ⟨q.words, ps.map words⟩ := by
  obtain ⟨ps, hperm, haside⟩ := putsAside_carve hc hp hq
  have hf : q.family = p.family := ((contains_iff p q).mp hc).2.1
  have hlength : q.words.length ≤ p.family.maxLength := hf ▸ q.admissible_words.1
  exact ⟨ps, hperm, (haside.ends []).run?_eq hlength⟩

theorem minus?_words (p q : Cidr) : p.words.minus? q.words = some ((p.minus q).map words) := by
  simp only [WordBlock.minus?, contains?_words, normalized?_words, Option.bind_eq_bind, Option.bind_some, minus]
  by_cases hpq : p.contains q = true
  · have hc : p.normalized.contains q.normalized = true := (p.contains_normalized q).trans hpq
    obtain ⟨ps, hperm, hrun⟩ := run?_words hc p.normalized_normalized q.normalized_normalized
    have hsort : sort ps = p.carve q := sort_eq (carve_normalized_blocks hpq ▸ hperm) (carve_below hpq)
    rw [if_pos hpq, if_pos hpq, hrun, Option.bind_some, ← hsort, ← sort_map_words]
    rfl
  · rw [if_neg hpq, if_neg hpq]
    by_cases hqp : q.contains p = true
    · rw [if_pos hqp, if_pos hqp]
      rfl
    · rw [if_neg hqp, if_neg hqp]
      rfl

/-! ## Sets and words -/

structure IsSetArithmetic (p q : Cidr) : Prop where
  /-- The addresses of a block share its leading bits. -/
  mem_iff : ∀ x, x ∈ p ↔ x.family = p.family ∧ ∀ i, p.hostBits ≤ i → x.bits.testBit i = p.address.bits.testBit i
  contains_iff : p.contains q = true ↔ p.family = q.family ∧ ∀ x ∈ q, x ∈ p
  nested_or_apart : p.contains q = true ∨ q.contains p = true ∨ p.Disjoint q
  network : IsLeast p.numbers p.network.bits
  network_or_hostmask : IsGreatest p.numbers (p.network.bits ||| p.hostmask.bits)
  complement : ∀ i < p.family.width, p.netmask.bits.testBit i = !p.hostmask.bits.testBit i
  size : p.size = if p.family = .inet6 ∧ p.length = 0 then 2 ^ 128 - 1 else Nat.card {x // x ∈ p}

/-- Computing with two blocks in words never fails and gives what it gives of the blocks. -/
structure IsWordArithmetic (p q : Cidr) : Prop where
  family : p.words.family = p.family
  word : p.words.word.toNat = p.address.bits
  length : p.words.length.toNat = p.length
  size : p.words.size?.map BitVec.toNat = some p.size
  network : p.words.network?.map BitVec.toNat = some p.network.bits
  netmask : p.words.netmask?.map BitVec.toNat = some p.netmask.bits
  hostmask : p.words.hostmask?.map BitVec.toNat = some p.hostmask.bits
  normalized : p.words.normalized? = some p.normalized.words
  contains : p.words.contains? q.words = some (p.contains q)
  halves : p.words.halves? = some (p.halves.1.words, p.halves.2.words)
  minus : p.words.minus? q.words = some ((p.minus q).map words)

theorem isSetArithmetic (p q : Cidr) : p.IsSetArithmetic q where
  mem_iff := p.mem_iff_testBit
  contains_iff := (contains_iff_subset p q).trans ⟨fun h => ⟨(h _ q.address_mem).1.symm, h⟩, fun h => h.2⟩
  nested_or_apart := by
    by_cases hpq : p.contains q = true
    · exact .inl hpq
    · by_cases hqp : q.contains p = true
      · exact .inr (.inl hqp)
      · exact .inr (.inr (disjoint_of_not_contains hpq hqp))
  network := p.isLeast_network
  network_or_hostmask := p.isGreatest_network_or_hostmask
  complement := fun _ => p.testBit_netmask
  size := p.size_eq

theorem isWordArithmetic (p q : Cidr) : p.IsWordArithmetic q where
  family := rfl
  word := p.address.toNat_word
  length := p.toNat_length_words
  size := by
    have hlt : p.size < 2 ^ 128 := Nat.lt_of_le_of_lt (Nat.min_le_right _ _) (by decide)
    rw [size?_words, Option.map_some, Word.toNat_ofNat hlt]
  network := by rw [network?_words, Option.map_some, Address.toNat_word]
  netmask := by rw [netmask?_words, Option.map_some, Address.toNat_word]
  hostmask := by rw [hostmask?_words, Option.map_some, Address.toNat_word]
  normalized := p.normalized?_words
  contains := p.contains?_words q
  halves := p.halves?_words
  minus := p.minus?_words q

/-- Masks compute the sets of addresses, and can do so in words. All blocks in words with an admissible length are meant,
and only such ones come out. -/
theorem mask_arithmetic_exact (p q : Cidr) :
    p.IsSetArithmetic q ∧ p.IsWordArithmetic q ∧ ∀ b : WordBlock, b.Admissible ↔ ∃ r : Cidr, r.words = b :=
  ⟨p.isSetArithmetic q, p.isWordArithmetic q, admissible_iff⟩

/-- All of IPv6 is where the shifts would go too far. -/
example : (all .inet6).words.mask? = some 0 ∧ (all .inet6).words.size? = some (.allOnes 128) := by decide

end Cidr

end AccessList
