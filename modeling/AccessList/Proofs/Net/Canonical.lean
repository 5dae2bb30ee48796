import AccessList.Proofs.Net.Subtraction
import Mathlib.Data.List.Sort

/-!
# Subtraction is canonical

What is left of a block that the excludes meet are the largest blocks of the addresses that are left, in ascending
order. So it depends on which addresses are excluded and not on the blocks that exclude them.
-/

namespace AccessList

theorem Family.eq_of_rank_eq {family family' : Family} : family.rank = family'.rank → family = family' := by
  cases family <;> cases family' <;> decide

namespace Cidr

/-- A block of addresses with a property, within no larger block of such addresses. -/
structure IsMaximal (P : Address → Prop) (b : Cidr) : Prop where
  inside : ∀ x ∈ b, P x
  contains : ∀ c : Cidr, (∀ x ∈ c, P x) → c.contains b = true → b.contains c = true

/-! ## Blocks in ascending order -/

def Below (p q : Cidr) : Prop := ∀ x ∈ p, ∀ y ∈ q, x.family = y.family ∧ x.bits < y.bits

instance : Std.Irrefl Below where
  irrefl p h := Nat.lt_irrefl _ (h _ p.address_mem _ p.address_mem).2

instance : Std.Antisymm Below where
  antisymm p q h h' :=
    absurd (h _ p.address_mem _ q.address_mem).2 (Nat.lt_asymm (h' _ q.address_mem _ p.address_mem).2)

theorem Below.mono {p q p' q' : Cidr} (h : Below p q) (hp : ∀ x ∈ p', x ∈ p) (hq : ∀ x ∈ q', x ∈ q) :
    Below p' q' :=
  fun x hx y hy => h x (hp x hx) y (hq y hy)

theorem Below.order_eq {p q : Cidr} (h : Below p q) : order p q = .lt := by
  obtain ⟨hf, hlt⟩ := h p.address p.address_mem q.address q.address_mem
  have hrank : compare p.family.rank q.family.rank = .eq := by
    rw [show p.family = q.family from hf, compare_eq_iff_eq]
  rw [order, hrank, compare_lt_iff_lt.mpr hlt]
  rfl

instance : Std.TransCmp order :=
  inferInstanceAs (Std.TransCmp (compareLex (compareOn fun p : Cidr => p.family.rank)
    (compareLex (compareOn fun p : Cidr => p.address.bits) (compareOn fun p : Cidr => p.length))))

theorem eq_of_order_eq {p q : Cidr} (h : order p q = .eq) : p = q := by
  obtain ⟨⟨pf, pbits, hpb⟩, plen, hpl⟩ := p
  obtain ⟨⟨qf, qbits, hqb⟩, qlen, hql⟩ := q
  simp only [order, family, Ordering.then_eq_eq, compare_eq_iff_eq] at h
  obtain ⟨hrank, rfl, rfl⟩ := h
  obtain rfl := Family.eq_of_rank_eq hrank
  rfl

/-- A list in ascending order is what any arrangement of it is sorted to. -/
theorem sort_eq {ps qs : List Cidr} (hperm : ps.Perm qs) (hqs : qs.Pairwise Below) : sort ps = qs := by
  have hsorted : (sort ps).Pairwise fun p q => (order p q).isLE = true := by
    refine List.pairwise_mergeSort (fun p q r => Std.TransCmp.isLE_trans) (fun p q => ?_) ps
    have hswap : order p q = (order q p).swap := Std.OrientedCmp.eq_swap
    rw [hswap]
    cases order q p <;> rfl
  have hascending : qs.Pairwise fun p q => (order p q).isLE = true := hqs.imp fun h => by
    rw [h.order_eq]
    rfl
  refine List.Perm.eq_of_pairwise (fun p q _ _ hpq hqp => ?_) hsorted hascending
    ((List.mergeSort_perm ps _).trans hperm)
  exact eq_of_order_eq (Std.OrientedCmp.isLE_antisymm hpq hqp)

theorem lower_below_upper (p : Cidr) (h : p.length < p.family.width) : Below (p.lower h) (p.upper h) := by
  intro x hx y hy
  obtain ⟨hxf, -, hxlt⟩ := (mem_iff_bounds _ x).mp hx
  obtain ⟨hyf, hyge, -⟩ := (mem_iff_bounds _ y).mp hy
  rw [networkBits_lower] at hxlt
  rw [networkBits_upper] at hyge
  exact ⟨hxf.trans hyf.symm, by omega⟩

/-! ## The pieces of a carved block -/

theorem carve_below {p q : Cidr} (hc : p.contains q = true) : (p.carve q).Pairwise Below := by
  fun_induction carve p q with
  | case1 p h hlo ih =>
    rw [List.pairwise_append]
    refine ⟨ih hlo, List.pairwise_singleton .., fun r hr u hu => ?_⟩
    rw [List.mem_singleton.mp hu]
    exact (p.lower_below_upper h.2).mono (fun x => subset_of_mem_carve hlo hr) fun x => id
  | case2 p h hlo ih =>
    have hup := upper_contains hc h.1 h.2 hlo
    refine List.pairwise_cons.mpr ⟨fun r hr => ?_, ih hup⟩
    exact (p.lower_below_upper h.2).mono (fun x => id) fun x => subset_of_mem_carve hup hr
  | case3 p h => exact .nil

theorem carve_normalized {p q r : Cidr} (hr : r ∈ p.carve q) : r.normalized = r := by
  fun_induction carve p q with
  | case1 p h hlo ih =>
    rcases List.mem_append.mp hr with hr | hr
    · exact ih hr
    · rw [List.mem_singleton.mp hr, normalized_upper]
  | case2 p h hlo ih =>
    rcases List.mem_cons.mp hr with rfl | hr
    · exact p.normalized_lower h.2
    · exact ih hr
  | case3 p h => cases hr

theorem contains_of_larger_half {p half c : Cidr} (hlength : half.length = p.length + 1) (hsub : ∀ x ∈ half, x ∈ p)
    (hc : c.contains half = true) (hl : c.length < half.length) : c.contains p = true := by
  have hmem : half.address ∈ c := mem_of_contains hc half.address_mem
  exact contains_of_mem (by omega) hmem (hsub _ half.address_mem)

/-- A block larger than a piece holds what was carved out. -/
theorem contains_of_larger_piece {p q r c : Cidr} (hc : p.contains q = true) (hr : r ∈ p.carve q)
    (hcr : c.contains r = true) (hl : c.length < r.length) : c.contains q = true := by
  fun_induction carve p q with
  | case1 p h hlo ih =>
    rcases List.mem_append.mp hr with hr | hr
    · exact ih hlo hr
    · obtain rfl := List.mem_singleton.mp hr
      have hsub : ∀ x ∈ p.upper h.2, x ∈ p := fun x hx => (p.mem_iff_halves h.2 x).mpr (.inr hx)
      exact contains_trans (contains_of_larger_half rfl hsub hcr hl) hc
  | case2 p h hlo ih =>
    rcases List.mem_cons.mp hr with rfl | hr
    · have hsub : ∀ x ∈ p.lower h.2, x ∈ p := fun x hx => (p.mem_iff_halves h.2 x).mpr (.inl hx)
      exact contains_trans (contains_of_larger_half rfl hsub hcr hl) hc
    · exact ih (upper_contains hc h.1 h.2 hlo) hr
  | case3 p h => cases hr

/-! ## Decompositions -/

structure Decomposes (P : Address → Prop) (ps : List Cidr) : Prop where
  covered : ∀ x, Covered ps x ↔ P x
  ascending : ps.Pairwise Below
  maximal : ∀ p ∈ ps, p.IsMaximal P
  normalized : ∀ p ∈ ps, p.normalized = p

variable {P Q : Address → Prop} {p q : Cidr} {ps qs : List Cidr}

theorem Decomposes.congr (h : Decomposes P ps) (hPQ : ∀ x, P x ↔ Q x) : Decomposes Q ps := by
  obtain rfl : P = Q := funext fun x => propext (hPQ x)
  exact h

theorem decomposes_nil (h : ∀ x, ¬P x) : Decomposes P [] :=
  ⟨fun x => iff_of_false (covered_nil x) (h x), .nil, nofun, nofun⟩

theorem decomposes_singleton (h : p.normalized = p) : Decomposes (· ∈ p) [p] := by
  refine ⟨covered_singleton p, List.pairwise_singleton .., fun r hr => ?_, fun r hr => ?_⟩
  · obtain rfl := List.mem_singleton.mp hr
    exact ⟨fun x hx => hx, fun c hsub _ => (contains_iff_subset r c).mpr hsub⟩
  · rw [List.mem_singleton.mp hr, h]

theorem carve_decomposes (hc : p.contains q = true) : Decomposes (fun x => x ∈ p ∧ x ∉ q) (p.carve q) := by
  refine ⟨covered_carve hc, carve_below hc, fun r hr => ?_, fun r => carve_normalized⟩
  refine ⟨fun x hx => (covered_carve hc x).mp ⟨r, hr, hx⟩, fun c hsub hcr => ?_⟩
  have hlength : r.length ≤ c.length := by
    by_contra hlt
    have hcq := contains_of_larger_piece hc hr hcr (Nat.lt_of_not_le hlt)
    exact (hsub _ (mem_of_contains hcq q.address_mem)).2 q.address_mem
  exact contains_of_mem hlength r.address_mem (mem_of_contains hcr r.address_mem)

/-- What is left of a block that has no host bits or meets the exclude. -/
theorem minus_decomposes (h : p.normalized = p ∨ ∃ x ∈ p, x ∈ q) :
    Decomposes (fun x => x ∈ p ∧ x ∉ q) (p.minus q) := by
  unfold minus
  split
  · rename_i hpq
    exact carve_decomposes hpq
  · split
    · rename_i hqp
      exact decomposes_nil fun x hx => hx.2 (mem_of_contains hqp hx.1)
    · rename_i hpq hqp
      have hapart := disjoint_of_not_contains hpq hqp
      rcases h with h | ⟨x, hxp, hxq⟩
      · exact (decomposes_singleton h).congr fun x => ⟨fun hx => ⟨hx, hapart x hx⟩, fun hx => hx.1⟩
      · exact absurd hxq (hapart x hxp)

theorem Decomposes.minus (h : Decomposes P ps) (q : Cidr) :
    Decomposes (fun x => P x ∧ x ∉ q) (ps.flatMap (·.minus q)) := by
  have hpiece : ∀ p ∈ ps, Decomposes (fun x => x ∈ p ∧ x ∉ q) (p.minus q) := fun p hp =>
    minus_decomposes (.inl (h.normalized p hp))
  have hsub : ∀ p : Cidr, ∀ r ∈ p.minus q, ∀ x ∈ r, x ∈ p := fun p r hr x hx =>
    ((covered_minus p q x).mp ⟨r, hr, hx⟩).1
  constructor
  · intro x
    rw [covered_flatMap_minus, h.covered]
  · rw [List.pairwise_flatMap]
    refine ⟨fun p hp => (hpiece p hp).ascending, h.ascending.imp ?_⟩
    intro p p' hbelow r hr r' hr'
    exact hbelow.mono (hsub p r hr) (hsub p' r' hr')
  · intro r hr
    obtain ⟨p, hp, hr⟩ := List.mem_flatMap.mp hr
    obtain ⟨hinside, hlargest⟩ := (hpiece p hp).maximal r hr
    have hpP := h.maximal p hp
    refine ⟨fun x hx => ⟨hpP.inside x (hinside x hx).1, (hinside x hx).2⟩, fun c hc hcr => ?_⟩
    -- A larger block meets `p`, so it is inside `p`, which is maximal itself.
    have hpc : p.contains c = true := by
      have hmem := mem_of_contains hcr r.address_mem
      rcases contains_of_common (hsub p r hr _ r.address_mem) hmem with hpc | hcp
      · exact hpc
      · exact hpP.contains c (fun x hx => (hc x hx).1) hcp
    exact hlargest c (fun x hx => ⟨mem_of_contains hpc hx, (hc x hx).2⟩) hcr
  · intro r hr
    obtain ⟨p, hp, hr⟩ := List.mem_flatMap.mp hr
    exact (hpiece p hp).normalized r hr

theorem Decomposes.foldl_minus (h : Decomposes P ps) (qs : List Cidr) :
    Decomposes (fun x => P x ∧ ¬Covered qs x) (qs.foldl (fun pieces q => pieces.flatMap (·.minus q)) ps) := by
  induction qs generalizing P ps with
  | nil => exact h.congr fun x => by simp [Covered]
  | cons q qs ih =>
    refine (ih (h.minus q)).congr fun x => ?_
    rw [covered_cons]
    tauto

/-! ## One decomposition for each property -/

theorem Decomposes.mem_iff (h : Decomposes P ps) (b : Cidr) : b ∈ ps ↔ b.normalized = b ∧ b.IsMaximal P := by
  refine ⟨fun hb => ⟨h.normalized b hb, h.maximal b hb⟩, fun ⟨hn, hmax⟩ => ?_⟩
  obtain ⟨r, hr, hmem⟩ := (h.covered b.address).mpr (hmax.inside _ b.address_mem)
  have hrP := h.maximal r hr
  have hnested : r.contains b = true ∧ b.contains r = true := by
    rcases contains_of_common hmem b.address_mem with hrb | hbr
    · exact ⟨hrb, hmax.contains r hrP.inside hrb⟩
    · exact ⟨hrP.contains b hmax.inside hbr, hbr⟩
  rw [← hn, ← normalized_eq_of_contains hnested.1 hnested.2, h.normalized r hr]
  exact hr

theorem Decomposes.eq (h : Decomposes P ps) (h' : Decomposes P qs) : ps = qs :=
  h.ascending.eq_of_mem_iff h'.ascending fun b => (h.mem_iff b).trans (h'.mem_iff b).symm

/-- The pieces depend on the addresses alone. -/
theorem carve_normalized_blocks {p q : Cidr} (hc : p.contains q = true) :
    p.normalized.carve q.normalized = p.carve q := by
  have hc' : p.normalized.contains q.normalized = true := (p.contains_normalized q).trans hc
  refine (carve_decomposes hc').eq ((carve_decomposes hc).congr fun x => ?_)
  rw [mem_normalized_iff, mem_normalized_iff]

/-- No block has just the addresses of two others. -/
theorem Decomposes.not_merged (h : Decomposes P ps) (hp : p ∈ ps) (hq : q ∈ ps) (hne : p ≠ q) (c : Cidr) :
    ¬∀ x, x ∈ c ↔ x ∈ p ∨ x ∈ q := by
  intro hc
  have hpP := h.maximal p hp
  have hqP := h.maximal q hq
  have hinside : ∀ x ∈ c, P x := fun x hx => ((hc x).mp hx).elim (hpP.inside x) (hqP.inside x)
  have hcp : c.contains p = true := (contains_iff_subset c p).mpr fun x hx => (hc x).mpr (.inl hx)
  have hcq : c.contains q = true := (contains_iff_subset c q).mpr fun x hx => (hc x).mpr (.inr hx)
  have hpq := contains_trans (hpP.contains c hinside hcp) hcq
  have hqp := contains_trans (hqP.contains c hinside hcq) hcp
  apply hne
  rw [← h.normalized p hp, normalized_eq_of_contains hpq hqp, h.normalized q hq]

/-! ## Many excludes -/

theorem minusAll_cons (p q : Cidr) (qs : List Cidr) :
    p.minusAll (q :: qs) = qs.foldl (fun pieces q => pieces.flatMap (·.minus q)) (p.minus q) := by
  rw [minusAll, List.foldl_cons, List.flatMap_singleton]

theorem minusAll_of_disjoint (h : ∀ x ∈ p, ¬Covered qs x) : p.minusAll qs = [p] := by
  induction qs with
  | nil => rfl
  | cons q qs ih =>
    simp only [covered_cons, not_or] at h
    rw [minusAll_cons, minus_of_disjoint fun x hx => (h x hx).1]
    exact ih fun x hx => (h x hx).2

theorem minusAll_decomposes (h : ∃ x ∈ p, Covered qs x) :
    Decomposes (fun x => x ∈ p ∧ ¬Covered qs x) (p.minusAll qs) := by
  induction qs with
  | nil =>
    obtain ⟨x, -, hx⟩ := h
    exact absurd hx (covered_nil x)
  | cons q qs ih =>
    rw [minusAll_cons]
    by_cases hq : ∃ x ∈ p, x ∈ q
    · refine ((minus_decomposes (.inr hq)).foldl_minus qs).congr fun x => ?_
      rw [covered_cons]
      tauto
    · -- The exclude leaves the block as it is, host bits included, and a later one meets it.
      have hapart : p.Disjoint q := fun x hxp hxq => hq ⟨x, hxp, hxq⟩
      have hlater : ∃ x ∈ p, Covered qs x := by
        obtain ⟨x, hxp, hx⟩ := h
        exact ⟨x, hxp, ((covered_cons q qs x).mp hx).resolve_left (hapart x hxp)⟩
      rw [minus_of_disjoint hapart]
      refine (ih hlater).congr fun x => ?_
      rw [covered_cons]
      have := hapart x
      tauto

theorem minusAll_eq_of_covered (h : ∀ x ∈ p, Covered qs x ↔ Covered ps x) : p.minusAll qs = p.minusAll ps := by
  by_cases hq : ∃ x ∈ p, Covered qs x
  · have hp : ∃ x ∈ p, Covered ps x := by
      obtain ⟨x, hx, hcov⟩ := hq
      exact ⟨x, hx, (h x hx).mp hcov⟩
    refine (minusAll_decomposes hq).eq ((minusAll_decomposes hp).congr fun x => ?_)
    exact and_congr_right fun hx => not_congr (h x hx).symm
  · have hapart : ∀ x ∈ p, ¬Covered qs x := fun x hx hcov => hq ⟨x, hx, hcov⟩
    rw [minusAll_of_disjoint hapart, minusAll_of_disjoint fun x hx => mt (h x hx).mpr (hapart x hx)]

end Cidr

namespace Tagged

def SameAddresses (as bs : List Tagged) : Prop := ∀ x, (∃ a ∈ as, x ∈ a.block) ↔ ∃ b ∈ bs, x ∈ b.block

/-- What a list of blocks is to be when it is what is left of a block that the excludes meet. -/
structure IsCanonical (a : Tagged) (excludes pieces : List Tagged) : Prop where
  ascending : pieces.Pairwise fun b c => Cidr.order b.block c.block = .lt
  mem_iff : ∀ b, b ∈ pieces ↔ b.token = a.token ∧ b.block.normalized = b.block ∧
    b.block.IsMaximal fun x => x ∈ a.block ∧ ∀ e ∈ excludes, x ∉ e.block
  not_merged : ∀ b ∈ pieces, ∀ c ∈ pieces, b ≠ c → ∀ d : Cidr, ¬∀ x, x ∈ d ↔ x ∈ b.block ∨ x ∈ c.block

variable {a : Tagged} {es es' : List Tagged}

theorem covered_blocks (es : List Tagged) (x : Address) :
    Cidr.Covered (es.map (·.block)) x ↔ ∃ e ∈ es, x ∈ e.block := Cidr.covered_map _ es x

theorem mem_without_singleton (b : Tagged) :
    b ∈ without [a] es ↔ b.token = a.token ∧ b.block ∈ a.block.minusAll (es.map (·.block)) := by
  obtain ⟨block, token⟩ := b
  rw [without_singleton, List.mem_map]
  constructor
  · rintro ⟨r, hr, heq⟩
    cases heq
    exact ⟨rfl, hr⟩
  · rintro ⟨rfl, hr⟩
    exact ⟨block, hr, rfl⟩

theorem without_singleton_of_disjoint (h : ∀ x ∈ a.block, ∀ e ∈ es, x ∉ e.block) : without [a] es = [a] := by
  rw [without_singleton, Cidr.minusAll_of_disjoint]
  · rfl
  · intro x hx hcov
    obtain ⟨e, he, hxe⟩ := (covered_blocks es x).mp hcov
    exact h x hx e he hxe

theorem without_singleton_isCanonical (h : ∃ x ∈ a.block, ∃ e ∈ es, x ∈ e.block) :
    IsCanonical a es (without [a] es) := by
  have hleft : ∀ x, (x ∈ a.block ∧ ¬Cidr.Covered (es.map (·.block)) x) ↔ x ∈ a.block ∧ ∀ e ∈ es, x ∉ e.block := by
    intro x
    rw [covered_blocks]
    simp
  have hpieces : Cidr.Decomposes (fun x => x ∈ a.block ∧ ∀ e ∈ es, x ∉ e.block)
      (a.block.minusAll (es.map (·.block))) := by
    refine (Cidr.minusAll_decomposes ?_).congr hleft
    obtain ⟨x, hx, he⟩ := h
    exact ⟨x, hx, (covered_blocks es x).mpr he⟩
  constructor
  · rw [without_singleton]
    exact List.pairwise_map.mpr (hpieces.ascending.imp Cidr.Below.order_eq)
  · intro b
    rw [mem_without_singleton, hpieces.mem_iff]
  · intro b hb c hc hne
    obtain ⟨htb, hb⟩ := mem_without_singleton b |>.mp hb
    obtain ⟨htc, hc⟩ := mem_without_singleton c |>.mp hc
    refine hpieces.not_merged hb hc fun heq => hne ?_
    obtain ⟨block, token⟩ := b
    obtain ⟨block', token'⟩ := c
    rw [mk.injEq]
    exact ⟨heq, htb.trans htc.symm⟩

theorem without_eq_of_sameAddresses (as : List Tagged) (h : SameAddresses es es') :
    without as es = without as es' := by
  have hcov : ∀ x, Cidr.Covered (es.map (·.block)) x ↔ Cidr.Covered (es'.map (·.block)) x := fun x => by
    rw [covered_blocks, covered_blocks, h x]
  unfold without
  congr
  funext a
  rw [Cidr.minusAll_eq_of_covered fun x _ => hcov x]

/-- Subtraction depends on the addresses that are excluded and not on the blocks that hold them. What it leaves of a
block that the excludes meet are the maximal blocks outside the excludes, in strictly ascending order, no two of which
make one block; any other block stays as it is. -/
theorem without_canonical (as es : List Tagged) :
    (∀ es', SameAddresses es es' → without as es = without as es') ∧
      without as es = as.flatMap (fun a => without [a] es) ∧
      ∀ a ∈ as, ((∃ x ∈ a.block, ∃ e ∈ es, x ∈ e.block) → IsCanonical a es (without [a] es)) ∧
        ((∀ x ∈ a.block, ∀ e ∈ es, x ∉ e.block) → without [a] es = [a]) :=
  ⟨fun _ => without_eq_of_sameAddresses as, without_eq_flatMap as es, fun _ _ =>
    ⟨without_singleton_isCanonical, without_singleton_of_disjoint⟩⟩

def labBlock : Tagged := { block := ⟨⟨.inet, 0xC000024D, by decide⟩, 24, by decide⟩, token := some "LAB" }

def labGuests : Cidr := ⟨⟨.inet, 0xC00002C8, by decide⟩, 25, by decide⟩

def labGuestQuarters : List Tagged :=
  [{ block := labGuests.upper (by decide) }, { block := labGuests.lower (by decide) }]

theorem labBlock_canonical :
    SameAddresses [{ block := labGuests }] labGuestQuarters ∧
      without [labBlock] [{ block := labGuests }] = without [labBlock] labGuestQuarters ∧
      IsCanonical labBlock [{ block := labGuests }]
        [{ block := ⟨⟨.inet, 0xC0000200, by decide⟩, 25, by decide⟩, token := some "LAB" }] := by
  have hsame : SameAddresses [{ block := labGuests }] labGuestQuarters := by
    intro x
    have hhalves := labGuests.mem_iff_halves (by decide) x
    simp only [labGuestQuarters, List.mem_cons, List.not_mem_nil, or_false, exists_eq_left, exists_eq_or_imp, hhalves]
    exact or_comm
  have hleft : without [labBlock] [{ block := labGuests }] =
      [{ block := ⟨⟨.inet, 0xC0000200, by decide⟩, 25, by decide⟩, token := some "LAB" }] := by decide +kernel
  obtain ⟨heq, -, hcanonical⟩ := without_canonical [labBlock] [{ block := labGuests }]
  have hmeets : ∃ x ∈ labBlock.block, ∃ e ∈ [({ block := labGuests } : Tagged)], x ∈ e.block :=
    ⟨labGuests.address, by decide, _, List.mem_singleton_self _, labGuests.address_mem⟩
  have hpieces := (hcanonical labBlock (List.mem_singleton_self _)).1 hmeets
  rw [hleft] at hpieces
  exact ⟨hsame, heq labGuestQuarters hsame, hpieces⟩

end Tagged

end AccessList
