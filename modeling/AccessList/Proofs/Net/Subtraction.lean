import AccessList.Net.Tagged
import AccessList.Proofs.Net.Membership

/-!
# Subtraction is exact

Carving a block keeps the addresses outside the excluded block, each in one piece. The same then holds of any
number of excludes, one after another, and of lists of blocks that carry a name.
-/

namespace AccessList

namespace Cidr

def Covered (ps : List Cidr) (x : Address) : Prop := ∃ p ∈ ps, x ∈ p

theorem covered_nil (x : Address) : ¬Covered [] x := fun ⟨_, hp, _⟩ => nomatch hp

theorem covered_singleton (p : Cidr) (x : Address) : Covered [p] x ↔ x ∈ p := by
  simp [Covered]

theorem covered_cons (p : Cidr) (ps : List Cidr) (x : Address) : Covered (p :: ps) x ↔ x ∈ p ∨ Covered ps x := by
  simp [Covered]

theorem covered_append (ps qs : List Cidr) (x : Address) : Covered (ps ++ qs) x ↔ Covered ps x ∨ Covered qs x := by
  simp [Covered, or_and_right, exists_or]

theorem covered_map {α : Type} (f : α → Cidr) (l : List α) (x : Address) :
    Covered (l.map f) x ↔ ∃ a ∈ l, x ∈ f a := by
  constructor
  · rintro ⟨p, hp, hx⟩
    obtain ⟨a, ha, rfl⟩ := List.mem_map.mp hp
    exact ⟨a, ha, hx⟩
  · rintro ⟨a, ha, hx⟩
    exact ⟨f a, List.mem_map_of_mem ha, hx⟩

/-! ## One block from one block -/

theorem upper_contains {p q : Cidr} (hc : p.contains q = true) (hl : p.length < q.length)
    (hw : p.length < p.family.width) (hn : ¬(p.lower hw).contains q = true) : (p.upper hw).contains q = true := by
  obtain ⟨-, hq⟩ := (contains_iff p q).mp hc
  rw [contains_iff] at hn ⊢
  rcases (mem_iff_halves p hw q.address).mp hq with hlo | hup
  · exact absurd ⟨hl, hlo⟩ hn
  · exact ⟨hl, hup⟩

/-- A block that is as long as one inside it is that block. -/
theorem mem_of_contains_of_length {p q : Cidr} (hc : p.contains q = true) (hl : ¬p.length < q.length) {x : Address}
    (hx : x ∈ p) : x ∈ q := by
  obtain ⟨hle, hq⟩ := (contains_iff p q).mp hc
  have hf : p.family = q.family := hq.1.symm
  have hcount := count_mul hf hle
  rw [Nat.sub_eq_zero_of_le (Nat.le_of_not_lt hl), Nat.pow_zero, Nat.mul_one] at hcount
  refine ⟨hx.1.trans hf, ?_⟩
  rw [hcount, hx.2, ← hq.2]

theorem length_lt_width {p q : Cidr} (hc : p.contains q = true) (hl : p.length < q.length) :
    p.length < p.family.width := by
  have hf : q.family = p.family := ((contains_iff p q).mp hc).2.1
  exact Nat.lt_of_lt_of_le hl (hf ▸ q.length_le)

theorem covered_carve {p q : Cidr} (hc : p.contains q = true) (x : Address) :
    Covered (p.carve q) x ↔ x ∈ p ∧ x ∉ q := by
  fun_induction carve p q with
  | case1 p h hlo ih =>
    have hsub : x ∈ q → x ∈ p.lower h.2 := mem_of_contains hlo
    have hapart := halves_disjoint p h.2 x
    rw [covered_append, ih hlo, covered_singleton, mem_iff_halves p h.2]
    grind
  | case2 p h hlo ih =>
    have hup := upper_contains hc h.1 h.2 hlo
    have hsub : x ∈ q → x ∈ p.upper h.2 := mem_of_contains hup
    have hapart := halves_disjoint p h.2 x
    rw [covered_cons, ih hup, mem_iff_halves p h.2]
    grind
  | case3 p h =>
    have hl : ¬p.length < q.length := fun hl => h ⟨hl, length_lt_width hc hl⟩
    exact ⟨fun hx => absurd hx (covered_nil x), fun hx => absurd (mem_of_contains_of_length hc hl hx.1) hx.2⟩

theorem subset_of_mem_carve {p q r : Cidr} (hc : p.contains q = true) (hr : r ∈ p.carve q) {x : Address}
    (hx : x ∈ r) : x ∈ p :=
  ((covered_carve hc x).mp ⟨r, hr, hx⟩).1

theorem carve_disjoint {p q : Cidr} (hc : p.contains q = true) : (p.carve q).Pairwise Disjoint := by
  fun_induction carve p q with
  | case1 p h hlo ih =>
    rw [List.pairwise_append]
    refine ⟨ih hlo, List.pairwise_singleton .., ?_⟩
    intro r hr u hu x hx
    rw [List.mem_singleton.mp hu]
    exact halves_disjoint p h.2 x (subset_of_mem_carve hlo hr hx)
  | case2 p h hlo ih =>
    have hup := upper_contains hc h.1 h.2 hlo
    refine List.pairwise_cons.mpr ⟨?_, ih hup⟩
    intro r hr x hx hxr
    exact halves_disjoint p h.2 x hx (subset_of_mem_carve hup hr hxr)
  | case3 p h => exact .nil

theorem covered_minus (p q : Cidr) (x : Address) : Covered (p.minus q) x ↔ x ∈ p ∧ x ∉ q := by
  unfold minus
  split
  · rename_i hpq; exact covered_carve hpq x
  · split
    · rename_i hqp
      exact ⟨fun hx => absurd hx (covered_nil x), fun hx => absurd (mem_of_contains hqp hx.1) hx.2⟩
    · rename_i hpq hqp
      rw [covered_singleton]
      exact ⟨fun hx => ⟨hx, disjoint_of_not_contains hpq hqp x hx⟩, fun hx => hx.1⟩

theorem minus_disjoint (p q : Cidr) : (p.minus q).Pairwise Disjoint := by
  unfold minus
  split
  · rename_i hpq; exact carve_disjoint hpq
  · split
    · exact .nil
    · exact List.pairwise_singleton ..

/-- A block that the exclude does not meet stays as it is, with its host bits. -/
theorem minus_of_disjoint {p q : Cidr} (h : p.Disjoint q) : p.minus q = [p] := by
  have hpq : ¬p.contains q = true := fun hc => h _ (mem_of_contains hc q.address_mem) q.address_mem
  have hqp : ¬q.contains p = true := fun hc => h _ p.address_mem (mem_of_contains hc p.address_mem)
  rw [minus, if_neg hpq, if_neg hqp]

theorem minus_of_family {p q : Cidr} (hf : p.family ≠ q.family) : p.minus q = [p] :=
  minus_of_disjoint fun _ hp hq => hf (hp.1.symm.trans hq.1)

/-! ## One block from many -/

theorem covered_flatMap_minus (ps : List Cidr) (q : Cidr) (x : Address) :
    Covered (ps.flatMap (·.minus q)) x ↔ Covered ps x ∧ x ∉ q := by
  induction ps with
  | nil => simp [Covered]
  | cons p ps ih =>
    rw [List.flatMap_cons, covered_append, covered_cons, covered_minus, ih]
    grind

theorem flatMap_minus_disjoint {ps : List Cidr} (q : Cidr) (h : ps.Pairwise Disjoint) :
    (ps.flatMap (·.minus q)).Pairwise Disjoint := by
  rw [List.pairwise_flatMap]
  refine ⟨fun p _ => minus_disjoint p q, h.imp ?_⟩
  -- Pieces of disjoint blocks are disjoint since each is inside its block.
  intro p p' hpp r hr r' hr' x hx hx'
  have hp := (covered_minus p q x).mp ⟨r, hr, hx⟩
  have hp' := (covered_minus p' q x).mp ⟨r', hr', hx'⟩
  exact hpp x hp.1 hp'.1

/-- What the pieces keep while excludes are taken away one by one. -/
theorem foldl_minus (qs ps : List Cidr) (h : ps.Pairwise Disjoint) :
    let rest := qs.foldl (fun pieces q => pieces.flatMap (·.minus q)) ps
    rest.Pairwise Disjoint ∧ ∀ x, Covered rest x ↔ Covered ps x ∧ ¬Covered qs x := by
  induction qs generalizing ps with
  | nil => exact ⟨h, fun x => by simp [Covered]⟩
  | cons q qs ih =>
    obtain ⟨hd, hx⟩ := ih _ (flatMap_minus_disjoint q h)
    refine ⟨hd, fun x => (hx x).trans ?_⟩
    rw [covered_flatMap_minus, covered_cons]
    grind

theorem minusAll_disjoint (p : Cidr) (qs : List Cidr) : (p.minusAll qs).Pairwise Disjoint :=
  (foldl_minus qs [p] (List.pairwise_singleton ..)).1

theorem covered_minusAll (p : Cidr) (qs : List Cidr) (x : Address) :
    Covered (p.minusAll qs) x ↔ x ∈ p ∧ ¬Covered qs x := by
  have := (foldl_minus qs [p] (List.pairwise_singleton ..)).2 x
  rwa [covered_singleton] at this

theorem family_of_mem_minusAll {p r : Cidr} {qs : List Cidr} (hr : r ∈ p.minusAll qs) : r.family = p.family :=
  ((covered_minusAll p qs r.address).mp ⟨r, hr, address_mem r⟩).1.1

theorem flatMap_minus_of_family {ps : List Cidr} {q : Cidr} (h : ∀ p ∈ ps, p.family ≠ q.family) :
    ps.flatMap (·.minus q) = ps := by
  induction ps with
  | nil => rfl
  | cons p ps ih =>
    rw [List.flatMap_cons, minus_of_family (h p (List.mem_cons_self ..)),
      ih fun p' hp' => h p' (List.mem_cons_of_mem _ hp')]
    rfl

theorem foldl_minus_filter (family : Family) (qs ps : List Cidr) (h : ∀ p ∈ ps, p.family = family) :
    (qs.filter (·.family == family)).foldl (fun pieces q => pieces.flatMap (·.minus q)) ps =
      qs.foldl (fun pieces q => pieces.flatMap (·.minus q)) ps := by
  induction qs generalizing ps with
  | nil => rfl
  | cons q qs ih =>
    rw [List.filter_cons, List.foldl_cons]
    by_cases hq : q.family = family
    · simp only [hq, beq_self_eq_true, ite_true, List.foldl_cons]
      refine ih _ fun r hr => ?_
      obtain ⟨p, hp, hr⟩ := List.mem_flatMap.mp hr
      have hrp := (covered_minus p q r.address).mp ⟨r, hr, address_mem r⟩
      exact hrp.1.1.trans (h p hp)
    · rw [if_neg (by simpa using hq), flatMap_minus_of_family fun p hp e => hq (e.symm.trans (h p hp))]
      exact ih ps h

end Cidr

namespace Tagged

/-- What a list of blocks is to be when it is what is left of `a` after the excludes. -/
structure IsRemainder (a : Tagged) (excludes pieces : List Tagged) : Prop where
  mem_iff : ∀ x, (∃ b ∈ pieces, x ∈ b.block) ↔ x ∈ a.block ∧ ∀ e ∈ excludes, x ∉ e.block
  disjoint : pieces.Pairwise fun b c => b.block.Disjoint c.block
  family : ∀ b ∈ pieces, b.family = a.family
  token : ∀ b ∈ pieces, b.token = a.token

theorem without_singleton (a : Tagged) (excludes : List Tagged) :
    without [a] excludes =
      (a.block.minusAll (excludes.map (·.block))).map ({ block := ·, token := a.token }) := by
  simp [without]

theorem without_eq_flatMap (as excludes : List Tagged) :
    without as excludes = as.flatMap fun a => without [a] excludes := by
  simp only [without_singleton]
  rfl

theorem without_singleton_isRemainder (a : Tagged) (excludes : List Tagged) :
    IsRemainder a excludes (without [a] excludes) := by
  rw [without_singleton]
  constructor
  · intro x
    have hcov := Cidr.covered_minusAll a.block (excludes.map (·.block)) x
    rw [Cidr.covered_map] at hcov
    generalize a.block.minusAll (excludes.map (·.block)) = ps at hcov ⊢
    have hblocks := Cidr.covered_map block (ps.map ({ block := ·, token := a.token })) x
    rw [List.map_map, show block ∘ ({ block := ·, token := a.token }) = id from rfl, List.map_id] at hblocks
    refine hblocks.symm.trans (hcov.trans ?_)
    simp
  · exact List.pairwise_map.mpr (Cidr.minusAll_disjoint ..)
  · intro b hb
    obtain ⟨r, hr, rfl⟩ := List.mem_map.mp hb
    exact Cidr.family_of_mem_minusAll hr
  · intro b hb
    obtain ⟨r, -, rfl⟩ := List.mem_map.mp hb
    rfl

theorem without_singleton_ofFamily (a : Tagged) (excludes : List Tagged) :
    without [a] (ofFamily a.family excludes) = without [a] excludes := by
  have hmap : (ofFamily a.family excludes).map (·.block) =
      (excludes.map (·.block)).filter (·.family == a.block.family) := by
    rw [List.filter_map]; rfl
  rw [without_singleton, without_singleton, hmap]
  unfold Cidr.minusAll
  rw [Cidr.foldl_minus_filter a.block.family _ [a.block] (by simp)]

theorem IsRemainder.eq_nil_iff {a : Tagged} {excludes pieces : List Tagged} (h : IsRemainder a excludes pieces) :
    pieces = [] ↔ ∀ x ∈ a.block, ∃ e ∈ excludes, x ∈ e.block := by
  constructor
  · rintro rfl x hx
    refine Classical.byContradiction fun hn => ?_
    obtain ⟨b, hb, -⟩ := (h.mem_iff x).mpr ⟨hx, fun e he hxe => hn ⟨e, he, hxe⟩⟩
    cases hb
  · intro hall
    cases pieces with
    | nil => rfl
    | cons b bs =>
      obtain ⟨hx, hn⟩ := (h.mem_iff b.block.address).mp ⟨b, List.mem_cons_self .., b.block.address_mem⟩
      obtain ⟨e, he, hxe⟩ := hall _ hx
      exact absurd hxe (hn e he)

theorem covered_without (as excludes : List Tagged) (x : Address) :
    (∃ b ∈ without as excludes, x ∈ b.block) ↔ (∃ a ∈ as, x ∈ a.block) ∧ ∀ e ∈ excludes, x ∉ e.block := by
  rw [without_eq_flatMap]
  constructor
  · rintro ⟨b, hb, hx⟩
    obtain ⟨a, ha, hb⟩ := List.mem_flatMap.mp hb
    obtain ⟨hxa, hxe⟩ := ((without_singleton_isRemainder a excludes).mem_iff x).mp ⟨b, hb, hx⟩
    exact ⟨⟨a, ha, hxa⟩, hxe⟩
  · rintro ⟨⟨a, ha, hxa⟩, hxe⟩
    obtain ⟨b, hb, hx⟩ := ((without_singleton_isRemainder a excludes).mem_iff x).mpr ⟨hxa, hxe⟩
    exact ⟨b, List.mem_flatMap.mpr ⟨a, ha, hb⟩, hx⟩

theorem mem_ofFamily {family : Family} {as : List Tagged} {a : Tagged} :
    a ∈ ofFamily family as ↔ a ∈ as ∧ a.family = family := by
  simp [ofFamily]

/-- Subtraction takes each block by itself, in order, and leaves exactly its addresses outside the excludes, under
its name. Excludes of the other family do not count, and nothing is left of just the blocks that are covered. -/
theorem without_exact (as excludes : List Tagged) :
    without as excludes = as.flatMap (fun a => without [a] excludes) ∧
      ∀ a, IsRemainder a excludes (without [a] excludes) ∧
        without [a] (ofFamily a.family excludes) = without [a] excludes ∧
        (without [a] excludes = [] ↔ ∀ x ∈ a.block, ∃ e ∈ excludes, x ∈ e.block) :=
  ⟨without_eq_flatMap as excludes, fun a =>
    have h := without_singleton_isRemainder a excludes
    ⟨h, without_singleton_ofFamily a excludes, h.eq_nil_iff⟩⟩

end Tagged

end AccessList
