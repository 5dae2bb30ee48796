import AccessList.Proofs.PortRange

/-!
# Collapsed port lists

Collapsing keeps the ports of a list and leaves a free port between any two of its ranges. A list of that form is told
by the ports that it covers, so there is one such list for every set of ports.
-/

namespace AccessList.PortRange

def Covers (rs : List PortRange) (p : Port) : Prop := ∃ r ∈ rs, p ∈ r

def Apart (r s : PortRange) : Prop := r.high.val + 1 < s.low.val

instance (r s : PortRange) : Decidable (Apart r s) := inferInstanceAs (Decidable (_ < _))

/-- Ranges with ports in them, ascending, any two of them apart. -/
structure Separated (rs : List PortRange) : Prop where
  ordered : ∀ r ∈ rs, r.low ≤ r.high
  apart : rs.Pairwise Apart

section
variable {r s : PortRange} {rs ss : List PortRange} {p : Port}

theorem not_covers_nil : ¬Covers [] p := nofun

theorem covers_cons : Covers (r :: rs) p ↔ p ∈ r ∨ Covers rs p := by simp [Covers]

theorem covers_append : Covers (rs ++ ss) p ↔ Covers rs p ∨ Covers ss p := by
  simp only [Covers, List.mem_append, or_and_right, exists_or]

theorem covers_perm (h : rs.Perm ss) : Covers rs p ↔ Covers ss p :=
  exists_congr fun _ => and_congr_left' h.mem_iff

/-! ## Merging -/

def Ascending (rs : List PortRange) : Prop := rs.Pairwise fun r s => r.low.val ≤ s.low.val

def join (r s : PortRange) : PortRange := ⟨r.low, if r.high ≤ s.high then s.high else r.high⟩

theorem merge_cons (r s : PortRange) (ss : List PortRange) :
    merge r (s :: ss) = if s.low.val ≤ r.high.val + 1 then merge (join r s) ss else r :: merge s ss := rfl

theorem high_join (r s : PortRange) : (join r s).high.val = max r.high.val s.high.val := by
  unfold join
  by_cases h : r.high ≤ s.high
  · rw [if_pos h, Nat.max_eq_right (Fin.le_def.mp h)]
  · rw [if_neg h, Nat.max_eq_left (Nat.le_of_not_le h)]

theorem mem_join_iff (hlow : r.low.val ≤ s.low.val) (hmeet : s.low.val ≤ r.high.val + 1) :
    p ∈ join r s ↔ p ∈ r ∨ p ∈ s := by
  have hhigh := high_join r s
  have hjoin : (join r s).low.val = r.low.val := rfl
  simp only [mem_iff]
  omega

theorem covers_merge (h : Ascending (r :: rs)) : Covers (merge r rs) p ↔ Covers (r :: rs) p := by
  induction rs generalizing r with
  | nil => rfl
  | cons s ss ih =>
    obtain ⟨hr, hs⟩ := List.pairwise_cons.mp h
    obtain ⟨hrs, hrss⟩ := List.forall_mem_cons.mp hr
    rw [merge_cons]
    by_cases hmeet : s.low.val ≤ r.high.val + 1
    · have hjoin : Ascending (join r s :: ss) := List.pairwise_cons.mpr ⟨hrss, hs.of_cons⟩
      rw [if_pos hmeet, ih hjoin, covers_cons, covers_cons, covers_cons, mem_join_iff hrs hmeet, or_assoc]
    · rw [if_neg hmeet, covers_cons, ih hs, ← covers_cons]

/-- Merged ranges start no earlier than the first of them. -/
theorem low_le_of_mem_merge (h : Ascending (r :: rs)) : ∀ s ∈ merge r rs, r.low.val ≤ s.low.val := by
  induction rs generalizing r with
  | nil =>
    intro s hs
    cases List.mem_singleton.mp hs
    exact Nat.le_refl _
  | cons s ss ih =>
    obtain ⟨hr, hs⟩ := List.pairwise_cons.mp h
    obtain ⟨hrs, hrss⟩ := List.forall_mem_cons.mp hr
    rw [merge_cons]
    by_cases hmeet : s.low.val ≤ r.high.val + 1
    · rw [if_pos hmeet]
      exact @ih (join r s) (List.pairwise_cons.mpr ⟨hrss, hs.of_cons⟩)
    · rw [if_neg hmeet]
      exact List.forall_mem_cons.mpr ⟨Nat.le_refl _, fun s' hs' => Nat.le_trans hrs (ih hs s' hs')⟩

theorem merge_apart (h : Ascending (r :: rs)) : (merge r rs).Pairwise Apart := by
  induction rs generalizing r with
  | nil => exact List.pairwise_singleton _ r
  | cons s ss ih =>
    obtain ⟨hr, hs⟩ := List.pairwise_cons.mp h
    obtain ⟨-, hrss⟩ := List.forall_mem_cons.mp hr
    rw [merge_cons]
    by_cases hmeet : s.low.val ≤ r.high.val + 1
    · rw [if_pos hmeet]
      exact ih (List.pairwise_cons.mpr ⟨hrss, hs.of_cons⟩)
    · rw [if_neg hmeet]
      refine List.pairwise_cons.mpr ⟨fun s' hs' => ?_, ih hs⟩
      exact Nat.lt_of_lt_of_le (Nat.lt_of_not_le hmeet) (low_le_of_mem_merge hs s' hs')

/-! ## Collapsing -/

theorem le_iff : le r s = true ↔ r.low.val < s.low.val ∨ r.low.val = s.low.val ∧ r.high.val ≤ s.high.val := by
  simp only [le, Bool.or_eq_true, Bool.and_eq_true, decide_eq_true_eq, beq_iff_eq, Fin.ext_iff]
  exact Iff.rfl

theorem ascending_mergeSort (rs : List PortRange) : Ascending (rs.mergeSort le) := by
  have htrans : ∀ a b c : PortRange, le a b = true → le b c = true → le a c = true := by
    intro a b c
    simp only [le_iff]
    omega
  have htotal : ∀ a b : PortRange, (le a b || le b a) = true := by
    intro a b
    simp only [Bool.or_eq_true, le_iff]
    omega
  refine (List.pairwise_mergeSort htrans htotal rs).imp fun hle => ?_
  rw [le_iff] at hle
  omega

theorem covers_collapse (rs : List PortRange) (p : Port) : Covers (collapse rs) p ↔ Covers rs p := by
  have hsort := ascending_mergeSort rs
  rw [← covers_perm (List.mergeSort_perm rs le)]
  unfold collapse
  cases hs : rs.mergeSort le with
  | nil => rfl
  | cons s ss =>
    rw [hs] at hsort
    exact covers_merge hsort

theorem collapse_separated (h : ∀ r ∈ rs, r.low ≤ r.high) : Separated (collapse rs) := by
  refine ⟨collapse_ordered h, ?_⟩
  have hsort := ascending_mergeSort rs
  unfold collapse
  cases hs : rs.mergeSort le with
  | nil => exact .nil
  | cons s ss =>
    rw [hs] at hsort
    exact merge_apart hsort

/-! ## One list for every set of ports -/

theorem Separated.tail (h : Separated (r :: rs)) : Separated rs :=
  ⟨fun s hs => h.ordered s (List.mem_cons_of_mem _ hs), h.apart.of_cons⟩

/-- The ports of the ranges behind the first one are behind a free port. -/
theorem Separated.lt_of_covers (h : Separated (r :: rs)) (hp : Covers rs p) : r.high.val + 1 < p.val := by
  obtain ⟨s, hs, hp⟩ := hp
  exact Nat.lt_of_lt_of_le (List.rel_of_pairwise_cons h.apart hs) ((mem_iff p s).mp hp).1

theorem Separated.low_mem (h : Separated (r :: rs)) : r.low ∈ r :=
  (mem_iff _ r).mpr ⟨Nat.le_refl _, h.ordered r (List.mem_cons_self ..)⟩

theorem Separated.low_le_of_covers (h : Separated (r :: rs)) (hp : Covers (r :: rs) p) : r.low.val ≤ p.val := by
  rcases covers_cons.mp hp with hp | hp
  · exact ((mem_iff p r).mp hp).1
  · have hlow := ((mem_iff _ r).mp h.low_mem).2
    have hlt := h.lt_of_covers hp
    omega

/-- Of two lists with the same ports, neither has a first range that ends later. -/
theorem Separated.high_le (hr : Separated (r :: rs)) (hlow : r.low.val = s.low.val)
    (h : ∀ p, Covers (s :: ss) p → Covers (r :: rs) p) : s.high.val ≤ r.high.val := by
  apply Nat.le_of_not_lt; intro hlt
  have hbehind : r.high.val + 1 < 65536 := by omega
  have hmem : (⟨r.high.val + 1, hbehind⟩ : Port) ∈ s := by
    have hends := ((mem_iff _ r).mp hr.low_mem).2
    rw [mem_iff]
    dsimp only
    omega
  -- The port behind `r` is free in the one list and not in the other.
  rcases covers_cons.mp (h _ (covers_cons.mpr (.inl hmem))) with hp | hp
  · have hle := ((mem_iff _ r).mp hp).2
    dsimp only at hle
    omega
  · exact absurd (hr.lt_of_covers hp) (Nat.lt_irrefl _)

theorem Separated.ext (hr : Separated rs) (hs : Separated ss) (h : ∀ p, Covers rs p ↔ Covers ss p) : rs = ss := by
  induction rs generalizing ss with
  | nil =>
    cases ss with
    | nil => rfl
    | cons s ss => exact absurd ((h _).mpr (covers_cons.mpr (.inl hs.low_mem))) not_covers_nil
  | cons r rs ih =>
    cases ss with
    | nil => exact absurd ((h _).mp (covers_cons.mpr (.inl hr.low_mem))) not_covers_nil
    | cons s ss =>
      have hlow : r.low.val = s.low.val := by
        apply Nat.le_antisymm
        · exact hr.low_le_of_covers ((h _).mpr (covers_cons.mpr (.inl hs.low_mem)))
        · exact hs.low_le_of_covers ((h _).mp (covers_cons.mpr (.inl hr.low_mem)))
      have hhigh : r.high.val = s.high.val := by
        apply Nat.le_antisymm
        · exact hs.high_le hlow.symm fun p => (h p).mp
        · exact hr.high_le hlow fun p => (h p).mpr
      have hfirst : r = s := by
        obtain ⟨low, high⟩ := r
        obtain ⟨low', high'⟩ := s
        rw [mk.injEq]
        exact ⟨Fin.ext hlow, Fin.ext hhigh⟩
      subst hfirst
      congr 1
      refine ih hr.tail hs.tail fun p => ?_
      -- A port behind the first range is not in it.
      have hout : ∀ {ts}, Separated (r :: ts) → Covers ts p → p ∉ r := by
        intro ts hts hp hmem
        have hlt := hts.lt_of_covers hp
        have hle := ((mem_iff p r).mp hmem).2
        omega
      constructor
      · intro hp
        exact (covers_cons.mp ((h p).mp (covers_cons.mpr (.inr hp)))).resolve_left (hout hr hp)
      · intro hp
        exact (covers_cons.mp ((h p).mpr (covers_cons.mpr (.inr hp)))).resolve_left (hout hs hp)

/-- Collapsing brings any list of these ports to the one separated list of them. -/
theorem Separated.eq_collapse (hs : Separated ss) (hr : ∀ r ∈ rs, r.low ≤ r.high)
    (h : ∀ p, Covers rs p ↔ Covers ss p) : collapse rs = ss :=
  (collapse_separated hr).ext hs fun p => (covers_collapse rs p).trans (h p)

/-- Collapsing keeps the ports and leaves the separated list of them. So lists collapse to the same list just when they
cover the same ports, and a collapsed list stays as it is. -/
theorem collapse_canonical (h : ∀ r ∈ rs, r.low ≤ r.high) :
    (∀ p, Covers (collapse rs) p ↔ Covers rs p) ∧ Separated (collapse rs) ∧
      (∀ ss, (∀ s ∈ ss, s.low ≤ s.high) → (collapse rs = collapse ss ↔ ∀ p, Covers rs p ↔ Covers ss p)) ∧
      collapse (collapse rs) = collapse rs := by
  have hseparated := collapse_separated h
  refine ⟨covers_collapse rs, hseparated, fun ss hss => ⟨fun heq p => ?_, fun hcovers => ?_⟩, ?_⟩
  · rw [← covers_collapse rs, heq, covers_collapse]
  · refine (collapse_separated hss).eq_collapse h fun p => ?_
    rw [hcovers p, covers_collapse]
  · exact hseparated.eq_collapse hseparated.ordered fun _ => Iff.rfl

/-- A range inside another, one that touches it, one that leaves a single port free, and the last ports twice. -/
def scatteredPorts : List PortRange :=
  [.single ephemeral.high, ⟨⟨33, by decide⟩, ⟨40, by decide⟩⟩, ⟨⟨20, by decide⟩, ⟨30, by decide⟩⟩,
    ⟨⟨65000, by decide⟩, ephemeral.high⟩, ⟨⟨24, by decide⟩, ⟨25, by decide⟩⟩, .single ⟨31, by decide⟩]

theorem scatteredPorts_canonical :
    (∀ r ∈ scatteredPorts, r.low ≤ r.high) ∧
      collapse scatteredPorts = [⟨20, 31⟩, ⟨33, 40⟩, ⟨65000, 65535⟩] ∧
      collapse (collapse scatteredPorts) = collapse scatteredPorts := by
  have hordered : ∀ r ∈ scatteredPorts, r.low ≤ r.high := by decide
  have hcollapsed : Separated [⟨20, 31⟩, ⟨33, 40⟩, ⟨65000, 65535⟩] := ⟨by decide, by decide⟩
  obtain ⟨-, -, -, hagain⟩ := collapse_canonical hordered
  refine ⟨hordered, hcollapsed.eq_collapse hordered fun p => ?_, hagain⟩
  simp only [scatteredPorts, single, ephemeral, covers_cons, not_covers_nil, mem_iff, or_false]
  omega

end

end AccessList.PortRange
