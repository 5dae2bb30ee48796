import AccessList.Proofs.Net.WordArithmetic

/-!
# Subtraction leaves the fewest blocks

Halving a block down to one inside it puts a block of each length in between aside. The blocks put aside are the
largest ones outside the target, and no two of the largest blocks fit in one: so every list of blocks of these
addresses is as long at least.
-/

namespace AccessList.Cidr

variable {P : Address → Prop} {ps rs : List Cidr}

/-- The largest blocks are the fewest. -/
theorem Decomposes.length_le (h : Decomposes P ps) (hrs : ∀ x, Covered rs x ↔ P x) : ps.length ≤ rs.length := by
  -- A block that meets a largest one is inside it. So each of the largest ones has a block of its own.
  have hinside : ∀ p ∈ ps, ∃ r ∈ rs, p.contains r = true := by
    intro p hp
    have hmax := h.maximal p hp
    obtain ⟨r, hr, hmem⟩ := (hrs p.address).mpr (hmax.inside _ p.address_mem)
    refine ⟨r, hr, ?_⟩
    cases contains_of_common p.address_mem hmem with
    | inl hpr => exact hpr
    | inr hrp =>
      apply hmax.contains r _ hrp
      intro x hx
      exact (hrs x).mp ⟨r, hr, hx⟩
  choose! own hown hcontains using hinside
  have hne : ps.Pairwise fun p p' => own p ≠ own p' := by
    apply h.ascending.imp_of_mem
    intro p p' hp hp' hbelow heq
    have hmem : (own p).address ∈ p := mem_of_contains (hcontains p hp) (address_mem _)
    have hmem' : (own p).address ∈ p' := mem_of_contains (hcontains p' hp') (heq ▸ address_mem _)
    exact Nat.lt_irrefl _ (hbelow _ hmem _ hmem').2
  have hnodup : (ps.map own).Nodup := List.pairwise_map.mpr hne
  have hsubset : ps.map own ⊆ rs := by
    intro r hr
    obtain ⟨p, hp, rfl⟩ := List.mem_map.mp hr
    exact hown p hp
  have hlength := hnodup.length_le_of_subset hsubset
  rwa [List.length_map] at hlength

/-- Blocks without host bits, one of each length from that of `p` to that of `q`, in ascending order: the fewest
that hold just the addresses of `p` outside `q`. -/
structure IsFewest (p q : Cidr) (pieces : List Cidr) : Prop where
  lengths : (pieces.map length).Perm (List.range' (p.length + 1) (q.length - p.length))
  normalized : ∀ r ∈ pieces, r.normalized = r
  ascending : pieces.Pairwise Below
  covered : ∀ x, Covered pieces x ↔ x ∈ p ∧ x ∉ q
  length_le : ∀ rs, (∀ x, Covered rs x ↔ x ∈ p ∧ x ∉ q) → pieces.length ≤ rs.length

section
variable {p q : Cidr} (hc : p.contains q = true)
include hc

theorem exists_putsAside : ∃ ps : List Cidr, ps.Perm (p.carve q) ∧ PutsAside p.normalized q.normalized ps := by
  have hnormalized : p.normalized.contains q.normalized = true := (p.contains_normalized q).trans hc
  obtain ⟨ps, hperm, haside⟩ := putsAside_carve hnormalized p.normalized_normalized q.normalized_normalized
  rw [carve_normalized_blocks hc] at hperm
  exact ⟨ps, hperm, haside⟩

theorem lengths_carve : ((p.carve q).map length).Perm (List.range' (p.length + 1) (q.length - p.length)) := by
  obtain ⟨ps, hperm, haside⟩ := exists_putsAside hc
  have hlengths : ps.map length = List.range' (p.length + 1) (q.length - p.length) := haside.lengths
  rw [← hlengths]
  exact (hperm.map length).symm

theorem isFewest_carve : IsFewest p q (p.carve q) := by
  have h := carve_decomposes hc
  exact ⟨lengths_carve hc, h.normalized, h.ascending, h.covered, fun rs => h.length_le⟩

/-- The loop of a subtraction ends with the excluded block, its host bits cleared, after as many rounds as that block
is longer, and in no other way. The halves put aside, sorted, are what is left: one of each length in between, and no
other blocks are fewer. -/
theorem minus_fewest :
    (∃ aside, (∀ n s, Halving.Ends q.normalized.words ⟨p.normalized.words, []⟩ n s ↔
        n = q.length - p.length ∧ s = ⟨q.normalized.words, aside⟩) ∧
      WordBlock.sort aside = (p.minus q).map words) ∧
    IsFewest p q (p.minus q) := by
  obtain ⟨ps, hperm, haside⟩ := exists_putsAside hc
  have hends := haside.ends []
  have hsort : sort ps = p.carve q := sort_eq hperm (carve_below hc)
  have hminus : p.minus q = p.carve q := if_pos hc
  rw [hminus]
  refine ⟨⟨ps.map words, fun n s => ⟨fun h => hends.unique h, ?_⟩, ?_⟩, isFewest_carve hc⟩
  · rintro ⟨rfl, rfl⟩
    exact hends
  · rw [sort_map_words, hsort]

end

def labDesk : Cidr := ⟨⟨.inet, 0xC0000246, by decide⟩, 27, by decide⟩

theorem labDesk_fewest :
    Tagged.labBlock.block.contains labDesk = true ∧
      (∃ aside, Halving.Ends labDesk.normalized.words ⟨Tagged.labBlock.block.normalized.words, []⟩ 3
        ⟨labDesk.normalized.words, aside⟩) ∧
      IsFewest Tagged.labBlock.block labDesk
        [⟨⟨.inet, 0xC0000200, by decide⟩, 26, by decide⟩, ⟨⟨.inet, 0xC0000260, by decide⟩, 27, by decide⟩,
          ⟨⟨.inet, 0xC0000280, by decide⟩, 25, by decide⟩] := by
  have hc : Tagged.labBlock.block.contains labDesk = true := by decide
  have hleft : Tagged.labBlock.block.minus labDesk =
      [⟨⟨.inet, 0xC0000200, by decide⟩, 26, by decide⟩, ⟨⟨.inet, 0xC0000260, by decide⟩, 27, by decide⟩,
        ⟨⟨.inet, 0xC0000280, by decide⟩, 25, by decide⟩] := by decide +kernel
  obtain ⟨⟨aside, hends, -⟩, hfewest⟩ := minus_fewest hc
  rw [hleft] at hfewest
  exact ⟨hc, ⟨aside, (hends 3 _).mpr ⟨rfl, rfl⟩⟩, hfewest⟩

end AccessList.Cidr
