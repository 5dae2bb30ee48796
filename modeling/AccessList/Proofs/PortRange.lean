import AccessList.PortRange
import Mathlib.Data.List.Basic

/-!
# The ports and the text of ranges

Writing a range of two ports as two single ports keeps the ports that a list covers. Neither that nor merging makes a
range end before it starts. The text of a range tells it from all others.
-/

namespace AccessList.PortRange

theorem mem_iff (p : Port) (r : PortRange) : p ∈ r ↔ r.low.val ≤ p.val ∧ p.val ≤ r.high.val := Iff.rfl

theorem mem_single_iff (p q : Port) : p ∈ single q ↔ p = q := by
  rw [mem_iff, Fin.ext_iff]
  simp only [single]
  omega

theorem mem_pair_iff {r : PortRange} (h : r.low.val + 1 = r.high.val) (p : Port) :
    p ∈ r ↔ p ∈ single r.low ∨ p ∈ single r.high := by
  rw [mem_iff, mem_single_iff, mem_single_iff, Fin.ext_iff, Fin.ext_iff]
  omega

theorem mem_splitPairs_iff (rs : List PortRange) (p : Port) :
    (∃ r ∈ splitPairs rs, p ∈ r) ↔ ∃ r ∈ rs, p ∈ r := by
  unfold splitPairs
  induction rs with
  | nil => simp
  | cons r rs ih =>
    simp only [List.flatMap_cons, List.mem_append, or_and_right, exists_or, ih, List.mem_cons, exists_eq_left]
    refine or_congr_left ?_
    split
    · rename_i h
      rw [mem_pair_iff h]
      simp [or_and_right, exists_or]
    · simp

/-! ## Ends in order -/

theorem splitPairs_ordered {rs : List PortRange} (h : ∀ r ∈ rs, r.low ≤ r.high) : ∀ r ∈ splitPairs rs, r.low ≤ r.high := by
  intro r hr
  obtain ⟨r', hr', hr⟩ := List.mem_flatMap.mp hr
  by_cases hpair : r'.low.val + 1 = r'.high.val
  · rw [if_pos hpair] at hr
    simp only [List.mem_cons, List.not_mem_nil, or_false] at hr
    rcases hr with rfl | rfl
    · exact Fin.le_refl _
    · exact Fin.le_refl _
  · rw [if_neg hpair, List.mem_singleton] at hr
    exact hr ▸ h r' hr'

theorem merge_ordered {r : PortRange} {rs : List PortRange} (hr : r.low ≤ r.high) (h : ∀ s ∈ rs, s.low ≤ s.high) :
    ∀ s ∈ merge r rs, s.low ≤ s.high := by
  induction rs generalizing r with
  | nil => simpa [merge] using hr
  | cons s rs ih =>
    obtain ⟨hs, hrs⟩ := List.forall_mem_cons.mp h
    unfold merge
    by_cases hmeet : s.low.val ≤ r.high.val + 1
    · rw [if_pos hmeet]
      refine ih ?_ hrs
      by_cases hle : r.high ≤ s.high
      · simpa [hle] using Fin.le_trans hr hle
      · simpa [hle] using hr
    · rw [if_neg hmeet]
      exact List.forall_mem_cons.mpr ⟨hr, ih hs hrs⟩

theorem collapse_ordered {rs : List PortRange} (h : ∀ r ∈ rs, r.low ≤ r.high) : ∀ r ∈ collapse rs, r.low ≤ r.high := by
  have hsort : ∀ r ∈ rs.mergeSort le, r.low ≤ r.high := fun r hr => h r (List.mem_mergeSort.mp hr)
  unfold collapse
  cases hs : rs.mergeSort le with
  | nil => simp
  | cons r rs' =>
    rw [hs] at hsort
    obtain ⟨hr, hrs⟩ := List.forall_mem_cons.mp hsort
    exact merge_ordered hr hrs

/-! ## Text -/

theorem toDigits_inj {m n : Nat} (h : Nat.toDigits 10 m = Nat.toDigits 10 n) : m = n := by
  rw [← Nat.ofDigitChars_ten_toDigits (n := m), h, Nat.ofDigitChars_ten_toDigits]

theorem dash_not_mem_toDigits (n : Nat) : '-' ∉ Nat.toDigits 10 n := fun h =>
  absurd (Nat.isDigit_of_mem_toDigits (by decide) (by decide) h) (by decide)

theorem toList_text (r : PortRange) :
    r.text.toList = Nat.toDigits 10 r.low.val ++ '-' :: Nat.toDigits 10 r.high.val := by
  unfold text
  rw [String.toList_append, String.toList_append, List.append_assoc]
  simp only [toString, Nat.toList_repr]
  rfl

theorem text_inj {r r' : PortRange} (h : r.text = r'.text) : r = r' := by
  have hl := congrArg String.toList h
  rw [toList_text, toList_text] at hl
  obtain ⟨hlow, -, hhigh⟩ :=
    (List.append_cons_inj_of_notMem (dash_not_mem_toDigits _) (dash_not_mem_toDigits _)).mp hl
  obtain ⟨low, high⟩ := r
  obtain ⟨low', high'⟩ := r'
  rw [mk.injEq, Fin.ext_iff, Fin.ext_iff]
  exact ⟨toDigits_inj hlow, toDigits_inj hhigh⟩

end AccessList.PortRange
