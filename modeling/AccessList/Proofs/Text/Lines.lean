import AccessList.Proofs.Text.Numerals
import AccessList.Proofs.Text.Spacing
import AccessList.Proofs.Text.Splitting

/-!
# Texts of many lines

Trimming a text takes the blanks from the end of its last line only. So a text with newlines in it may still have lines
that end in blanks.
-/

namespace AccessList

namespace Text

/-! ## Characters that cannot be newlines -/

theorem newline_not_mem_lines {s line : String} (h : line ∈ lines s) : '\n' ∉ line.toList := by
  obtain ⟨p, hp, rfl⟩ := List.mem_map.mp h
  rw [String.toList_ofList]
  exact not_mem_of_mem_splitOn hp

theorem eq_space_of_mem_squeeze {s : List Char} {c : Char} (hc : c ∈ squeeze s) (hb : isBlank c = true) : c = ' ' := by
  fun_induction squeeze s with
  | case1 => cases hc
  | case2 => exact List.mem_singleton.mp hc
  | case3 _ _ _ _ _ ih => exact ih hc
  | case4 => grind
  | case5 => grind

theorem newline_not_mem_collapse (s : String) : '\n' ∉ (collapse s).toList := by
  rw [collapse, String.toList_ofList]
  intro h
  have hsub : trimEnd (squeeze s.toList) ⊆ squeeze s.toList := List.IsPrefix.subset <| trimEnd_prefix _
  exact absurd (eq_space_of_mem_squeeze (hsub h) (by decide)) (by decide)

theorem newline_not_mem_toDigits {b : Nat} (hb : 1 < b) (hmax : b ≤ 16) (n : Nat) : '\n' ∉ Nat.toDigits b n := by
  have hdigit : ∀ d < 16, '\n' ≠ Nat.digitChar d := by decide
  intro hc
  obtain ⟨d, hd, heq⟩ := exists_digit_of_mem_toDigits hb hc
  exact hdigit d (by omega) heq

/-! ## Lines without blanks at their ends -/

def Tidy (s : String) : Prop := ∀ line ∈ lines s, line.toList.getLast?.any isBlank = false

instance (s : String) : Decidable (Tidy s) := inferInstanceAs (Decidable (∀ _ ∈ _, _))

theorem lines_of_no_newline {s : String} (h : '\n' ∉ s.toList) : lines s = [s] := by
  rw [lines, splitOn_of_not_mem h, List.map_singleton, String.ofList_toList]

theorem lines_append_newline (s t : String) : lines (s ++ "\n" ++ t) = lines s ++ lines t := by
  have hsplit : (s ++ "\n" ++ t).toList = s.toList ++ '\n' :: t.toList := by simp
  rw [lines, hsplit, splitOn_append, List.map_append]
  rfl

theorem tidy_append_newline_iff {s t : String} : Tidy (s ++ "\n" ++ t) ↔ Tidy s ∧ Tidy t := by
  unfold Tidy
  rw [lines_append_newline, List.forall_mem_append]

theorem tidy_intercalate_iff {parts : List String} : Tidy ("\n".intercalate parts) ↔ ∀ part ∈ parts, Tidy part := by
  induction parts with
  | nil => exact iff_of_true (by decide) nofun
  | cons part parts ih =>
    cases parts with
    | nil => simp
    | cons part' parts =>
      rw [String.intercalate_cons_cons, tidy_append_newline_iff, ih, List.forall_mem_cons (a := part)]

theorem any_getLast?_trimEnd (s : List Char) : (trimEnd s).getLast?.any isBlank = false := by
  fun_induction trimEnd s with
  | case1 => rfl
  | case2 => rfl
  | case3 c cs h hc ih => simpa using hc
  | case4 c cs d ds h ih => rwa [h] at ih

end Text

open Text

theorem tidy_trimmed {s : String} (h : '\n' ∉ s.toList) : Tidy (trimmed s) := by
  have hline : '\n' ∉ (trimmed s).toList := by
    rw [toList_trimmed]
    have hsub : trimEnd s.toList ⊆ s.toList := List.IsPrefix.subset <| trimEnd_prefix _
    exact fun hc => h (hsub hc)
  intro line hmem
  rw [lines_of_no_newline hline, List.mem_singleton] at hmem
  rw [hmem, toList_trimmed]
  exact any_getLast?_trimEnd _

/-- Behind a space it does not matter what a line starts with. -/
theorem tidy_trimmed_append_iff {lead : String} (hline : '\n' ∉ lead.toList) (hlast : lead.toList.getLast? = some ' ')
    (s : String) : Tidy (trimmed (lead ++ s)) ↔ Tidy (trimmed (" " ++ s)) := by
  have hspace : '\n' ∉ (" " : String).toList := by decide
  by_cases hs : trimmed s = ""
  · rw [trimmed_append_of_blank _ hs, trimmed_append_of_blank _ hs]
    exact iff_of_true (tidy_trimmed hline) (tidy_trimmed hspace)
  · rw [trimmed_append _ hs, trimmed_append _ hs]
    obtain ⟨p, ps, hsplit, hlead⟩ := splitOn_append_of_not_mem hline (trimmed s).toList
    obtain ⟨q, qs, hsplit', hblank⟩ := splitOn_append_of_not_mem hspace (trimmed s).toList
    obtain ⟨rfl, rfl⟩ := List.cons.inj (hsplit.symm.trans hsplit')
    -- The first lines differ in what they start with, which is a space in front of the same text.
    have hfirst : (lead.toList ++ p).getLast? = (" ".toList ++ p).getLast? := by
      rw [List.getLast?_append, List.getLast?_append, hlast]
      rfl
    simp only [Tidy, lines, String.toList_append, hlead, hblank, List.map_cons, List.forall_mem_cons,
      String.toList_ofList, hfirst]

end AccessList
