import AccessList.Net.CidrText
import AccessList.Text.Wrap

/-!
# Texts split at a character

The pieces between all occurrences of a character hold it nowhere, and joined around it they come to the text again. The
last occurrence alone splits a text in two.
-/

namespace AccessList.Text

/-! ## At every occurrence -/

section
variable {sep : Char}

theorem splitOn_separator (s : List Char) : splitOn sep (sep :: s) = [] :: splitOn sep s := if_pos rfl

theorem splitOn_cons {c : Char} (hc : c ≠ sep) (s : List Char) :
    splitOn sep (c :: s) = match splitOn sep s with
      | [] => [[c]]
      | p :: ps => (c :: p) :: ps := if_neg hc

theorem splitOn_ne_nil (s : List Char) : splitOn sep s ≠ [] := by
  cases s with
  | nil => exact List.cons_ne_nil _ _
  | cons c s =>
    by_cases hc : c = sep
    · rw [hc, splitOn_separator]
      exact List.cons_ne_nil _ _
    · rw [splitOn_cons hc]
      cases splitOn sep s with
      | nil => exact List.cons_ne_nil _ _
      | cons p ps => exact List.cons_ne_nil _ _

theorem splitOn_append (s x : List Char) : splitOn sep (s ++ sep :: x) = splitOn sep s ++ splitOn sep x := by
  induction s with
  | nil => exact splitOn_separator x
  | cons c s ih =>
    rw [List.cons_append]
    by_cases hc : c = sep
    · rw [hc, splitOn_separator, splitOn_separator, ih]
      rfl
    · rw [splitOn_cons hc, splitOn_cons hc, ih]
      cases hs : splitOn sep s with
      | nil => exact absurd hs (splitOn_ne_nil s)
      | cons p ps => rfl

theorem splitOn_of_not_mem {s : List Char} (h : sep ∉ s) : splitOn sep s = [s] := by
  induction s with
  | nil => rfl
  | cons c s ih =>
    have hc : c ≠ sep := fun hc => h (hc ▸ List.mem_cons_self ..)
    rw [splitOn_cons hc, ih fun hs => h (List.mem_cons_of_mem _ hs)]

theorem not_mem_of_mem_splitOn {s p : List Char} (h : p ∈ splitOn sep s) : sep ∉ p := by
  induction s generalizing p with
  | nil =>
    rw [List.mem_singleton.mp h]
    exact List.not_mem_nil
  | cons c s ih =>
    by_cases hc : c = sep
    · rw [hc, splitOn_separator] at h
      rcases List.mem_cons.mp h with rfl | h
      · exact List.not_mem_nil
      · exact ih h
    · rw [splitOn_cons hc] at h
      have hfirst : ∀ q, sep ∉ q → sep ∉ c :: q := fun q hq hmem =>
        (List.mem_cons.mp hmem).elim (fun heq => hc heq.symm) hq
      cases hs : splitOn sep s with
      | nil => exact absurd hs (splitOn_ne_nil s)
      | cons q qs =>
        rw [hs] at h ih
        rcases List.mem_cons.mp h with rfl | h
        · exact hfirst q (ih (List.mem_cons_self ..))
        · exact ih (List.mem_cons_of_mem _ h)

theorem splitOn_append_of_not_mem {x : List Char} (h : sep ∉ x) (s : List Char) :
    ∃ p ps, splitOn sep s = p :: ps ∧ splitOn sep (x ++ s) = (x ++ p) :: ps := by
  induction x with
  | nil =>
    have hne : splitOn sep s ≠ [] := splitOn_ne_nil s
    obtain ⟨p, ps, hs⟩ := List.exists_cons_of_ne_nil hne
    exact ⟨p, ps, hs, hs⟩
  | cons c x ih =>
    have hc : c ≠ sep := fun hc => h (hc ▸ List.mem_cons_self ..)
    obtain ⟨p, ps, hs, hx⟩ := ih fun hx => h (List.mem_cons_of_mem _ hx)
    exact ⟨p, ps, hs, by rw [List.cons_append, splitOn_cons hc, hx]; rfl⟩

end

/-- Texts without newlines are the lines of what they come to when they are joined. -/
theorem splitOn_newline_intercalate {ls : List String} (hne : ls ≠ []) (h : ∀ line ∈ ls, '\n' ∉ line.toList) :
    splitOn '\n' ("\n".intercalate ls).toList = ls.map String.toList := by
  induction ls with
  | nil => exact absurd rfl hne
  | cons line ls ih =>
    obtain ⟨hline, hls⟩ := List.forall_mem_cons.mp h
    cases ls with
    | nil => simpa using splitOn_of_not_mem hline
    | cons next ls =>
      have htext : ("\n".intercalate (line :: next :: ls)).toList =
          line.toList ++ '\n' :: ("\n".intercalate (next :: ls)).toList := by
        rw [String.intercalate_cons_cons]
        simp
      rw [htext, splitOn_append, splitOn_of_not_mem hline, ih (List.cons_ne_nil _ _) hls]
      rfl

/-! ## At the last occurrence -/

section
variable {sep : Char} {s front back : List Char}

theorem splitLast_eq_none (h : sep ∉ s) : splitLast sep s = none := by
  induction s with
  | nil => rfl
  | cons c s ih =>
    obtain ⟨hc, hs⟩ := not_or.mp (mt List.mem_cons.mpr h)
    rw [splitLast, ih hs]
    exact if_neg (Ne.symm hc)

theorem splitLast_append (front : List Char) (h : sep ∉ back) :
    splitLast sep (front ++ sep :: back) = some (front, back) := by
  induction front with
  | nil =>
    rw [List.nil_append, splitLast, splitLast_eq_none h]
    exact if_pos rfl
  | cons c front ih => rw [List.cons_append, splitLast, ih]

theorem splitLast_split (sep : Char) (s : List Char) : match splitLast sep s with
    | none => sep ∉ s
    | some (front, back) => s = front ++ sep :: back ∧ sep ∉ back := by
  induction s with
  | nil => exact List.not_mem_nil
  | cons c s ih =>
    rw [splitLast]
    cases hs : splitLast sep s with
    | some parts =>
      rw [hs] at ih
      exact ⟨congrArg (c :: ·) ih.1, ih.2⟩
    | none =>
      rw [hs] at ih
      by_cases hc : c = sep
      · rw [if_pos hc]
        exact ⟨congrArg (· :: s) hc, ih⟩
      · rw [if_neg hc]
        exact fun hmem => (List.mem_cons.mp hmem).elim (fun heq => hc heq.symm) ih

theorem splitLast_eq_none_iff : splitLast sep s = none ↔ sep ∉ s := by
  refine ⟨fun h => ?_, splitLast_eq_none⟩
  have hsplit := splitLast_split sep s
  rwa [h] at hsplit

theorem splitLast_eq_some_iff : splitLast sep s = some (front, back) ↔ s = front ++ sep :: back ∧ sep ∉ back := by
  constructor
  · intro h
    have hsplit := splitLast_split sep s
    rwa [h] at hsplit
  · rintro ⟨rfl, hback⟩
    exact splitLast_append front hback

end

end AccessList.Text
