import AccessList.Proofs.Text.Wrapping

/-!
# Collapsed texts

Collapsing a text leaves its words with one space between any two of them, and one in front of them if the text starts
with a blank. So a collapsed text only depends on its words and on how it starts, and collapses to itself.
-/

namespace AccessList.Text

/-- Words are the pieces between blanks, but for the empty ones. -/
theorem words_eq_splitOnP (s : List Char) : words s = (s.splitOnP isBlank).filter (· ≠ []) := by
  induction s with
  | nil => simp [words, List.splitOnP_nil]
  | cons c cs ih =>
    rw [List.splitOnP_cons_eq_if_modifyHead]
    by_cases hc : isBlank c = true
    · rw [words_cons_blank hc, if_pos hc, ih]
      simp
    -- The letter goes to the first piece of the rest, which is empty where a blank follows.
    rw [if_neg hc]
    cases cs with
    | nil =>
      rw [words_cons_letter hc]
      simp [words, consLetter, List.splitOnP_nil]
    | cons d ds =>
      rw [List.splitOnP_cons_eq_if_modifyHead] at ih ⊢
      by_cases hd : isBlank d = true
      · rw [words_letter_blank hc hd, ih]
        simp [hd]
      · obtain ⟨w, ws, hw, hcw⟩ := words_letter_letter hc hd ds
        obtain ⟨p, ps, hsplit⟩ := List.exists_cons_of_ne_nil (List.splitOnP_ne_nil isBlank ds)
        rw [hw] at ih
        rw [hcw]
        simpa [hd, hsplit] using ih

def startsBlank (s : String) : Bool := s.toList.head?.any isBlank

theorem collapse_eq (s : String) :
    collapse s = (if startsBlank s ∧ words s.toList ≠ [] then " " else "") ++ neat s := by
  apply String.toList_inj.mp
  rw [collapse, startsBlank, String.toList_ofList, String.toList_append, toList_neat]
  cases hs : s.toList with
  | nil => simp [words, squeeze, trimEnd]
  | cons c cs =>
    by_cases hc : isBlank c = true
    · rw [squeeze_cons_blank hc, trimEnd_squeeze_space, words_cons_blank hc]
      by_cases hwords : words cs = []
      · simp [hwords]
      · rw [flatMap_space hwords]
        simp [hc, hwords]
    · have hspace := trimEnd_squeeze_space (c :: cs)
      have hwords : words (c :: cs) ≠ [] := fun hnil => hc (blank_of_words_eq_nil hnil)
      rw [trimEnd_squeeze_space_letter hc, flatMap_space hwords] at hspace
      rw [squeeze_cons_letter hc, trimEnd_cons_letter hc, (List.cons.inj hspace).2]
      simp [hc]

theorem neat_collapse (s : String) : neat (collapse s) = neat s := by
  rw [neat, neat, words_collapse]

theorem startsBlank_neat (s : String) : startsBlank (neat s) = false := by
  have hwords : ∀ w ∈ words s.toList, IsWord w := fun w hw => isWord_of_mem_words hw
  have hfirst := (singlySpaced_intercalate hwords).first
  rw [startsBlank, toList_neat]
  cases hhead : ([' '].intercalate (words s.toList)).head? with
  | none => rfl
  | some c => exact hfirst c hhead

theorem startsBlank_collapse (s : String) :
    startsBlank (collapse s) = true ↔ startsBlank s = true ∧ words s.toList ≠ [] := by
  rw [collapse_eq]
  by_cases h : startsBlank s = true ∧ words s.toList ≠ []
  · have hspace : startsBlank (" " ++ neat s) = true := by simp [startsBlank, isBlank]
    rw [if_pos h]
    exact iff_of_true hspace h
  · rw [if_neg h, String.empty_append, startsBlank_neat]
    exact iff_of_false Bool.false_ne_true h

theorem collapse_collapse (s : String) : collapse (collapse s) = collapse s := by
  rw [collapse_eq (collapse s), neat_collapse, words_collapse]
  simp only [startsBlank_collapse, and_assoc, and_self]
  exact (collapse_eq s).symm

structure IsCollapsed (s t : String) : Prop where
  sameWords : words t.toList = words s.toList
  text : t = (if startsBlank s ∧ words s.toList ≠ [] then " " else "") ++ neat s
  trimmed : t.toList.getLast?.any isBlank = false
  fixed : collapse t = t

/-- A text is collapsed to its words with single spaces between them, behind one more space where the text starts with a
blank and has words. No blank is left at the end, and nothing is left to collapse. -/
theorem collapse_keeps_words (s : String) :
    words s.toList = (s.toList.splitOnP isBlank).filter (· ≠ []) ∧ IsCollapsed s (collapse s) := by
  refine ⟨words_eq_splitOnP s.toList, words_collapse s, collapse_eq s, ?_, collapse_collapse s⟩
  rw [collapse, String.toList_ofList]
  exact any_getLast?_trimEnd _

/-- A rule line keeps the space it starts with. -/
example : collapse " permit tcp any  any eq www   " = " permit tcp any any eq www" ∧
    collapse "\t deny  ip\n any" = " deny ip any" ∧ collapse " \t " = "" := by decide +kernel

end AccessList.Text
