import AccessList.Assemble
import AccessList.Proofs.PortRange
import AccessList.Proofs.Text.Numerals
import AccessList.Proofs.Text.Words

/-!
# Lines as they are printed

A rule line comes out as its words with one space before each. Any other line keeps its blanks, those at its end
apart.
-/

namespace AccessList

namespace Text

/-! ## Trimming -/

theorem trimEnd_cons_letter {c : Char} (h : ¬isBlank c = true) (cs : List Char) :
    trimEnd (c :: cs) = c :: trimEnd cs := by
  rw [trimEnd]
  cases trimEnd cs with
  | nil => rw [if_neg h]
  | cons d ds => rfl

theorem trimEnd_cons_of_ne_nil (c : Char) {cs : List Char} (h : trimEnd cs ≠ []) :
    trimEnd (c :: cs) = c :: trimEnd cs := by
  rw [trimEnd]
  cases hcs : trimEnd cs with
  | nil => exact absurd hcs h
  | cons d ds => rfl

theorem trimEnd_append (s : List Char) {t : List Char} (h : trimEnd t ≠ []) : trimEnd (s ++ t) = s ++ trimEnd t := by
  induction s with
  | nil => rfl
  | cons c s ih =>
    have hne : trimEnd (s ++ t) ≠ [] := by
      rw [ih]
      exact List.append_ne_nil_of_right_ne_nil _ h
    rw [List.cons_append, trimEnd_cons_of_ne_nil c hne, ih, List.cons_append]

theorem trimEnd_append_of_eq_nil (s : List Char) {t : List Char} (h : trimEnd t = []) :
    trimEnd (s ++ t) = trimEnd s := by
  induction s with
  | nil => exact h
  | cons c s ih => rw [List.cons_append, trimEnd, trimEnd, ih]

theorem trimEnd_trimEnd (s : List Char) : trimEnd (trimEnd s) = trimEnd s := by
  fun_induction trimEnd s with
  | case1 => rfl
  | case2 c cs h hc ih => rfl
  | case3 c cs h hc ih => rw [trimEnd_cons_letter hc]; rfl
  | case4 c cs d ds h ih =>
    rw [h] at ih
    rw [trimEnd_cons_of_ne_nil c (by rw [ih]; exact List.cons_ne_nil d ds), ih]

/-! ## Words with spaces -/

theorem ne_nil_of_mem_consLetter {c : Char} {rest : List Char} {ws : List (List Char)} (h : [] ∉ ws) :
    [] ∉ consLetter c rest ws := by
  unfold consLetter
  split
  · split <;> simp_all
  · simp_all

theorem nil_not_mem_words (s : List Char) : [] ∉ words s := by
  induction s with
  | nil => simp [words]
  | cons c cs ih =>
    by_cases hc : isBlank c = true
    · rw [words_cons_blank hc]; exact ih
    · rw [words_cons_letter hc]; exact ne_nil_of_mem_consLetter ih

theorem words_letter_blank {c d : Char} (hc : ¬isBlank c = true) (hd : isBlank d = true) (ds : List Char) :
    words (c :: d :: ds) = [c] :: words (d :: ds) := by
  rw [words_cons_letter hc]
  cases words (d :: ds) with
  | nil => rfl
  | cons w ws => simp [consLetter, hd]

theorem words_letter_letter {c d : Char} (hc : ¬isBlank c = true) (hd : ¬isBlank d = true) (ds : List Char) :
    ∃ w ws, words (d :: ds) = w :: ws ∧ words (c :: d :: ds) = (c :: w) :: ws := by
  rw [words_cons_letter hc]
  cases hw : words (d :: ds) with
  | nil => exact absurd (blank_of_words_eq_nil hw) hd
  | cons w ws => exact ⟨w, ws, rfl, by simp [consLetter, hd]⟩

theorem squeeze_blank_blank {c d : Char} (hc : isBlank c = true) (hd : isBlank d = true) (ds : List Char) :
    squeeze (c :: d :: ds) = squeeze (d :: ds) := by
  rw [squeeze, if_pos hc]
  exact if_pos hd

theorem squeeze_blank_letter {c d : Char} (hc : isBlank c = true) (hd : ¬isBlank d = true) (ds : List Char) :
    squeeze (c :: d :: ds) = ' ' :: squeeze (d :: ds) := by
  rw [squeeze, if_pos hc]
  exact if_neg hd

theorem squeeze_cons_letter {c : Char} (hc : ¬isBlank c = true) (cs : List Char) :
    squeeze (c :: cs) = c :: squeeze cs := by
  rw [squeeze.eq_def]
  exact if_neg hc

/-- All blanks at the start are alike. -/
theorem squeeze_cons_blank {c : Char} (hc : isBlank c = true) (cs : List Char) :
    squeeze (c :: cs) = squeeze (' ' :: cs) := by
  have hspace : isBlank ' ' = true := rfl
  cases cs with
  | nil => rw [squeeze, if_pos hc]; rfl
  | cons d ds => rw [squeeze, squeeze, if_pos hc, if_pos hspace]

theorem trimEnd_squeeze_space_letter {c : Char} (hc : ¬isBlank c = true) (cs : List Char) :
    trimEnd (squeeze (' ' :: c :: cs)) = ' ' :: c :: trimEnd (squeeze cs) := by
  have htrim := trimEnd_cons_letter hc (squeeze cs)
  have hne : trimEnd (c :: squeeze cs) ≠ [] := by rw [htrim]; exact List.cons_ne_nil _ _
  rw [squeeze_blank_letter rfl hc, squeeze_cons_letter hc, trimEnd_cons_of_ne_nil ' ' hne, htrim]

/-- A text behind a space comes to its words, each behind one space. -/
theorem trimEnd_squeeze_space (s : List Char) : trimEnd (squeeze (' ' :: s)) = (words s).flatMap (' ' :: ·) := by
  have hspace : isBlank ' ' = true := rfl
  induction s with
  | nil => rfl
  | cons c cs ih =>
    by_cases hc : isBlank c = true
    · rw [squeeze_blank_blank hspace hc, squeeze_cons_blank hc, ih, words_cons_blank hc]
    -- A letter goes in front of the first word of the rest, or is a word of its own where a blank follows.
    rw [trimEnd_squeeze_space_letter hc]
    cases cs with
    | nil => rw [words_cons_letter hc]; rfl
    | cons d ds =>
      by_cases hd : isBlank d = true
      · rw [squeeze_blank_blank hspace hd] at ih
        rw [words_letter_blank hc hd, List.flatMap_cons, ih]
        rfl
      · obtain ⟨w, ws, hw, hcw⟩ := words_letter_letter hc hd ds
        rw [trimEnd_squeeze_space_letter hd, hw, List.flatMap_cons, List.cons_append] at ih
        rw [hcw, squeeze_cons_letter hd, trimEnd_cons_letter hd, (List.cons.inj ih).2]
        rfl

def neat (s : String) : String := " ".intercalate ((words s.toList).map String.ofList)

def spaced (s : String) : String := if neat s = "" then "" else " " ++ neat s

theorem toList_neat (s : String) : (neat s).toList = [' '].intercalate (words s.toList) := by
  have hid : String.toList ∘ String.ofList = id := funext fun _ => String.toList_ofList
  rw [neat, String.toList_intercalate, List.map_map, hid, List.map_id]
  rfl

theorem flatMap_space {ws : List (List Char)} (h : ws ≠ []) :
    ws.flatMap (' ' :: ·) = ' ' :: [' '].intercalate ws := by
  induction ws with
  | nil => exact absurd rfl h
  | cons w ws ih =>
    cases ws with
    | nil => simp
    | cons w' ws => rw [List.flatMap_cons, ih (List.cons_ne_nil _ _), List.intercalate_cons_cons]; simp

theorem neat_eq_empty_iff {s : String} : neat s = "" ↔ words s.toList = [] := by
  rw [← String.toList_eq_nil_iff, toList_neat]
  cases hw : words s.toList with
  | nil => simp
  | cons w ws =>
    have hne : w ≠ [] := by
      rintro rfl
      exact nil_not_mem_words s.toList (hw ▸ List.mem_cons_self ..)
    cases ws with
    | nil => simpa using hne
    | cons w' ws => simp [List.intercalate_cons_cons, hne]

theorem toList_spaced (s : String) : (spaced s).toList = (words s.toList).flatMap (' ' :: ·) := by
  unfold spaced
  by_cases h : neat s = ""
  · rw [if_pos h, neat_eq_empty_iff.mp h]
    rfl
  · rw [if_neg h, flatMap_space (mt neat_eq_empty_iff.mpr h), String.toList_append, toList_neat]
    rfl

theorem spaced_empty : spaced "" = "" := if_pos (neat_eq_empty_iff.mpr rfl)

theorem spaced_append (s t : String) : spaced (s ++ " " ++ t) = spaced s ++ spaced t := by
  apply String.toList_inj.mp
  have hblank : (s ++ " " ++ t).toList = s.toList ++ ' ' :: t.toList := by simp
  rw [String.toList_append, toList_spaced, toList_spaced, toList_spaced, hblank, words_append_blank _ _ rfl,
    List.flatMap_append]

theorem spaced_lead {lead word : String} (h : lead = word ++ " ") (s : String) :
    spaced (lead ++ s) = spaced word ++ spaced s := by
  rw [h, spaced_append]

/-! ## Texts without blanks -/

theorem words_of_no_blank {s : List Char} (hne : s ≠ []) (h : ∀ c ∈ s, ¬isBlank c = true) : words s = [s] := by
  induction s with
  | nil => exact absurd rfl hne
  | cons c cs ih =>
    have hc := h c (List.mem_cons_self ..)
    cases cs with
    | nil => rw [words_cons_letter hc]; rfl
    | cons d ds =>
      have hd := h d (List.mem_cons_of_mem _ (List.mem_cons_self ..))
      rw [words_cons_letter hc, ih (List.cons_ne_nil _ _) fun e he => h e (List.mem_cons_of_mem _ he)]
      simp [consLetter, hd]

theorem trimEnd_of_no_blank {s : List Char} (h : ∀ c ∈ s, ¬isBlank c = true) : trimEnd s = s := by
  induction s with
  | nil => rfl
  | cons c cs ih =>
    rw [trimEnd_cons_letter (h c (List.mem_cons_self ..)), ih fun d hd => h d (List.mem_cons_of_mem _ hd)]

end Text

theorem PortRange.text_ne_empty (r : PortRange) : r.text ≠ "" := by
  intro h
  have htext := r.toList_text
  rw [h] at htext
  exact absurd htext.symm (List.append_ne_nil_of_right_ne_nil _ (List.cons_ne_nil _ _))

theorem PortRange.no_blank_text (r : PortRange) : ∀ c ∈ r.text.toList, ¬Text.isBlank c = true := by
  have hdigit : ∀ n, ∀ c ∈ Nat.toDigits 10 n, ¬Text.isBlank c = true := fun n c hc =>
    Bool.eq_false_iff.mp (Text.not_blank_of_isDigit (Nat.isDigit_of_mem_toDigits (by decide) (by decide) hc))
  intro c hc
  rw [toList_text] at hc
  rcases List.mem_append.mp hc with hc | hc
  · exact hdigit _ c hc
  rcases List.mem_cons.mp hc with rfl | hc
  · decide
  · exact hdigit _ c hc

/-! ## Printed lines -/

theorem ruleText_eq (parts : List String) : ruleText parts = String.join (parts.map Text.spaced) := by
  apply String.toList_inj.mp
  have hspace : (" " ++ " ".intercalate parts).toList = ' ' :: (" ".intercalate parts).toList := by
    rw [String.toList_append]
    rfl
  rw [ruleText, Text.collapse, String.toList_ofList, hspace, Text.trimEnd_squeeze_space, Text.words_intercalate,
    String.toList_join, List.flatMap_map, List.flatMap_assoc]
  simp only [Text.toList_spaced]

theorem trimmed_ruleText (parts : List String) : trimmed (ruleText parts) = ruleText parts := by
  rw [trimmed, ruleText, Text.collapse, String.toList_ofList, Text.trimEnd_trimEnd]

theorem toList_trimmed (s : String) : (trimmed s).toList = Text.trimEnd s.toList := by
  rw [trimmed, String.toList_ofList]

theorem trimmed_eq_empty_iff {s : String} : trimmed s = "" ↔ Text.trimEnd s.toList = [] := by
  rw [← String.toList_eq_nil_iff, toList_trimmed]

theorem trimmed_append (s : String) {t : String} (h : trimmed t ≠ "") : trimmed (s ++ t) = s ++ trimmed t := by
  apply String.toList_inj.mp
  rw [toList_trimmed, String.toList_append, Text.trimEnd_append _ (mt trimmed_eq_empty_iff.mpr h),
    String.toList_append, toList_trimmed]

theorem trimmed_append_of_blank (s : String) {t : String} (h : trimmed t = "") : trimmed (s ++ t) = trimmed s := by
  apply String.toList_inj.mp
  rw [toList_trimmed, String.toList_append, Text.trimEnd_append_of_eq_nil _ (trimmed_eq_empty_iff.mp h),
    toList_trimmed]

theorem trimmed_text (r : PortRange) : trimmed r.text = r.text := by
  apply String.toList_inj.mp
  rw [toList_trimmed, Text.trimEnd_of_no_blank r.no_blank_text]

end AccessList
