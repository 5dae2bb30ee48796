import AccessList.Text.Blank

/-!
# Words through squeezing and trimming

Squeezing and trimming change blanks only: the words of a text stay, and so do the words of what a rule line is
put together from.
-/

namespace AccessList.Text

theorem words_cons_blank {c : Char} (h : isBlank c = true) (cs : List Char) : words (c :: cs) = words cs := by
  rw [words, if_pos h]

theorem words_cons_letter {c : Char} (h : ¬isBlank c = true) (cs : List Char) :
    words (c :: cs) = consLetter c cs (words cs) := by
  rw [words, if_neg h]

theorem consLetter_nil (c : Char) (rest : List Char) : consLetter c rest [] = [[c]] := by
  cases rest <;> rfl

theorem consLetter_ne_nil (c : Char) (rest : List Char) (ws : List (List Char)) : consLetter c rest ws ≠ [] := by
  unfold consLetter
  split
  · split <;> exact List.cons_ne_nil _ _
  · exact List.cons_ne_nil _ _

/-- Only the first character of the rest counts. -/
theorem consLetter_congr (c : Char) {r r' : List Char} (h : r.head?.map isBlank = r'.head?.map isBlank)
    (ws : List (List Char)) : consLetter c r ws = consLetter c r' ws := by
  cases r with
  | nil =>
    cases r' with
    | nil => rfl
    | cons d' ds' => cases h
  | cons d ds =>
    cases r' with
    | nil => cases h
    | cons d' ds' =>
      have hd : isBlank d = isBlank d' := by simpa using h
      cases ws with
      | nil => rfl
      | cons w ws => simp only [consLetter, hd]

theorem blank_of_words_eq_nil {c : Char} {cs : List Char} (h : words (c :: cs) = []) : isBlank c = true := by
  by_cases hc : isBlank c = true
  · exact hc
  · rw [words_cons_letter hc] at h
    exact absurd h (consLetter_ne_nil c cs _)

theorem consLetter_append (c : Char) {s t : List Char} {b : Char} (hb : isBlank b = true) :
    consLetter c (s ++ b :: t) (words s ++ words t) = consLetter c s (words s) ++ words t := by
  cases s with
  | nil =>
    simp only [List.nil_append, words, consLetter_nil]
    cases words t with
    | nil => rfl
    | cons w ws => simp [consLetter, hb]
  | cons d ds =>
    cases hw : words (d :: ds) with
    | nil =>
      have hd := blank_of_words_eq_nil hw
      rw [consLetter_nil]
      cases words t with
      | nil => rfl
      | cons w ws => simp [consLetter, hd]
    | cons w ws =>
      simp only [List.cons_append, consLetter]
      split <;> rfl

/-- Words end at a blank. -/
theorem words_append_blank (s t : List Char) {b : Char} (hb : isBlank b = true) :
    words (s ++ b :: t) = words s ++ words t := by
  induction s with
  | nil => exact words_cons_blank hb t
  | cons c cs ih =>
    rw [List.cons_append]
    by_cases hc : isBlank c = true
    · rw [words_cons_blank hc, words_cons_blank hc, ih]
    · rw [words_cons_letter hc, words_cons_letter hc, ih, consLetter_append c hb]

/-! ## Squeezing and trimming -/

theorem head?_squeeze (s : List Char) : (squeeze s).head?.map isBlank = s.head?.map isBlank := by
  fun_induction squeeze s with
  | case1 => rfl
  | case2 c hc => simp [hc, show isBlank ' ' = true from rfl]
  | case3 c hc d ds hd ih => rw [ih]; simp [hc, hd]
  | case4 c hc d ds hd ih => simp [hc, show isBlank ' ' = true from rfl]
  | case5 c cs hc ih => rfl

theorem words_squeeze (s : List Char) : words (squeeze s) = words s := by
  fun_induction squeeze s with
  | case1 => rfl
  | case2 c hc => rw [words_cons_blank hc]; rfl
  | case3 c hc d ds hd ih => rw [ih, words_cons_blank hc]
  | case4 c hc d ds hd ih => rw [words_cons_blank rfl, ih, words_cons_blank hc]
  | case5 c cs hc ih =>
    rw [words_cons_letter hc, words_cons_letter hc, ih, consLetter_congr c (head?_squeeze cs)]

theorem trimEnd_prefix (s : List Char) : trimEnd s <+: s := by
  fun_induction trimEnd s with
  | case1 => exact List.nil_prefix
  | case2 c cs h hc ih => exact List.nil_prefix
  | case3 c cs h hc ih => exact List.prefix_cons_inj c |>.mpr List.nil_prefix
  | case4 c cs d ds h ih => rw [h] at ih; exact (List.prefix_cons_inj c).mpr ih

theorem words_trimEnd (s : List Char) : words (trimEnd s) = words s := by
  fun_induction trimEnd s with
  | case1 => rfl
  | case2 c cs h hc ih => rw [words_cons_blank hc, ← ih, h]
  | case3 c cs h hc ih =>
    rw [words_cons_letter hc, words_cons_letter hc, ← ih, h]
    simp only [words, consLetter_nil]
  | case4 c cs d ds h ih =>
    have hpre : d :: ds <+: cs := h ▸ trimEnd_prefix cs
    have hhead : (d :: ds).head? = cs.head? := by
      obtain ⟨es, rfl⟩ := hpre
      rfl
    rw [h] at ih
    by_cases hc : isBlank c = true
    · rw [words_cons_blank hc, words_cons_blank hc, ih]
    · rw [words_cons_letter hc, words_cons_letter hc, ih, consLetter_congr c (congrArg _ hhead)]

theorem words_collapse (s : String) : words (collapse s).toList = words s.toList := by
  rw [collapse, String.toList_ofList, words_trimEnd, words_squeeze]

/-! ## Letters -/

def letters (s : List Char) : List Char := s.filter fun c => !isBlank c

theorem letters_append (s t : List Char) : letters (s ++ t) = letters s ++ letters t := List.filter_append ..

theorem letters_blank {c : Char} (h : isBlank c = true) (s : List Char) : letters (c :: s) = letters s :=
  List.filter_cons_of_neg (by rw [h]; decide)

theorem letters_letter {c : Char} (h : isBlank c = false) (s : List Char) : letters (c :: s) = c :: letters s :=
  List.filter_cons_of_pos (by rw [h]; decide)

theorem letters_of_no_blank {s : List Char} (h : ∀ c ∈ s, isBlank c = false) : letters s = s :=
  List.filter_eq_self.mpr fun c hc => by rw [h c hc]; rfl

theorem flatten_consLetter (c : Char) (rest : List Char) (ws : List (List Char)) :
    (consLetter c rest ws).flatten = c :: ws.flatten := by
  unfold consLetter
  split
  · split <;> rfl
  · rfl

theorem flatten_words (s : List Char) : (words s).flatten = letters s := by
  induction s with
  | nil => rfl
  | cons c s ih =>
    by_cases hc : isBlank c = true
    · rw [words_cons_blank hc, ih, letters_blank hc]
    · rw [words_cons_letter hc, flatten_consLetter, ih, letters_letter (Bool.eq_false_iff.mpr hc)]

theorem not_blank_of_mem_words {s w : List Char} {c : Char} (hw : w ∈ words s) (hc : c ∈ w) : isBlank c = false := by
  have hletter : c ∈ letters s := flatten_words s ▸ List.mem_flatten.mpr ⟨w, hw, hc⟩
  simpa using (List.mem_filter.mp hletter).2

/-! ## Lines put together from parts -/

theorem words_intercalate (parts : List String) :
    words (" ".intercalate parts).toList = parts.flatMap fun part => words part.toList := by
  induction parts with
  | nil => simp [words]
  | cons part parts ih =>
    cases parts with
    | nil => simp
    | cons part' parts =>
      rw [String.intercalate_cons_cons, String.toList_append, String.toList_append, List.append_assoc,
        show (" " : String).toList = [' '] from rfl, List.singleton_append, words_append_blank _ _ rfl, ih]
      rfl

end AccessList.Text
