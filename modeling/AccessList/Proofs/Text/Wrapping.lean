import AccessList.Proofs.Text.Lines
import Mathlib.Data.List.Chain

/-!
# Lines filled greedily

The words of a paragraph are laid out in rows: words that share a line, or one word that is longer than a line and is
cut into lines of its own. Rows that fit, and that end only where the next word does not, are determined by the words.
Hence a wrapped text has one layout, and its lines, wrapped again, stay as they are.
-/

namespace AccessList.Text

/-! ## Lines of words -/

def IsWord (w : List Char) : Prop := w ≠ [] ∧ ∀ c ∈ w, isBlank c = false

theorem isWord_of_mem_words {s w : List Char} (h : w ∈ words s) : IsWord w :=
  ⟨fun hnil => nil_not_mem_words s (hnil ▸ h), fun _ hc => not_blank_of_mem_words h hc⟩

/-- No blank stands at an end or beside another one, and each is a space. -/
structure SinglySpaced (s : List Char) : Prop where
  first : ∀ c ∈ s.head?, isBlank c = false
  last : ∀ c ∈ s.getLast?, isBlank c = false
  spaces : ∀ c ∈ s, isBlank c = true → c = ' '
  single : s.IsChain fun c d => isBlank c = false ∨ isBlank d = false

theorem IsWord.singlySpaced {w : List Char} (h : IsWord w) : SinglySpaced w where
  first c hc := h.2 c (List.mem_of_mem_head? hc)
  last c hc := h.2 c (List.mem_of_mem_getLast? hc)
  spaces c hc hb := absurd hb (Bool.eq_false_iff.mp (h.2 c hc))
  single := List.Pairwise.isChain <| List.pairwise_of_forall_mem_list fun c hc _ _ => .inl (h.2 c hc)

theorem intercalate_space_append {us ws : List (List Char)} (hus : us ≠ []) (hws : ws ≠ []) :
    [' '].intercalate (us ++ ws) = [' '].intercalate us ++ ' ' :: [' '].intercalate ws := by
  have hne : us ++ ws ≠ [] := List.append_ne_nil_of_left_ne_nil hus ws
  apply List.cons_inj_right ' ' |>.mp
  rw [← flatMap_space hne, List.flatMap_append, flatMap_space hus, flatMap_space hws, List.cons_append]

theorem intercalate_space_cons (w : List Char) {ws : List (List Char)} (h : ws ≠ []) :
    [' '].intercalate (w :: ws) = w ++ ' ' :: [' '].intercalate ws := by
  have happend := intercalate_space_append (List.cons_ne_nil w []) h
  rwa [List.intercalate_singleton] at happend

theorem intercalate_ne_nil {ws : List (List Char)} (hne : ws ≠ []) (h : ∀ w ∈ ws, IsWord w) :
    [' '].intercalate ws ≠ [] := by
  obtain ⟨w, ws, rfl⟩ := List.exists_cons_of_ne_nil hne
  have hw : w ≠ [] := (h w (List.mem_cons_self ..)).1
  cases ws with
  | nil => rwa [List.intercalate_singleton]
  | cons v vs => simp [intercalate_space_cons w (List.cons_ne_nil v vs)]

theorem words_intercalate_space {ws : List (List Char)} (h : ∀ w ∈ ws, IsWord w) :
    words ([' '].intercalate ws) = ws := by
  induction ws with
  | nil => rfl
  | cons w ws ih =>
    obtain ⟨hw, hws⟩ := List.forall_mem_cons.mp h
    have hword : words w = [w] := words_of_no_blank hw.1 fun c hc => Bool.eq_false_iff.mp (hw.2 c hc)
    by_cases hne : ws = []
    · rw [hne, List.intercalate_singleton, hword]
    · rw [intercalate_space_cons w hne, words_append_blank _ _ rfl, hword, ih hws, List.singleton_append]

theorem SinglySpaced.append {s t : List Char} (hs : SinglySpaced s) (ht : SinglySpaced t) (hsne : s ≠ [])
    (htne : t ≠ []) : SinglySpaced (s ++ ' ' :: t) where
  first := by rw [List.head?_append_of_ne_nil s hsne]; exact hs.first
  last := by
    obtain ⟨d, t', rfl⟩ := List.exists_cons_of_ne_nil htne
    rw [List.getLast?_append_cons, List.getLast?_cons_cons]
    exact ht.last
  spaces c hc hb := by
    rcases List.mem_append.mp hc with hc | hc
    · exact hs.spaces c hc hb
    · exact (List.mem_cons.mp hc).elim id fun hc => ht.spaces c hc hb
  single := by
    obtain ⟨d, t', rfl⟩ := List.exists_cons_of_ne_nil htne
    refine List.isChain_append.mpr ⟨hs.single, ?_, fun c hc _ _ => .inl (hs.last c hc)⟩
    exact List.isChain_cons_cons.mpr ⟨.inr (ht.first d rfl), ht.single⟩

theorem singlySpaced_intercalate {ws : List (List Char)} (h : ∀ w ∈ ws, IsWord w) :
    SinglySpaced ([' '].intercalate ws) := by
  induction ws with
  | nil => exact ⟨nofun, nofun, nofun, List.IsChain.nil⟩
  | cons w ws ih =>
    obtain ⟨hw, hws⟩ := List.forall_mem_cons.mp h
    by_cases hne : ws = []
    · rw [hne, List.intercalate_singleton]
      exact hw.singlySpaced
    · rw [intercalate_space_cons w hne]
      exact hw.singlySpaced.append (ih hws) hw.1 (intercalate_ne_nil hne hws)

/-! ## Letters -/

theorem letters_splitOn {sep : Char} (hsep : isBlank sep = true) (s : List Char) :
    (splitOn sep s).flatMap letters = letters s := by
  induction s with
  | nil => rfl
  | cons c s ih =>
    by_cases hc : c = sep
    · rw [hc, splitOn_separator, List.flatMap_cons, ih, letters_blank hsep]
      rfl
    · have hne : splitOn sep s ≠ [] := splitOn_ne_nil s
      obtain ⟨p, ps, hs⟩ := List.exists_cons_of_ne_nil hne
      rw [hs, List.flatMap_cons] at ih
      rw [splitOn_cons hc, hs, List.flatMap_cons, ← List.singleton_append, letters_append, List.append_assoc, ih,
        ← letters_append, List.singleton_append]

theorem letters_flatten (ls : List (List Char)) : letters ls.flatten = ls.flatMap letters := by
  rw [letters, List.filter_flatten, List.flatMap_def]
  rfl

/-! ## Rows -/

theorem flatten_flush (s : List Char) : (flush s).flatten = s := by
  cases s with
  | nil => rfl
  | cons c s => exact List.append_nil _

theorem mem_flush_iff {s line : List Char} : line ∈ flush s ↔ line = s ∧ s ≠ [] := by
  cases s with
  | nil => exact iff_of_false nofun fun h => h.2 rfl
  | cons c s => exact List.mem_singleton.trans (and_iff_left (List.cons_ne_nil c s)).symm

inductive Row where
  /-- Words that share a line. -/
  | together (ws : List (List Char))
  /-- A word in pieces, each a line of its own, with what is left of it. -/
  | cut (pieces : List (List Char)) (rest : List Char)

namespace Row

def words : Row → List (List Char)
  | together ws => ws
  | cut pieces rest => [pieces.flatten ++ rest]

def lines : Row → List (List Char)
  | together ws => [[' '].intercalate ws]
  | cut pieces rest => pieces ++ flush rest

def Fits (width : Nat) : Row → Prop
  | together ws => ws ≠ [] ∧ ([' '].intercalate ws).length ≤ width
  | cut pieces rest =>
    (∀ piece ∈ pieces, piece.length = width) ∧ rest.length < width ∧ width < (pieces.flatten ++ rest).length

/-- The next row starts with a word that does not fit behind those that share this line. -/
def Full (width : Nat) : Row → Row → Prop
  | together ws, next => ∀ w ∈ next.words.head?, width < ([' '].intercalate ws).length + 1 + w.length
  | cut _ _, _ => True

end Row

structure Filled (width : Nat) (ws : List (List Char)) (rows : List Row) : Prop where
  words : rows.flatMap Row.words = ws
  fits : ∀ row ∈ rows, row.Fits width
  greedy : rows.IsChain (Row.Full width)

namespace Row
variable {width : Nat}

theorem words_ne_nil {row : Row} (h : row.Fits width) : row.words ≠ [] := by
  cases row with
  | together ws => exact h.1
  | cut pieces rest => exact List.cons_ne_nil _ _

theorem letters_lines {row : Row} (h : ∀ w ∈ row.words, IsWord w) :
    row.lines.flatMap letters = row.words.flatten := by
  cases row with
  | together ws =>
    calc [[' '].intercalate ws].flatMap letters
      _ = letters ([' '].intercalate ws) := List.flatMap_singleton ..
      _ = (Text.words ([' '].intercalate ws)).flatten := (flatten_words _).symm
      _ = ws.flatten := congrArg _ (words_intercalate_space h)
  | cut pieces rest =>
    calc (pieces ++ flush rest).flatMap letters
      _ = letters (pieces ++ flush rest).flatten := (letters_flatten _).symm
      _ = letters (pieces.flatten ++ rest) := by rw [List.flatten_append, flatten_flush]
      _ = pieces.flatten ++ rest := letters_of_no_blank (h _ (List.mem_cons_self ..)).2
      _ = [pieces.flatten ++ rest].flatten := (List.append_nil _).symm

/-- The lines of a row hold words, since a piece of a word is one as well. -/
theorem exists_together {row : Row} (hwords : ∀ w ∈ row.words, IsWord w) (hfits : row.Fits width) {line : List Char}
    (hline : line ∈ row.lines) :
    ∃ ws, (together ws).Fits width ∧ (∀ w ∈ ws, IsWord w) ∧ line = [' '].intercalate ws := by
  cases row with
  | together ws => exact ⟨ws, hfits, hwords, List.mem_singleton.mp hline⟩
  | cut pieces rest =>
    obtain ⟨hpieces, hrest, -⟩ := hfits
    have hletter := (hwords _ (List.mem_cons_self ..)).2
    have hpiece : line.length ≤ width ∧ IsWord line := by
      rcases List.mem_append.mp hline with hline | hline
      · have hlen := hpieces line hline
        refine ⟨Nat.le_of_eq hlen, fun hnil => ?_, fun c hc => hletter c ?_⟩
        · rw [hnil, List.length_nil] at hlen
          omega
        · exact List.mem_append_left _ (List.mem_flatten.mpr ⟨line, hline, hc⟩)
      · obtain ⟨rfl, hne⟩ := mem_flush_iff.mp hline
        exact ⟨Nat.le_of_lt hrest, hne, fun c hc => hletter c (List.mem_append_right _ hc)⟩
    have hjoin : [' '].intercalate [line] = line := List.intercalate_singleton ..
    exact ⟨[line], ⟨List.cons_ne_nil _ _, by rw [hjoin]; exact hpiece.1⟩,
      fun w hw => List.mem_singleton.mp hw ▸ hpiece.2, hjoin.symm⟩

def pending (ws : List (List Char)) : List Row := if ws = [] then [] else [together ws]

theorem pending_of_ne_nil {ws : List (List Char)} (h : ws ≠ []) : pending ws = [together ws] := if_neg h

theorem lines_pending {ws : List (List Char)} (h : ∀ w ∈ ws, IsWord w) :
    (pending ws).flatMap lines = flush ([' '].intercalate ws) := by
  by_cases hne : ws = []
  · rw [hne]
    rfl
  · obtain ⟨c, line, hline⟩ := List.exists_cons_of_ne_nil (intercalate_ne_nil hne h)
    rw [pending_of_ne_nil hne, List.flatMap_singleton, lines, hline]
    rfl

end Row

open Row

section
variable {width : Nat} {ws : List (List Char)} {rows : List Row}

theorem filled_pending (h : ([' '].intercalate ws).length ≤ width) : Filled width ws (pending ws) := by
  by_cases hne : ws = []
  · rw [hne]
    exact ⟨rfl, nofun, List.IsChain.nil⟩
  · rw [pending_of_ne_nil hne]
    exact ⟨List.flatMap_singleton .., fun row hrow => List.mem_singleton.mp hrow ▸ ⟨hne, h⟩, List.IsChain.singleton _⟩

theorem Filled.head {row : Row} (h : Filled width ws (row :: rows)) : row.Fits width :=
  h.fits row (List.mem_cons_self ..)

theorem Filled.tail {row : Row} (h : Filled width ws (row :: rows)) : Filled width (rows.flatMap Row.words) rows :=
  ⟨rfl, (List.forall_mem_cons.mp h.fits).2, (List.isChain_cons.mp h.greedy).2⟩

/-- The first row starts with the first word. -/
theorem Filled.head?_words {row : Row} (h : Filled width ws (row :: rows)) : row.words.head? = ws.head? := by
  rw [← h.words, List.flatMap_cons, List.head?_append_of_ne_nil _ (words_ne_nil h.head)]

theorem Filled.ne_nil {row : Row} (h : Filled width ws (row :: rows)) : ws ≠ [] := by
  rw [← h.words, List.flatMap_cons]
  exact List.append_ne_nil_of_left_ne_nil (words_ne_nil h.head) _

theorem Filled.isWord {row : Row} (h : Filled width ws rows) (hws : ∀ w ∈ ws, IsWord w) (hrow : row ∈ rows) :
    ∀ w ∈ row.words, IsWord w := fun w hw => hws w (h.words ▸ List.mem_flatMap_of_mem hrow hw)

theorem Filled.letters_lines (h : Filled width ws rows) (hws : ∀ w ∈ ws, IsWord w) :
    (rows.flatMap Row.lines).flatMap letters = ws.flatten := by
  calc (rows.flatMap Row.lines).flatMap letters
    _ = rows.flatMap fun row => row.lines.flatMap letters := List.flatMap_assoc
    _ = rows.flatMap fun row => row.words.flatten :=
      List.flatMap_congr fun row hrow => Row.letters_lines (h.isWord hws hrow)
    _ = (rows.flatMap Row.words).flatten := by
      rw [List.flatMap_def, List.flatMap_def, List.flatten_flatten, List.map_map]
      rfl
    _ = ws.flatten := congrArg _ h.words

theorem Filled.pending_append {us : List (List Char)} {w : List Char} (h : Filled width (w :: ws) rows)
    (hfits : ([' '].intercalate us).length ≤ width)
    (hfull : width < ([' '].intercalate us).length + 1 + w.length) :
    Filled width (us ++ w :: ws) (pending us ++ rows) where
  words := by rw [List.flatMap_append, (filled_pending hfits).words, h.words]
  fits := List.forall_mem_append.mpr ⟨(filled_pending hfits).fits, h.fits⟩
  greedy := by
    refine List.isChain_append.mpr ⟨(filled_pending hfits).greedy, h.greedy, ?_⟩
    intro row hrow next hnext
    obtain ⟨rest, rfl⟩ := List.head?_eq_some_iff.mp hnext
    by_cases hus : us = []
    · rw [hus] at hrow
      cases hrow
    · rw [pending_of_ne_nil hus] at hrow
      cases hrow
      intro v hv
      rw [h.head?_words] at hv
      cases hv
      exact hfull

theorem Filled.cut_cons (h : Filled width ws rows) {pieces : List (List Char)} {rest : List Char}
    (hfits : (cut pieces rest).Fits width) :
    Filled width ((pieces.flatten ++ rest) :: ws) (cut pieces rest :: rows) where
  words := by rw [List.flatMap_cons, h.words]; rfl
  fits := List.forall_mem_cons.mpr ⟨hfits, h.fits⟩
  greedy := List.isChain_cons.mpr ⟨fun _ _ => trivial, h.greedy⟩

end

/-! ## Filling -/

/-- All pieces but the last are full. -/
theorem exists_chunks (n : Nat) (w : List Char) :
    ∃ pieces rest, chunks n w = pieces ++ flush rest ∧ pieces.flatten ++ rest = w ∧
      (∀ piece ∈ pieces, piece.length = n + 1) ∧ rest.length < n + 1 := by
  fun_induction chunks n w with
  | case1 => exact ⟨[], [], rfl, rfl, List.forall_mem_nil _, Nat.succ_pos n⟩
  | case2 c s ih =>
    by_cases hs : s.length < n
    · refine ⟨[], c :: s, ?_, rfl, List.forall_mem_nil _, Nat.succ_lt_succ hs⟩
      rw [List.take_of_length_le (Nat.le_of_lt hs), List.drop_of_length_le (Nat.le_of_lt hs), chunks]
      rfl
    · obtain ⟨pieces, rest, hchunks, hflat, hpieces, hrest⟩ := ih
      refine ⟨(c :: s.take n) :: pieces, rest, by rw [hchunks, List.cons_append], ?_, ?_, hrest⟩
      · rw [List.flatten_cons, List.append_assoc, hflat, List.cons_append, List.take_append_drop]
      · refine List.forall_mem_cons.mpr ⟨?_, hpieces⟩
        rw [List.length_cons, List.length_take_of_le (Nat.le_of_not_lt hs)]

/-- There are rows for the words of the line under way and those still to come. -/
theorem exists_filled (n : Nat) {ws : List (List Char)} (hws : ∀ w ∈ ws, IsWord w) (current : List (List Char))
    (hcurrent : ∀ w ∈ current, IsWord w) (hfits : ([' '].intercalate current).length ≤ n + 1) :
    ∃ rows, fill n ([' '].intercalate current) ws = rows.flatMap Row.lines ∧ Filled (n + 1) (current ++ ws) rows := by
  induction ws generalizing current with
  | nil =>
    rw [List.append_nil]
    exact ⟨pending current, (lines_pending hcurrent).symm, filled_pending hfits⟩
  | cons w ws ih =>
    obtain ⟨hw, hrest⟩ := List.forall_mem_cons.mp hws
    have hsingle : ∀ v ∈ [w], IsWord v := fun v hv => List.mem_singleton.mp hv ▸ hw
    have hjoin : [' '].intercalate [w] = w := List.intercalate_singleton ..
    rw [fill]
    by_cases hlong : n + 1 < w.length
    · -- The line under way ends, and the word is cut.
      obtain ⟨pieces, rest, hchunks, rfl, hpieces, hshort⟩ := exists_chunks n w
      obtain ⟨rows, hrows, hfilled⟩ := ih hrest [] nofun (Nat.zero_le _)
      have hcut : (cut pieces rest).Fits (n + 1) := ⟨hpieces, hshort, hlong⟩
      refine ⟨pending current ++ cut pieces rest :: rows, ?_, (hfilled.cut_cons hcut).pending_append hfits (by omega)⟩
      rw [if_pos hlong, List.flatMap_append, List.flatMap_cons, lines_pending hcurrent, ← hrows, hchunks,
        List.append_assoc]
      rfl
    rw [if_neg hlong]
    by_cases hempty : current = []
    · -- The word starts a line.
      have hstart := ih hrest [w] hsingle (by rw [hjoin]; exact Nat.le_of_not_lt hlong)
      rw [hjoin] at hstart
      rw [hempty]
      exact hstart
    have hline := intercalate_ne_nil hempty hcurrent
    rw [if_neg fun h => hline (List.isEmpty_iff.mp h)]
    by_cases hfull : n + 1 < ([' '].intercalate current).length + 1 + w.length
    · -- The line under way ends, and the word starts the next one.
      obtain ⟨rows, hrows, hfilled⟩ := ih hrest [w] hsingle (by rw [hjoin]; exact Nat.le_of_not_lt hlong)
      refine ⟨pending current ++ rows, ?_, hfilled.pending_append hfits hfull⟩
      rw [if_pos hfull, pending_of_ne_nil hempty, List.singleton_append, List.flatMap_cons, ← hrows, hjoin]
      rfl
    · -- The word joins the line under way.
      have hgrown : [' '].intercalate (current ++ [w]) = [' '].intercalate current ++ ' ' :: w := by
        rw [intercalate_space_append hempty (List.cons_ne_nil w []), hjoin]
      have hjoined := ih hrest (current ++ [w]) (List.forall_mem_append.mpr ⟨hcurrent, hsingle⟩)
        (by rw [hgrown, List.length_append, List.length_cons]; omega)
      rw [hgrown, List.append_assoc] at hjoined
      rw [if_neg hfull]
      exact hjoined

/-! ## One layout -/

/-- Full pieces and a shorter rest are told by the word that they come of. -/
theorem pieces_unique {width : Nat} {ps qs : List (List Char)} {r t : List Char}
    (hps : ∀ p ∈ ps, p.length = width) (hqs : ∀ q ∈ qs, q.length = width) (hr : r.length < width)
    (ht : t.length < width) (h : ps.flatten ++ r = qs.flatten ++ t) : ps = qs ∧ r = t := by
  induction ps generalizing qs with
  | nil =>
    cases qs with
    | nil => exact ⟨rfl, h⟩
    | cons q qs =>
      have hlen := congrArg List.length h
      simp only [List.flatten_nil, List.nil_append, List.flatten_cons, List.length_append,
        hqs q (List.mem_cons_self ..)] at hlen
      omega
  | cons p ps ih =>
    cases qs with
    | nil =>
      have hlen := congrArg List.length h
      simp only [List.flatten_nil, List.nil_append, List.flatten_cons, List.length_append,
        hps p (List.mem_cons_self ..)] at hlen
      omega
    | cons q qs =>
      obtain ⟨hp, hps'⟩ := List.forall_mem_cons.mp hps
      obtain ⟨hq, hqs'⟩ := List.forall_mem_cons.mp hqs
      rw [List.flatten_cons, List.flatten_cons, List.append_assoc, List.append_assoc] at h
      obtain ⟨rfl, htail⟩ := List.append_inj h (hp.trans hq.symm)
      obtain ⟨rfl, rfl⟩ := ih hps' hqs' htail
      exact ⟨rfl, rfl⟩

theorem length_le_intercalate (w : List Char) (ws : List (List Char)) :
    w.length ≤ ([' '].intercalate (w :: ws)).length := by
  by_cases hne : ws = []
  · rw [hne, List.intercalate_singleton]
  · rw [intercalate_space_cons w hne, List.length_append]
    exact Nat.le_add_right _ _

section
variable {width : Nat} {ws us : List (List Char)} {rows : List Row}

/-- No line holds more of the words than the first row does. -/
theorem Filled.length_le (h : Filled width ws (together us :: rows)) {vs : List (List Char)} (hlead : vs <+: ws)
    (hfits : ([' '].intercalate vs).length ≤ width) : vs.length ≤ us.length := by
  apply Nat.le_of_not_lt
  intro hlt
  have hus : us ≠ [] := h.head.1
  rw [← h.words, List.flatMap_cons] at hlead
  obtain ⟨more, rfl⟩ := List.prefix_of_prefix_length_le (List.prefix_append us _) hlead (Nat.le_of_lt hlt)
  have hmore : more ≠ [] := by
    rintro rfl
    simp at hlt
  obtain ⟨w, more, rfl⟩ := List.exists_cons_of_ne_nil hmore
  have hnext : w :: more <+: rows.flatMap Row.words := (List.prefix_append_right_inj us).mp hlead
  cases rows with
  | nil => exact absurd (List.eq_nil_of_prefix_nil hnext) hmore
  | cons next rows =>
    obtain ⟨rest, hrest⟩ := hnext
    have hfull : width < ([' '].intercalate us).length + 1 + w.length := by
      refine (List.isChain_cons_cons.mp h.greedy).1 w ?_
      rw [h.tail.head?_words, ← hrest]
      rfl
    have hw := length_le_intercalate w more
    rw [intercalate_space_append hus hmore, List.length_append, List.length_cons] at hfits
    omega

/-- A word that is cut fits on no line. -/
theorem Filled.not_cut (h : Filled width ws (together us :: rows)) {pieces : List (List Char)} {rest : List Char}
    {rows' : List Row} : ¬Filled width ws (cut pieces rest :: rows') := by
  intro hcut
  obtain ⟨-, hlen⟩ : (together us).Fits width := h.head
  obtain ⟨-, -, hlong⟩ : (cut pieces rest).Fits width := hcut.head
  obtain ⟨more, rfl⟩ := List.head?_eq_some_iff.mp (h.head?_words.trans hcut.head?_words.symm)
  have hw := length_le_intercalate (pieces.flatten ++ rest) more
  omega

theorem Filled.unique {rows' : List Row} (h : Filled width ws rows) (h' : Filled width ws rows') : rows = rows' := by
  induction rows generalizing ws rows' with
  | nil =>
    cases rows' with
    | nil => rfl
    | cons row' rows' => exact absurd h.words.symm h'.ne_nil
  | cons row rows ih =>
    cases rows' with
    | nil => exact absurd h'.words.symm h.ne_nil
    | cons row' rows' =>
      have hrow : row = row' := by
        cases row with
        | together us =>
          cases row' with
          | together vs =>
            have hus : us <+: ws := ⟨_, h.words⟩
            have hvs : vs <+: ws := ⟨_, h'.words⟩
            have hlen : us.length = vs.length :=
              Nat.le_antisymm (h'.length_le hus h.head.2) (h.length_le hvs h'.head.2)
            rw [(List.prefix_of_prefix_length_le hus hvs (Nat.le_of_eq hlen)).eq_of_length hlen]
          | cut pieces rest => exact absurd h' h.not_cut
        | cut pieces rest =>
          cases row' with
          | together vs => exact absurd h h'.not_cut
          | cut pieces' rest' =>
            obtain ⟨hpieces, hshort, -⟩ : (cut pieces rest).Fits width := h.head
            obtain ⟨hpieces', hshort', -⟩ : (cut pieces' rest').Fits width := h'.head
            have hword := Option.some.inj (h.head?_words.trans h'.head?_words.symm)
            obtain ⟨rfl, rfl⟩ := pieces_unique hpieces hpieces' hshort hshort' hword
            rfl
      cases hrow
      have hwords : rows.flatMap Row.words = rows'.flatMap Row.words :=
        List.append_cancel_left (h.words.trans h'.words.symm)
      have htail := h.tail
      rw [hwords] at htail
      rw [ih htail h'.tail]

end

/-! ## Wrapped texts -/

/-- The lines are those of rows, where each line of the text has rows of its own. -/
def LaidOut (width : Nat) (text : String) (ls : List String) : Prop :=
  ∃ rows : List Char → List Row,
    (∀ paragraph ∈ splitOn '\n' text.toList, Filled width (words paragraph) (rows paragraph)) ∧
      ls.map String.toList = (splitOn '\n' text.toList).flatMap fun paragraph => (rows paragraph).flatMap Row.lines

structure Wraps (width : Nat) (text : String) (ls : List String) : Prop where
  lengths : ∀ line ∈ ls, 1 ≤ line.length ∧ line.length ≤ width
  spacing : ∀ line ∈ ls, SinglySpaced line.toList
  letters : (ls.flatMap fun line => letters line.toList) = letters text.toList
  layout : LaidOut width text ls

theorem laidOut_wrap (text : String) (width : Nat) : LaidOut (max width 1) text (wrap text width) := by
  have hwidth : width - 1 + 1 = max width 1 := by omega
  have hfilled : ∀ paragraph, ∃ rows, fill (width - 1) [] (words paragraph) = rows.flatMap Row.lines ∧
      Filled (max width 1) (words paragraph) rows := by
    intro paragraph
    rw [← hwidth]
    exact exists_filled (width - 1) (fun w hw => isWord_of_mem_words hw) [] nofun (Nat.zero_le _)
  obtain ⟨rows, hrows⟩ := Classical.axiomOfChoice hfilled
  have htoList : String.toList ∘ String.ofList = id := funext fun _ => String.toList_ofList
  refine ⟨rows, fun paragraph _ => (hrows paragraph).2, ?_⟩
  rw [wrap, List.map_flatMap]
  congr 1
  funext paragraph
  rw [List.map_map, htoList, List.map_id, (hrows paragraph).1]

namespace LaidOut
variable {width : Nat} {text : String} {ls : List String}

theorem unique {ls' : List String} (h : LaidOut width text ls) (h' : LaidOut width text ls') : ls = ls' := by
  obtain ⟨rows, hfilled, hls⟩ := h
  obtain ⟨rows', hfilled', hls'⟩ := h'
  apply List.map_injective_iff.mpr fun _ _ => String.toList_injective
  rw [hls, hls']
  exact List.flatMap_congr fun p hp => by rw [(hfilled p hp).unique (hfilled' p hp)]

theorem exists_words (h : LaidOut width text ls) {line : String} (hline : line ∈ ls) :
    ∃ ws, (together ws).Fits width ∧ (∀ w ∈ ws, IsWord w) ∧ line.toList = [' '].intercalate ws := by
  obtain ⟨rows, hfilled, hls⟩ := h
  have hmem : line.toList ∈ ls.map String.toList := List.mem_map_of_mem hline
  rw [hls] at hmem
  obtain ⟨p, hp, hmem⟩ := List.mem_flatMap.mp hmem
  obtain ⟨row, hrow, hmem⟩ := List.mem_flatMap.mp hmem
  have hword := (hfilled p hp).isWord (fun w hw => isWord_of_mem_words hw) hrow
  exact exists_together hword ((hfilled p hp).fits row hrow) hmem

theorem wraps (h : LaidOut width text ls) : Wraps width text ls where
  lengths line hline := by
    obtain ⟨ws, ⟨hne, hlen⟩, hws, htext⟩ := h.exists_words hline
    rw [← String.length_toList, htext]
    exact ⟨List.length_pos_iff.mpr (intercalate_ne_nil hne hws), hlen⟩
  spacing line hline := by
    obtain ⟨ws, -, hws, htext⟩ := h.exists_words hline
    rw [htext]
    exact singlySpaced_intercalate hws
  letters := by
    obtain ⟨rows, hfilled, hls⟩ := h
    calc (ls.flatMap fun line => Text.letters line.toList)
      _ = (ls.map String.toList).flatMap Text.letters := List.flatMap_map .. |>.symm
      _ = (splitOn '\n' text.toList).flatMap fun p => ((rows p).flatMap Row.lines).flatMap Text.letters := by
        rw [hls, List.flatMap_assoc]
      _ = (splitOn '\n' text.toList).flatMap Text.letters := List.flatMap_congr fun p hp => by
        rw [(hfilled p hp).letters_lines fun w hw => isWord_of_mem_words hw, flatten_words]
      _ = Text.letters text.toList := letters_splitOn (by decide) _
  layout := h

theorem newline_not_mem (h : LaidOut width text ls) {line : String} (hline : line ∈ ls) : '\n' ∉ line.toList := by
  intro hc
  exact absurd ((h.wraps.spacing line hline).spaces _ hc (by decide)) (by decide)

/-- The lines are a layout of what they come to when they are joined. -/
theorem joined (h : LaidOut width text ls) : LaidOut width ("\n".intercalate ls) ls := by
  have hline : ∀ line ∈ ls, Filled width (words line.toList) (pending (words line.toList)) ∧
      (pending (words line.toList)).flatMap Row.lines = [line.toList] := by
    intro line hline
    obtain ⟨ws, ⟨hne, hlen⟩, hws, htext⟩ := h.exists_words hline
    have hwords : words line.toList = ws := by rw [htext, words_intercalate_space hws]
    refine ⟨filled_pending (by rwa [hwords]), ?_⟩
    rw [hwords, pending_of_ne_nil hne, htext]
    rfl
  refine ⟨fun paragraph => pending (words paragraph), ?_⟩
  by_cases hls : ls = []
  · rw [hls]
    exact ⟨fun paragraph hp => List.mem_singleton.mp hp ▸ filled_pending (Nat.zero_le _), rfl⟩
  · rw [splitOn_newline_intercalate hls fun line => h.newline_not_mem]
    refine ⟨List.forall_mem_map.mpr fun line hmem => (hline line hmem).1, ?_⟩
    rw [List.flatMap_map, List.flatMap_congr fun line hmem => (hline line hmem).2]
    exact List.map_eq_flatMap

end LaidOut

/-- The lines of a wrapped text have at most `width` characters and one space between any two words, keep the letters
of the text and fill up before the next one begins. A word is cut only where it is longer than a line. The text has no
other lines of that kind, and wrapping them again changes nothing. -/
theorem wrap_fills_greedily (text : String) (width : Nat) :
    Wraps (max width 1) text (wrap text width) ∧ (∀ ls, Wraps (max width 1) text ls → ls = wrap text width) ∧
      wrap ("\n".intercalate (wrap text width)) width = wrap text width :=
  have hlayout := laidOut_wrap text width
  ⟨hlayout.wraps, fun _ h => h.layout.unique hlayout, (laidOut_wrap _ width).unique hlayout.joined⟩

example : wrap "first line\n\nabcdefghij kl" 4 = ["firs", "t", "line", "abcd", "efgh", "ij", "kl"] := by
  decide +kernel

end AccessList.Text
