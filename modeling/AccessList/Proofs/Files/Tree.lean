import Mathlib.Data.List.Infix
import AccessList.Files
import AccessList.Proofs.Traversal

/-!
# What a write does to a file tree

A path leads to a place in the tree whose parents are directories. A file that is written is there afterwards with its
text, every other place is as it was, and all paths lead where they led.
-/

namespace AccessList.FileTree

variable {t t' : FileTree} {dir names other : List String} {pieces : List String} {path text : String}

/-! ## Where paths lead -/

def Reached (t : FileTree) (names : List String) : Prop := ∀ other, other <+: names → t.entry? other = some .directory

theorem entry?_of_isAbove (h : isAbove names = true) : t.entry? names = some .directory := by
  unfold entry?
  rw [if_pos h]

theorem isAbove_of_isPrefix (h : isAbove names = true) (hother : other <+: names) : isAbove other = true := by
  unfold isAbove at h ⊢
  simp only [Bool.or_eq_true, List.all_eq_true, beq_iff_eq] at h ⊢
  rcases h with h | h
  · exact .inl fun name hname => h name (hother.subset hname)
  · rw [h] at hother
    rcases List.prefix_cons_iff.mp hother with rfl | ⟨rest, rfl, hrest⟩
    · exact .inl nofun
    · rw [List.prefix_nil.mp hrest]
      exact .inr rfl

theorem reached_of_isAbove (h : isAbove names = true) : t.Reached names := fun _ hother =>
  entry?_of_isAbove (isAbove_of_isPrefix h hother)

theorem reached_parent (h : t.Reached names) : t.Reached (parent names) := by
  unfold parent
  by_cases hroot : (names == root) = true
  · rw [if_pos hroot]
    exact reached_of_isAbove (by decide)
  rw [if_neg hroot]
  by_cases habove : isAbove names = true
  · rw [if_pos habove]
    apply reached_of_isAbove
    have hdots : names.all (· == "..") = true := by
      unfold isAbove at habove
      simpa [hroot] using habove
    unfold isAbove
    simp [hdots]
  · rw [if_neg habove]
    exact fun other hother => h other (hother.trans (List.dropLast_prefix names))

theorem reached_append {piece : String} (h : t.Reached dir) (hpiece : t.entry? (dir ++ [piece]) = some .directory) :
    t.Reached (dir ++ [piece]) := by
  intro other hother
  rcases List.prefix_concat_iff.mp hother with rfl | hother
  · exact hpiece
  · exact h other hother

/-- The parents of a place that a path leads to are directories. -/
theorem parents_of_follow (h : t.follow dir pieces = .ok names) (hdir : t.Reached dir) :
    ∀ other, other <+: names → other ≠ names → t.entry? other = some .directory := by
  fun_induction follow t dir pieces with
  | case1 dir =>
    cases h
    exact fun other hother _ => hdir other hother
  | case2 dir piece rest hskip ih => exact ih h hdir
  | case3 dir rest hskip ih => exact ih h (reached_parent hdir)
  | case4 => cases h
  | case5 dir piece rest hskip hup hlong hlast =>
    cases h
    intro other hother hne
    rcases List.prefix_concat_iff.mp hother with rfl | hother
    · exact absurd rfl hne
    · exact hdir other hother
  | case6 dir piece rest hskip hup hlong hlast hentry ih => exact ih h (reached_append hdir hentry)
  | case7 => cases h
  | case8 => cases h

/-- Without a name at its end, a path leads to a directory. -/
theorem reached_of_follow (h : t.follow dir pieces = .ok names) (hdir : t.Reached dir)
    (hlast : ∀ name ∈ (pieces.filter fun p => !p.isEmpty && p != ".").getLast?, name = "..") : t.Reached names := by
  have hrest : ∀ {piece : String} {rest : List String},
      (∀ name ∈ (piece :: rest).getLast?, name = "..") → ∀ name ∈ rest.getLast?, name = ".." := by
    intro piece rest h name hname
    apply h name
    rw [List.getLast?_cons, hname]
    rfl
  fun_induction follow t dir pieces with
  | case1 dir =>
    cases h
    exact hdir
  | case2 dir piece rest hskip ih =>
    rw [List.filter_cons_of_neg (by simpa [Classical.or_iff_not_imp_left] using hskip)] at hlast
    exact ih h hdir hlast
  | case3 dir rest hskip ih =>
    rw [List.filter_cons_of_pos (by decide)] at hlast
    exact ih h (reached_parent hdir) (hrest hlast)
  | case4 => cases h
  | case5 dir piece rest hskip hup hlong hempty =>
    rw [List.isEmpty_iff.mp hempty, List.filter_cons_of_pos (by simpa using hskip)] at hlast
    exact absurd (hlast piece rfl) hup
  | case6 dir piece rest hskip hup hlong hempty hentry ih =>
    rw [List.filter_cons_of_pos (by simpa using hskip)] at hlast
    exact ih h (reached_append hdir hentry) (hrest hlast)
  | case7 => cases h
  | case8 => cases h

theorem find_eq_ok_iff : t.find path = .ok names ↔
    Path.hasEnd path = false ∧ path.isEmpty = false ∧ path.utf8ByteSize ≤ Path.maxLength ∧
      t.follow (if Path.isAbsolute path then root else []) (Path.pieces path) = .ok names := by
  unfold find
  by_cases hend : Path.hasEnd path = true
  · simp [hend]
  rw [if_neg hend]
  by_cases hempty : path.isEmpty = true
  · simp [hempty]
  rw [if_neg hempty]
  by_cases hlong : Path.maxLength < path.utf8ByteSize
  · simp [Nat.not_le.mpr hlong, hlong]
  · rw [if_neg hlong]
    simp [hend, hempty, Nat.not_lt.mp hlong]

theorem reached_start (path : String) : t.Reached (if Path.isAbsolute path then root else []) := by
  by_cases h : Path.isAbsolute path = true
  · rw [if_pos h]
    exact reached_of_isAbove (by decide)
  · rw [if_neg h]
    exact reached_of_isAbove (by decide)

theorem read_eq_ok_iff : t.read path = .ok text ↔
    ∃ names, t.find path = .ok names ∧ t.entry? names = some (.file (some text)) := by
  unfold read
  rw [bind_eq_ok_iff]
  refine exists_congr fun names => and_congr_right fun _ => ?_
  cases t.entry? names with
  | none => exact ⟨nofun, nofun⟩
  | some entry =>
    cases entry with
    | directory => exact ⟨nofun, nofun⟩
    | file text' =>
      cases text' with
      | none => exact ⟨nofun, nofun⟩
      | some text' => simp [pure, Except.pure]

/-- A file that can be read has a name. -/
theorem fileName?_of_read (h : t.read path = .ok text) : ∃ name, Path.fileName? path = some name := by
  obtain ⟨names, hfind, hentry⟩ := read_eq_ok_iff.mp h
  obtain ⟨-, -, -, hfollow⟩ := find_eq_ok_iff.mp hfind
  apply Option.ne_none_iff_exists'.mp; intro hnone
  have hdirectory : t.entry? names = some .directory := by
    refine reached_of_follow hfollow (reached_start path) ?_ names (List.prefix_refl _)
    intro name hname
    unfold Path.fileName? at hnone
    rw [hname, Option.filter_some] at hnone
    simpa using hnone
  rw [hdirectory] at hentry
  cases hentry

/-! ## What a write changes -/

def table (t : FileTree) : List (List String × FileEntry) := t.entries ++ systemEntries

/-- A place is what it is listed as, or a directory on the way to something that is listed. -/
theorem entry?_eq (habove : isAbove names = false) :
    t.entry? names =
      (t.table.lookup names).or (if ∃ entry ∈ t.table, names <+: entry.1 then some .directory else none) := by
  have hany : (t.table.any fun entry => names.isPrefixOf entry.1) = true ↔ ∃ entry ∈ t.table, names <+: entry.1 := by
    simp
  unfold table at hany ⊢
  unfold entry?
  rw [if_neg (by simp [habove])]
  dsimp only
  cases (t.entries ++ systemEntries).lookup names with
  | some e => rfl
  | none => simp only [hany, Option.none_or]

section
variable {entries : List (List String × FileEntry)} {new : FileEntry}

theorem lookup_replace_ne (h : other ≠ names) :
    (entries.map fun (ns, e) => if ns = names then (ns, new) else (ns, e)).lookup other = entries.lookup other := by
  induction entries with
  | nil => rfl
  | cons entry entries ih =>
    obtain ⟨ns, e⟩ := entry
    by_cases hns : ns = names
    · have hother : (other == ns) = false := by simpa [hns] using h
      simp [hns, List.lookup_cons, ih, hns ▸ hother]
    · simp [hns, List.lookup_cons, ih]

theorem lookup_replace (h : entries.any (·.1 == names) = true) :
    (entries.map fun (ns, e) => if ns = names then (ns, new) else (ns, e)).lookup names = some new := by
  induction entries with
  | nil => cases h
  | cons entry entries ih =>
    obtain ⟨ns, e⟩ := entry
    by_cases hns : ns = names
    · simp [hns]
    · have hrest : entries.any (·.1 == names) = true := by simpa [hns] using h
      have hne : (names == ns) = false := by simpa using Ne.symm hns
      simp [hns, List.lookup_cons, hne, ih hrest]

end

theorem lookup_table_put_of_ne (h : other ≠ names) : (t.put names text).table.lookup other = t.table.lookup other := by
  unfold table put
  by_cases hkey : t.entries.any (·.1 == names) = true
  · rw [if_pos hkey, List.lookup_append, List.lookup_append, lookup_replace_ne h]
  · have hbeq : (other == names) = false := beq_eq_false_iff_ne.mpr h
    rw [if_neg hkey, List.lookup_append, List.lookup_append, List.lookup_append]
    simp [List.lookup_cons, hbeq]

theorem lookup_table_put : (t.put names text).table.lookup names = some (.file (some text)) := by
  unfold table put
  by_cases hkey : t.entries.any (·.1 == names) = true
  · rw [if_pos hkey, List.lookup_append, lookup_replace hkey, Option.some_or]
  · have hnone : t.entries.lookup names = none := by
      apply List.lookup_eq_none_iff.mpr
      intro entry hentry
      apply bne_iff_ne.mpr; intro heq
      exact hkey (List.any_eq_true.mpr ⟨entry, hentry, beq_iff_eq.mpr heq.symm⟩)
    rw [if_neg hkey, List.lookup_append, List.lookup_append, hnone]
    simp

theorem exists_mem_table_put {P : List String → Prop} :
    (∃ entry ∈ (t.put names text).table, P entry.1) ↔ (∃ entry ∈ t.table, P entry.1) ∨ P names := by
  unfold table put
  by_cases hkey : t.entries.any (·.1 == names) = true
  · have hfirst : ∀ entry : List String × FileEntry,
        (if entry.1 = names then (entry.1, FileEntry.file (some text)) else (entry.1, entry.2)).1 = entry.1 := by
      intro entry
      by_cases h : entry.1 = names <;> simp [h]
    have hthere : P names → ∃ entry ∈ t.entries ++ systemEntries, P entry.1 := by
      intro hP
      obtain ⟨entry, hentry, heq⟩ := List.any_eq_true.mp hkey
      exact ⟨entry, List.mem_append_left _ hentry, beq_iff_eq.mp heq ▸ hP⟩
    rw [if_pos hkey, or_iff_left_of_imp hthere]
    simp only [List.mem_append, or_and_right, exists_or, List.mem_map, exists_exists_and_eq_and, hfirst]
  · rw [if_neg hkey]
    simp only [List.mem_append, or_and_right, exists_or, List.mem_singleton, exists_eq_left]
    rw [or_right_comm]

theorem entry?_put (habove : isAbove names = false) : entry? (t.put names text) names = some (.file (some text)) := by
  rw [entry?_eq habove, lookup_table_put, Option.some_or]

/-- Nothing else changes where the parents of the place are directories. -/
theorem entry?_put_of_ne (hne : other ≠ names) (hparent : other <+: names → t.entry? other = some .directory) :
    entry? (t.put names text) other = t.entry? other := by
  by_cases habove : isAbove other = true
  · rw [entry?_of_isAbove habove, entry?_of_isAbove habove]
  rw [Bool.not_eq_true] at habove
  by_cases hprefix : other <+: names
  · rw [hparent hprefix, entry?_eq habove, lookup_table_put_of_ne hne]
    rw [entry?_eq habove] at hparent
    have hthere := hparent hprefix
    cases hlookup : t.table.lookup other with
    | some e =>
      rw [hlookup] at hthere
      exact hthere
    | none => rw [Option.none_or, if_pos (exists_mem_table_put.mpr (.inr hprefix))]
  · rw [entry?_eq habove, entry?_eq habove, lookup_table_put_of_ne hne]
    simp only [exists_mem_table_put, hprefix, or_false]

/-- The second tree is the first one with a text in a place that was no directory. -/
structure Written (t t' : FileTree) (names : List String) (text : String) : Prop where
  free : t.entry? names ≠ some .directory
  there : t'.entry? names = some (.file (some text))
  elsewhere : ∀ other, other ≠ names → t'.entry? other = t.entry? other

theorem written_of_write (h : t.write path text = .ok t') :
    ∃ names, t.find path = .ok names ∧ t.Written t' names text := by
  unfold write at h
  obtain ⟨names, hfind, h⟩ := bind_eq_ok_iff.mp h
  obtain ⟨-, -, -, hfollow⟩ := find_eq_ok_iff.mp hfind
  have hfree : t.entry? names ≠ some .directory := by
    intro hdirectory
    rw [hdirectory] at h
    cases h
  have hput : t' = t.put names text := by
    cases hentry : t.entry? names with
    | none =>
      rw [hentry] at h
      cases h
      rfl
    | some entry =>
      rw [hentry] at h
      cases entry with
      | directory => cases h
      | file _ =>
        cases h
        rfl
  have habove : isAbove names = false := Bool.eq_false_iff.mpr fun habove => hfree <| entry?_of_isAbove habove
  subst hput
  refine ⟨names, hfind, hfree, entry?_put habove, fun other hne => entry?_put_of_ne hne fun hprefix => ?_⟩
  exact parents_of_follow hfollow (reached_start path) other hprefix hne

namespace Written

theorem follow_eq_ok_iff (h : t.Written t' names text) :
    t'.follow dir pieces = .ok other ↔ t.follow dir pieces = .ok other := by
  induction pieces generalizing dir with
  | nil => exact Iff.rfl
  | cons piece rest ih =>
    unfold follow
    by_cases hskip : (piece.isEmpty || piece = ".") = true
    · rw [if_pos hskip, if_pos hskip]
      exact ih
    rw [if_neg hskip, if_neg hskip]
    by_cases hup : piece = ".."
    · rw [if_pos hup, if_pos hup]
      exact ih
    rw [if_neg hup, if_neg hup]
    by_cases hlong : Path.maxName < piece.utf8ByteSize
    · rw [if_pos hlong, if_pos hlong]
    rw [if_neg hlong, if_neg hlong]
    by_cases hlast : rest.isEmpty = true
    · rw [if_pos hlast, if_pos hlast]
    rw [if_neg hlast, if_neg hlast]
    by_cases hhere : dir ++ [piece] = names
    -- What is written cannot be gone through, before and after.
    · rw [hhere, h.there]
      cases hentry : t.entry? names with
      | none => exact ⟨nofun, nofun⟩
      | some entry =>
        cases entry with
        | directory => exact absurd hentry h.free
        | file _ => exact Iff.rfl
    · rw [h.elsewhere _ hhere]
      cases t.entry? (dir ++ [piece]) with
      | none => exact Iff.rfl
      | some entry =>
        cases entry with
        | directory => exact ih
        | file _ => exact Iff.rfl

theorem find_eq_ok_iff (h : t.Written t' names text) : t'.find path = .ok other ↔ t.find path = .ok other := by
  rw [FileTree.find_eq_ok_iff, FileTree.find_eq_ok_iff, h.follow_eq_ok_iff]

theorem read_eq_ok_iff (h : t.Written t' names text) (hpath : t.find path ≠ .ok names) {contents : String} :
    t'.read path = .ok contents ↔ t.read path = .ok contents := by
  rw [FileTree.read_eq_ok_iff, FileTree.read_eq_ok_iff]
  refine exists_congr fun other => ?_
  rw [h.find_eq_ok_iff]
  refine and_congr_right fun hother => ?_
  rw [h.elsewhere other fun heq => hpath (heq ▸ hother)]

end Written

end AccessList.FileTree
