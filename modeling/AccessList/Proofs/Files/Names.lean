import AccessList.Proofs.Files.Tree
import AccessList.Proofs.Text.Lines

/-!
# Where the configuration of a policy goes

The file is called after the stem of the policy file, in a directory that the output directory alone decides. So two
policies go to one place just when their files have one stem.
-/

namespace AccessList

namespace Path

variable {path dir name x : String}

/-! ## Names in paths -/

theorem name_of_fileName? (h : fileName? path = some name) : name ≠ "" ∧ '/' ∉ name.toList := by
  unfold fileName? at h
  obtain ⟨hlast, -⟩ := Option.filter_eq_some_iff.mp h
  obtain ⟨hmem, hname⟩ := List.mem_filter.mp (List.mem_of_getLast? hlast)
  obtain ⟨p, hp, rfl⟩ := List.mem_map.mp hmem
  refine ⟨fun hempty => ?_, ?_⟩
  · rw [hempty] at hname
    exact absurd hname (by decide)
  · rw [String.toList_ofList]
    exact Text.not_mem_of_mem_splitOn hp

/-- A stem is a name too. -/
theorem name_of_stem? (h : stem? path = some x) : x ≠ "" ∧ '/' ∉ x.toList := by
  obtain ⟨name, hname, rfl⟩ := Option.map_eq_some_iff.mp h
  have hspec := name_of_fileName? hname
  unfold splitName
  cases hs : Text.splitLast '.' name.toList with
  | none => exact hspec
  | some parts =>
    obtain ⟨front, back⟩ := parts
    cases front with
    | nil => exact hspec
    | cons c front =>
      refine ⟨fun hempty => ?_, fun hslash => ?_⟩
      · have hlist := congrArg String.toList hempty
        simp at hlist
      · apply hspec.2
        rw [(Text.splitLast_eq_some_iff.mp hs).1]
        exact List.mem_append_left _ (by simpa using hslash)

def dirPieces (dir : String) : List String :=
  if dir.isEmpty then [] else if dir.toList.getLast? = some '/' then (pieces dir).dropLast else pieces dir

theorem isAbsolute_of_name (hx : '/' ∉ x.toList) : isAbsolute x = false := by
  unfold isAbsolute
  cases hlist : x.toList with
  | nil => rfl
  | cons c cs =>
    rw [hlist] at hx
    have hc : c ≠ '/' := fun hc => hx (hc ▸ List.mem_cons_self ..)
    simpa using hc

theorem isAbsolute_join (hx : '/' ∉ x.toList) : isAbsolute (join dir x) = isAbsolute dir := by
  have hrelative := isAbsolute_of_name hx
  unfold join
  by_cases hempty : dir.isEmpty = true
  · rw [if_pos (by simp [hempty]), hrelative, String.isEmpty_iff.mp hempty]
    rfl
  rw [if_neg (by simp [hempty, hrelative])]
  obtain ⟨c, cs, hlist⟩ := List.exists_cons_of_ne_nil (mt String.toList_eq_nil_iff.mp (mt String.isEmpty_iff.mpr hempty))
  unfold isAbsolute
  by_cases hslash : dir.toList.getLast? = some '/'
  · rw [if_pos hslash, String.toList_append, hlist]
    rfl
  · rw [if_neg hslash, String.toList_append, String.toList_append, hlist]
    rfl

theorem pieces_join (hx : '/' ∉ x.toList) : pieces (join dir x) = dirPieces dir ++ [x] := by
  have hrelative := isAbsolute_of_name hx
  have hself : (Text.splitOn '/' x.toList).map String.ofList = [x] := by
    rw [Text.splitOn_of_not_mem hx]
    simp
  unfold join dirPieces
  by_cases hempty : dir.isEmpty = true
  · rw [if_pos (by simp [hempty]), if_pos hempty]
    exact hself
  rw [if_neg (by simp [hempty, hrelative]), if_neg hempty]
  unfold pieces
  by_cases hslash : dir.toList.getLast? = some '/'
  · obtain ⟨front, hfront⟩ := List.getLast?_eq_some_iff.mp hslash
    rw [if_pos hslash, if_pos hslash, String.toList_append, hfront, List.append_assoc, List.singleton_append,
      Text.splitOn_append, Text.splitOn_append, List.map_append, hself]
    simp [Text.splitOn]
  · rw [if_neg hslash, if_neg hslash, String.toList_append, String.toList_append]
    have hsep : dir.toList ++ "/".toList ++ x.toList = dir.toList ++ '/' :: x.toList := by simp
    rw [hsep, Text.splitOn_append, List.map_append, hself]

end Path

namespace FileTree

variable {t : FileTree} {dir names names' : List String} {path policy policy' x x' out : String}

/-- A name at the end of a path is that of a place in the directory that the rest of the path leads to. -/
theorem follow_name_iff {front : List String} (hname : x.isEmpty = false) (hdot : x ≠ ".") (hup : x ≠ "..") :
    t.follow dir (front ++ [x]) = .ok names ↔
      ∃ d, t.follow dir (front ++ [""]) = .ok d ∧ x.utf8ByteSize ≤ Path.maxName ∧ names = d ++ [x] := by
  induction front generalizing dir with
  | nil =>
    have hdir : t.follow dir [""] = .ok dir := rfl
    rw [List.nil_append, List.nil_append, follow, if_neg (by simp [hname, hdot]), if_neg hup, hdir]
    by_cases hlong : Path.maxName < x.utf8ByteSize
    · simp [hlong, Nat.not_le.mpr hlong]
    · simp [hlong, Nat.not_lt.mp hlong, eq_comm]
  | cons piece front ih =>
    rw [List.cons_append, List.cons_append, follow, follow]
    by_cases hskip : (piece.isEmpty || piece = ".") = true
    · rw [if_pos hskip, if_pos hskip]
      exact ih
    rw [if_neg hskip, if_neg hskip]
    by_cases hpiece : piece = ".."
    · rw [if_pos hpiece, if_pos hpiece]
      exact ih
    rw [if_neg hpiece, if_neg hpiece]
    by_cases hlong : Path.maxName < piece.utf8ByteSize
    · rw [if_pos hlong, if_pos hlong]
      exact ⟨nofun, nofun⟩
    rw [if_neg hlong, if_neg hlong, if_neg (by simp), if_neg (by simp)]
    cases t.entry? (dir ++ [piece]) with
    | none => exact ⟨nofun, nofun⟩
    | some entry =>
      cases entry with
      | directory => exact ih
      | file _ => exact ⟨nofun, nofun⟩

/-- The name of an output is that of a file, whatever the stem is. -/
theorem output_name (h : Path.stem? policy = some x) :
    (x ++ ".acl").isEmpty = false ∧ x ++ ".acl" ≠ "." ∧ x ++ ".acl" ≠ ".." ∧ '/' ∉ (x ++ ".acl").toList := by
  have hlong : ∀ y : String, y.toList.length < 4 → x ++ ".acl" ≠ y := by
    intro y hy heq
    have hlength := congrArg (·.toList.length) heq
    simp at hlength
    omega
  refine ⟨?_, hlong _ (by decide), hlong _ (by decide), ?_⟩
  · exact Bool.eq_false_iff.mpr fun hempty => hlong "" (by decide) (String.isEmpty_iff.mp hempty)
  · have hslash := (Path.name_of_stem? h).2
    simpa using hslash

/-- The directory of an output is the same for all policies. -/
theorem find_output (h : Path.stem? policy = some x) (hfind : t.find (Path.output policy out) = .ok names) :
    ∃ d, t.follow (if Path.isAbsolute out then root else []) (Path.dirPieces out ++ [""]) = .ok d ∧
      names = d ++ [x ++ ".acl"] := by
  obtain ⟨hname, hdot, hup, hslash⟩ := output_name h
  obtain ⟨-, -, -, hfollow⟩ := find_eq_ok_iff.mp hfind
  unfold Path.output at hfollow
  rw [h, Option.getD_some, Path.pieces_join hslash, Path.isAbsolute_join hslash,
    follow_name_iff hname hdot hup] at hfollow
  obtain ⟨d, hd, -, hnames⟩ := hfollow
  exact ⟨d, hd, hnames⟩

theorem output_eq_iff (h : Path.stem? policy = some x) (h' : Path.stem? policy' = some x')
    (hfind : t.find (Path.output policy out) = .ok names) (hfind' : t.find (Path.output policy' out) = .ok names') :
    names = names' ↔ x = x' := by
  obtain ⟨d, hd, rfl⟩ := find_output h hfind
  obtain ⟨d', hd', rfl⟩ := find_output h' hfind'
  rw [hd] at hd'
  cases hd'
  rw [List.append_right_inj, List.singleton_inj, String.append_left_inj]

theorem stem?_of_read {text : String} (h : t.read path = .ok text) : ∃ x, Path.stem? path = some x := by
  obtain ⟨name, hname⟩ := fileName?_of_read h
  unfold Path.stem?
  rw [hname]
  exact ⟨_, rfl⟩

end FileTree

end AccessList
