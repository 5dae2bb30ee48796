import AccessList.Net.AddressText

/-!
# The written form of an address

An IPv6 address outside `::ffff:0:0/96` is written with `::` for the first longest run of two or more zero groups. A
list has one such run at most, so the form settles the text.
-/

namespace AccessList

/-! ## The first longest run of zeros -/

/-- The zeros between `front` and `back` are a longest run of a list, and no run of that length starts before them. -/
structure LongestZeros (gs front : List Nat) (k : Nat) (back : List Nat) : Prop where
  split : gs = front ++ List.replicate k 0 ++ back
  longest : ∀ front' k' back', gs = front' ++ List.replicate k' 0 ++ back' → k' ≤ k
  first : ∀ front' back', gs = front' ++ List.replicate k 0 ++ back' → front.length ≤ front'.length

namespace LongestZeros
variable {gs front front' back back' : List Nat} {k k' : Nat}

theorem unique (h : LongestZeros gs front k back) (h' : LongestZeros gs front' k' back') :
    front = front' ∧ k = k' ∧ back = back' := by
  obtain rfl : k = k' := Nat.le_antisymm (h'.longest _ _ _ h.split) (h.longest _ _ _ h'.split)
  have hstart : front.length = front'.length := Nat.le_antisymm (h.first _ _ h'.split) (h'.first _ _ h.split)
  obtain ⟨hrun, rfl⟩ := List.append_inj (h.split.symm.trans h'.split) (by simp [hstart])
  exact ⟨(List.append_inj hrun hstart).1, rfl, rfl⟩

theorem take (h : LongestZeros gs front k back) : gs.take front.length = front := by
  rw [h.split, List.append_assoc, List.take_left]

theorem drop (h : LongestZeros gs front k back) : gs.drop (front.length + k) = back := by
  rw [h.split]
  exact List.drop_left' (by simp)

/-- Two zeros beside each other are a run of two. -/
theorem two_le_iff (h : LongestZeros gs front k back) : 2 ≤ k ↔ ∃ front' back', gs = front' ++ [0, 0] ++ back' := by
  constructor
  · intro hk
    obtain ⟨n, rfl⟩ := Nat.exists_eq_add_of_le hk
    refine ⟨front, List.replicate n 0 ++ back, ?_⟩
    rw [h.split, ← List.replicate_append_replicate]
    simp [List.replicate]
  · rintro ⟨front', back', hsplit⟩
    exact h.longest front' 2 back' hsplit

end LongestZeros

namespace Address

open Text

theorem take_zeros (gs : List Nat) : gs.take (zeros gs) = List.replicate (zeros gs) 0 := by
  have htake : gs.takeWhile (· == 0) = gs.take (zeros gs) := List.prefix_iff_eq_take.mp (List.takeWhile_prefix _)
  rw [← htake, List.eq_replicate_iff]
  exact ⟨rfl, fun g hg => by simpa using List.all_eq_true.mp List.all_takeWhile g hg⟩

theorem le_zeros (k : Nat) (back : List Nat) : k ≤ zeros (List.replicate k 0 ++ back) := by
  rw [zeros, List.takeWhile_append_of_pos (by simp), List.length_append, List.length_replicate]
  exact Nat.le_add_right _ _

theorem longestZeros_zeroRun (gs : List Nat) (i : Nat) : ∃ front back,
    LongestZeros gs front (zeroRun i gs).2 back ∧ (zeroRun i gs).1 = i + front.length := by
  induction gs generalizing i with
  | nil =>
    refine ⟨[], [], ⟨rfl, fun front' k' back' h => ?_, fun _ _ _ => Nat.zero_le _⟩, rfl⟩
    have hlen := congrArg List.length h
    simp at hlen
    omega
  | cons g gs ih =>
    obtain ⟨front, back, hrun, hstart⟩ := ih (i + 1)
    -- A run starts at the head of the list or is one of the rest.
    have hcases : ∀ front' k' back', g :: gs = front' ++ List.replicate k' 0 ++ back' →
        k' ≤ zeros (g :: gs) ∨ ∃ rest, front' = g :: rest ∧ gs = rest ++ List.replicate k' 0 ++ back' := by
      intro front' k' back' h
      cases front' with
      | nil => exact .inl (h ▸ le_zeros k' back')
      | cons g' rest =>
        obtain ⟨rfl, hrest⟩ := List.cons.inj h
        exact .inr ⟨rest, rfl, hrest⟩
    rw [zeroRun]
    by_cases hhead : (zeroRun (i + 1) gs).2 ≤ zeros (g :: gs)
    · rw [if_pos hhead]
      refine ⟨[], (g :: gs).drop (zeros (g :: gs)), ⟨?_, ?_, fun _ _ _ => Nat.zero_le _⟩, rfl⟩
      · rw [List.nil_append, ← take_zeros, List.take_append_drop]
      · intro front' k' back' h
        rcases hcases front' k' back' h with hle | ⟨rest, -, hrest⟩
        · exact hle
        · exact Nat.le_trans (hrun.longest _ _ _ hrest) hhead
    · rw [if_neg hhead]
      refine ⟨g :: front, back, ⟨?_, ?_, ?_⟩, ?_⟩
      · rw [List.cons_append, List.cons_append, ← hrun.split]
      · intro front' k' back' h
        rcases hcases front' k' back' h with hle | ⟨rest, -, hrest⟩
        · exact Nat.le_of_lt (Nat.lt_of_le_of_lt hle (Nat.lt_of_not_le hhead))
        · exact hrun.longest _ _ _ hrest
      · intro front' back' h
        rcases hcases front' _ back' h with hle | ⟨rest, rfl, hrest⟩
        · exact absurd hle hhead
        · exact Nat.succ_le_succ (hrun.first _ _ hrest)
      · rw [hstart, List.length_cons]
        omega

/-! ## Written addresses -/

/-- The form that an address is written in: a quad for IPv4 and behind `::ffff:`, groups otherwise, with `::` for the
first longest run of two or more zero groups. -/
inductive Written (a : Address) : List Char → Prop
  | quad (hfamily : a.family = .inet) : Written a (quadText a.bits)
  | mapped (hfamily : a.family = .inet6) (hmapped : a.bits / Family.inet.count = 0xFFFF) :
    Written a ("::ffff:".toList ++ quadText (a.bits % Family.inet.count))
  | gap {front back : List Nat} {k : Nat} (hfamily : a.family = .inet6) (hmapped : a.bits / Family.inet.count ≠ 0xFFFF)
    (hrun : LongestZeros (groups 65536 8 a.bits) front k back) (hk : 2 ≤ k) :
    Written a (groupsText front ++ "::".toList ++ groupsText back)
  | full (hfamily : a.family = .inet6) (hmapped : a.bits / Family.inet.count ≠ 0xFFFF)
    (hpair : ¬∃ front back, groups 65536 8 a.bits = front ++ [0, 0] ++ back) :
    Written a (groupsText (groups 65536 8 a.bits))

variable {a : Address}

theorem chars_inet (h : a.family = .inet) : a.chars = quadText a.bits := by
  unfold chars
  rw [h]

theorem chars_inet6 (h : a.family = .inet6) : a.chars = text6 a.bits := by
  unfold chars
  rw [h]

theorem text6_mapped {bits : Nat} (hmapped : bits / Family.inet.count = 0xFFFF) :
    text6 bits = "::ffff:".toList ++ quadText (bits % Family.inet.count) := if_pos hmapped

theorem text6_groups {bits : Nat} (hmapped : bits / Family.inet.count ≠ 0xFFFF) {front back : List Nat} {k : Nat}
    (hrun : LongestZeros (groups 65536 8 bits) front k back) :
    text6 bits = if 2 ≤ k then groupsText front ++ "::".toList ++ groupsText back
      else groupsText (groups 65536 8 bits) := by
  obtain ⟨front', back', hrun', hstart⟩ := longestZeros_zeroRun (groups 65536 8 bits) 0
  obtain ⟨hfront, hk, -⟩ := hrun.unique hrun'
  rw [← hfront] at hstart
  rw [text6, if_neg hmapped]
  simp only [hstart, Nat.zero_add, ← hk, hrun.take, hrun.drop]
  rfl

theorem written_chars (a : Address) : a.Written a.chars := by
  cases hfamily : a.family with
  | inet =>
    rw [chars_inet hfamily]
    exact .quad hfamily
  | inet6 =>
    rw [chars_inet6 hfamily]
    by_cases hmapped : a.bits / Family.inet.count = 0xFFFF
    · rw [text6_mapped hmapped]
      exact .mapped hfamily hmapped
    · obtain ⟨front, back, hrun, -⟩ := longestZeros_zeroRun (groups 65536 8 a.bits) 0
      rw [text6_groups hmapped hrun]
      split
      · next hk => exact .gap hfamily hmapped hrun hk
      · next hk => exact .full hfamily hmapped (mt hrun.two_le_iff.mpr hk)

theorem written_iff {s : List Char} : a.Written s ↔ s = a.chars := by
  refine ⟨fun h => ?_, fun h => h ▸ written_chars a⟩
  cases h with
  | quad hfamily => rw [chars_inet hfamily]
  | mapped hfamily hmapped => rw [chars_inet6 hfamily, text6_mapped hmapped]
  | gap hfamily hmapped hrun hk => rw [chars_inet6 hfamily, text6_groups hmapped hrun, if_pos hk]
  | full hfamily hmapped hpair =>
    obtain ⟨front, back, hrun, -⟩ := longestZeros_zeroRun (groups 65536 8 a.bits) 0
    rw [chars_inet6 hfamily, text6_groups hmapped hrun, if_neg (mt hrun.two_le_iff.mp hpair)]

end Address

end AccessList
