import AccessList.Proofs.Net.SpelledAddress
import AccessList.Proofs.Net.WrittenAddress
import AccessList.Proofs.Traversal

/-!
# Addresses through their text

The text that an address is written as spells it: quads as they stand, groups also where `::` stands for some of them.
So it reads as the address.
-/

namespace AccessList

namespace Address

open Text

/-! ## Numbers in places -/

section
variable {base count n : Nat}

theorem length_groups : (groups base count n).length = count := by
  induction count generalizing n with
  | zero => rfl
  | succ count ih => rw [groups, List.length_append, ih]; rfl

theorem lt_of_mem_groups (hbase : 0 < base) : ∀ g ∈ groups base count n, g < base := by
  induction count generalizing n with
  | zero => exact nofun
  | succ count ih =>
    intro g hg
    rcases List.mem_append.mp hg with hg | hg
    · exact ih g hg
    · rw [List.mem_singleton.mp hg]
      exact Nat.mod_lt n hbase

theorem ofGroups_groups (hn : n < base ^ count) : ofGroups base (groups base count n) = n := by
  induction count generalizing n with
  | zero =>
    have hzero : n = 0 := by simpa using hn
    rw [hzero]
    rfl
  | succ count ih =>
    have hdiv : n / base < base ^ count := Nat.div_lt_of_lt_mul (by rwa [Nat.pow_succ'] at hn)
    rw [groups, ofGroups, List.foldl_append]
    change ofGroups base (groups base count (n / base)) * base + n % base = n
    rw [ih hdiv, Nat.div_add_mod']

end

/-! ## Written texts are spelled -/

theorem mem_intercalate {α : Type} {sep : List α} {parts : List (List α)} {c : α} (hc : c ∈ sep.intercalate parts) :
    c ∈ sep ∨ ∃ part ∈ parts, c ∈ part := by
  cases parts with
  | nil => cases hc
  | cons part parts =>
    rw [intercalate_cons] at hc
    rcases List.mem_append.mp hc with hc | hc
    · exact .inr ⟨part, List.mem_cons_self .., hc⟩
    · obtain ⟨part', hpart', hc⟩ := List.mem_flatMap.mp hc
      exact (List.mem_append.mp hc).imp_right fun hc => ⟨part', List.mem_cons_of_mem _ hpart', hc⟩

/-- No text of an address looks like one of a block. -/
theorem Quad.slash_not_mem {q : Nat} {s : List Char} (h : Quad q s) : '/' ∉ s := by
  obtain ⟨gs, parts, -, hparts, rfl, -⟩ := h
  intro hc
  rcases mem_intercalate hc with hc | ⟨part, hpart, hc⟩
  · exact absurd hc (by decide)
  · obtain ⟨g, -, hoctet⟩ := exists_of_forall₂ hparts.flip part hpart
    cases isSome_of_mem_digits? hoctet.1.value hc

theorem Groups.slash_not_mem {parts : List (List Char)} {gs : List Nat} {quad : Bool} (h : Groups parts gs quad) :
    ∀ part ∈ parts, '/' ∉ part := by
  induction h with
  | nil => exact nofun
  | quad hquad => exact List.forall_mem_singleton.mpr hquad.slash_not_mem
  | group hds _ ih =>
    refine List.forall_mem_cons.mpr ⟨fun hc => ?_, ih⟩
    cases isSome_of_mem_digits? hds.value hc

theorem Groups.slash_not_mem_text {parts : List (List Char)} {gs : List Nat} {quad : Bool} (h : Groups parts gs quad) :
    '/' ∉ [':'].intercalate parts := by
  intro hc
  rcases mem_intercalate hc with hc | ⟨part, hpart, hc⟩
  · exact absurd hc (by decide)
  · exact h.slash_not_mem part hpart hc

theorem Spelled.slash_not_mem {a : Address} {s : List Char} (h : a.Spelled s) : '/' ∉ s := by
  cases h with
  | quad _ _ hquad => exact hquad.slash_not_mem
  | groups _ _ hgroups =>
    cases hgroups with
    | all hall => exact hall.slash_not_mem_text
    | gap hfront hback =>
      simp [hfront.slash_not_mem_text, hback.slash_not_mem_text]

theorem digits_toDigits {base most n : Nat} (hb : 1 < base) (hmax : base ≤ 16)
    (hlength : (Nat.toDigits base n).length ≤ most) (padded : Bool) :
    Digits base most padded n (Nat.toDigits base n) where
  value := digits?_toDigits hb hmax n
  length_le := hlength
  unpadded := by
    intro _ hzero
    have hn : n = 0 := by
      by_contra hne
      exact head?_toDigits hb hmax (Nat.pos_of_ne_zero hne) hzero
    rw [hn, Nat.toDigits_zero]
    exact Nat.le_refl 1

theorem octet_decimal {g : Nat} (hg : g < 256) : Octet g (decimal g) := by
  have hlength : (decimal g).length ≤ 3 := (Nat.length_toDigits_le_iff (by decide) (by decide)).mpr (by omega)
  exact ⟨digits_toDigits (by decide) (by decide) hlength false, Nat.le_of_lt_succ hg⟩

theorem quad_quadText {bits : Nat} (hbits : bits < 256 ^ 4) : Quad bits (quadText bits) := by
  have hlt : ∀ g ∈ groups 256 4 bits, g < 256 := lt_of_mem_groups (by decide)
  refine ⟨groups 256 4 bits, (groups 256 4 bits).map decimal, length_groups, ?_, rfl, (ofGroups_groups hbits).symm⟩
  exact List.forall₂_map_right_iff.mpr (List.forall₂_same.mpr fun g hg => octet_decimal (hlt g hg))

theorem group_hexadecimal {g : Nat} (hg : g < 65536) : Group g (hexadecimal g) := by
  have hlength : (hexadecimal g).length ≤ 4 := (Nat.length_toDigits_le_iff (by decide) (by decide)).mpr (by omega)
  exact digits_toDigits (by decide) (by decide) hlength true

theorem groups_hexadecimal {gs : List Nat} (hgs : ∀ g ∈ gs, g < 65536) : Groups (gs.map hexadecimal) gs false := by
  induction gs with
  | nil => exact .nil
  | cons g gs ih =>
    obtain ⟨hg, hgs⟩ := List.forall_mem_cons.mp hgs
    exact .group (group_hexadecimal hg) (ih hgs)

theorem eq_dot_or_isDigit_of_mem_quadText {bits : Nat} {c : Char} (hc : c ∈ quadText bits) :
    c = '.' ∨ c.isDigit = true := by
  rcases mem_intercalate hc with hc | ⟨part, hpart, hc⟩
  · exact .inl (List.mem_singleton.mp hc)
  · obtain ⟨g, -, rfl⟩ := List.mem_map.mp hpart
    exact .inr (Nat.isDigit_of_mem_toDigits (by decide) (by decide) hc)

theorem colon_mem_groupsText {gs : List Nat} (h : 1 < gs.length) : ':' ∈ groupsText gs := by
  match gs, h with
  | g :: g' :: gs, _ => simp [groupsText, List.intercalate_cons_cons]

/-- An IPv4 address under the prefix of those that stand in IPv6. -/
theorem eightGroups_mapped {q : Nat} (hq : q < Family.inet.count) :
    EightGroups (List.replicate 5 0 ++ [0xFFFF, q / 65536, q % 65536]) ("::ffff:".toList ++ quadText q) := by
  have hhex : hexadecimal 0xFFFF = "ffff".toList := by decide
  have hback : Groups [hexadecimal 0xFFFF, quadText q] [0xFFFF, q / 65536, q % 65536] true :=
    .group (group_hexadecimal (by decide)) (.quad (quad_quadText hq))
  have hspelled := EightGroups.gap .nil hback (Nat.le_add_right 3 4)
  rw [List.intercalate_cons_cons, List.intercalate_singleton, hhex] at hspelled
  exact hspelled

theorem ofGroups_mapped (q : Nat) :
    ofGroups 65536 (List.replicate 5 0 ++ [0xFFFF, q / 65536, q % 65536]) = 0xFFFF * Family.inet.count + q := by
  have hcount : Family.inet.count = 4294967296 := rfl
  simp only [ofGroups, hcount, List.replicate, List.nil_append, List.cons_append, List.foldl_cons, List.foldl_nil]
  omega

theorem Written.spelled {s : List Char} {a : Address} (h : a.Written s) : a.Spelled s := by
  have hlt : ∀ g ∈ groups 65536 8 a.bits, g < 65536 := lt_of_mem_groups (by decide)
  have hlength : (groups 65536 8 a.bits).length = 8 := length_groups
  have hbits : ∀ {family : Family}, a.family = family → a.bits < family.count := fun hfamily => hfamily ▸ a.bits_lt
  cases h with
  | quad hfamily =>
    have hcolon : ':' ∉ quadText a.bits := fun hc => by
      rcases eq_dot_or_isDigit_of_mem_quadText hc with h | h <;> cases h
    exact .quad hfamily hcolon (quad_quadText (hbits hfamily))
  | mapped hfamily hmapped =>
    have hspelled := eightGroups_mapped (Nat.mod_lt a.bits Family.inet.count_pos)
    refine .groups hfamily (List.mem_append_left _ (by decide)) hspelled ?_
    rw [ofGroups_mapped, ← hmapped, Nat.div_add_mod']
  | @gap front back k hfamily _ hrun hk =>
    have hof : ofGroups 65536 (groups 65536 8 a.bits) = a.bits := ofGroups_groups (hbits hfamily)
    rw [hrun.split] at hlt hlength hof
    have hsum : front.length + k + back.length = 8 := by simpa [Nat.add_assoc] using hlength
    have hzeros : 8 - front.length - back.length = k := by omega
    have hfront := groups_hexadecimal fun g hg => hlt g (List.mem_append_left _ (List.mem_append_left _ hg))
    have hback := groups_hexadecimal fun g hg => hlt g (List.mem_append_right _ hg)
    refine .groups hfamily (List.mem_append_left _ (List.mem_append_right _ (by decide)))
      (.gap hfront hback (by omega)) ?_
    rw [hzeros, hof]
  | full hfamily =>
    exact .groups hfamily (colon_mem_groupsText (by rw [hlength]; decide)) (.all (groups_hexadecimal hlt) hlength)
      (ofGroups_groups (hbits hfamily))

theorem ofChars?_chars (a : Address) : ofChars? a.chars = some a :=
  ofChars?_eq_some_iff.mpr (written_chars a).spelled

/-! ## Characters -/

def marks : List Char := "0123456789abcdef.:".toList

theorem mem_marks_of_mem_toDigits {b n : Nat} {c : Char} (hb : 1 < b) (hmax : b ≤ 16) (hc : c ∈ Nat.toDigits b n) :
    c ∈ marks := by
  have hdigit : ∀ d < 16, Nat.digitChar d ∈ marks := by decide
  obtain ⟨d, hd, rfl⟩ := exists_digit_of_mem_toDigits hb hc
  exact hdigit d (by omega)

theorem mem_marks_of_mem_intercalate {b : Nat} {sep c : Char} {gs : List Nat} (hb : 1 < b) (hmax : b ≤ 16)
    (hsep : sep ∈ marks) (hc : c ∈ [sep].intercalate (gs.map (Nat.toDigits b))) : c ∈ marks := by
  rcases mem_intercalate hc with hc | ⟨part, hpart, hc⟩
  · rwa [List.mem_singleton.mp hc]
  · obtain ⟨g, -, rfl⟩ := List.mem_map.mp hpart
    exact mem_marks_of_mem_toDigits hb hmax hc

theorem mem_marks {a : Address} {c : Char} (hc : c ∈ a.chars) : c ∈ marks := by
  have hquad : ∀ bits, c ∈ quadText bits → c ∈ marks := fun _ =>
    mem_marks_of_mem_intercalate (by decide) (by decide) (by decide)
  have hgroups : ∀ gs, c ∈ groupsText gs → c ∈ marks := fun _ =>
    mem_marks_of_mem_intercalate (by decide) (by decide) (by decide)
  have hmapped : "::ffff:".toList ⊆ marks := by decide
  have hgap : "::".toList ⊆ marks := by decide
  have hwritten := written_chars a
  generalize a.chars = s at hc hwritten
  cases hwritten with
  | quad => exact hquad _ hc
  | mapped => exact (List.mem_append.mp hc).elim (hmapped ·) (hquad _)
  | gap =>
    rcases List.mem_append.mp hc with hc | hc
    · exact (List.mem_append.mp hc).elim (hgroups _) (hgap ·)
    · exact hgroups _ hc
  | full => exact hgroups _ hc

theorem chars_ne_nil (a : Address) : a.chars ≠ [] := by
  intro h
  have hread := ofChars?_chars a
  rw [h] at hread
  exact absurd hread (by simp [ofChars?, quad?, octets?, item?, number?, digits?])

end Address

end AccessList
