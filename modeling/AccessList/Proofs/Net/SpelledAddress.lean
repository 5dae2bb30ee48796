import AccessList.Net.AddressText
import AccessList.Proofs.Text.Numerals
import Mathlib.Data.List.Forall2

/-!
# The texts that addresses are read from

An IPv4 address is spelled with four numbers, an IPv6 address with eight groups, of which `::` may stand for some and a
quad for the last two. An address is read from a text just when the text spells it.
-/

namespace AccessList

namespace Address

open Text

/-! ## Runs of digits -/

section
variable {base most n : Nat} {padded : Bool} {s ds rest : List Char}

def NoDigit (base : Nat) (s : List Char) : Prop := ∀ c ∈ s.head?, digit? base c = none

theorem noDigit_cons {c : Char} (h : digit? base c = none) : NoDigit base (c :: rest) := by
  intro c' hc'
  cases hc'
  exact h

theorem noDigit_nil : NoDigit base [] := nofun

/-- The digits of a number. A zero leads others only where they are padded. -/
structure Digits (base most : Nat) (padded : Bool) (n : Nat) (ds : List Char) : Prop where
  value : digits? base ds = some n
  length_le : ds.length ≤ most
  unpadded : padded = false → ds.head? = some '0' → ds.length ≤ 1

theorem number?_eq_some_iff : number? base most padded s = some (n, rest) ↔
    ∃ ds, s = ds ++ rest ∧ Digits base most padded n ds ∧ NoDigit base rest := by
  constructor
  · intro h
    have hstop := List.head?_dropWhile_not (fun c => (digit? base c).isSome) s
    unfold number? at h
    obtain ⟨hlong, hread⟩ := Option.ite_none_left_eq_some.mp h
    obtain ⟨v, hvalue, heq⟩ := Option.map_eq_some_iff.mp hread
    obtain ⟨rfl, rfl⟩ := Prod.mk.inj heq
    simp only [Bool.or_eq_true, Bool.and_eq_true, decide_eq_true_eq, beq_iff_eq, not_or, not_and] at hlong
    refine ⟨_, List.takeWhile_append_dropWhile.symm, ⟨hvalue, Nat.le_of_not_lt hlong.1, ?_⟩, ?_⟩
    · intro hpadded hzero
      exact Nat.le_of_not_lt (hlong.2 ⟨by rw [hpadded]; rfl, hzero⟩)
    · intro c hc
      rw [hc] at hstop
      simpa using hstop
  · rintro ⟨ds, rfl, hds, hrest⟩
    have hrun : ∀ c ∈ ds, (digit? base c).isSome = true := fun c => isSome_of_mem_digits? hds.value
    have hstop : rest.head?.all fun c => !(digit? base c).isSome := by
      cases rest with
      | nil => rfl
      | cons c rest => simp [hrest c rfl]
    unfold number?
    simp only [takeWhile_run hrun hstop, dropWhile_run hrun hstop, hds.value]
    rw [if_neg]
    · rfl
    · simp only [Bool.or_eq_true, Bool.and_eq_true, decide_eq_true_eq, beq_iff_eq]
      rintro (hlong | ⟨⟨hpadded, hzero⟩, hlong⟩)
      · exact absurd hds.length_le (Nat.not_le_of_lt hlong)
      · exact absurd (hds.unpadded (by simpa using hpadded) hzero) (Nat.not_le_of_lt hlong)

theorem number?_eq_none (h : NoDigit base s) : number? base most padded s = none := by
  rw [Option.eq_none_iff_forall_not_mem]
  rintro ⟨n, rest⟩ hread
  obtain ⟨ds, rfl, hds, -⟩ := number?_eq_some_iff.mp hread
  cases ds with
  | nil => cases hds.value
  | cons d ds =>
    have hdigit := isSome_of_mem_digits? hds.value (List.mem_cons_self ..)
    rw [h d rfl] at hdigit
    cases hdigit

end

/-! ## Items behind separators -/

section
variable {sep : Char} {first : Bool} {parts : List (List Char)}

/-- Parts with separators between them, and one ahead unless they come first. -/
def joined (sep : Char) (first : Bool) (parts : List (List Char)) : List Char :=
  if first then [sep].intercalate parts else parts.flatMap (sep :: ·)

theorem intercalate_cons {α : Type} (sep part : List α) (parts : List (List α)) :
    sep.intercalate (part :: parts) = part ++ parts.flatMap (sep ++ ·) := by
  induction parts generalizing part with
  | nil => simp
  | cons part' parts ih => rw [List.intercalate_cons_cons, ih, List.flatMap_cons, List.append_assoc, List.append_assoc]

theorem joined_nil : joined sep first [] = [] := by
  cases first <;> rfl

theorem joined_cons (part : List Char) :
    joined sep first (part :: parts) = (if first then [] else [sep]) ++ (part ++ joined sep false parts) := by
  cases first with
  | false => rfl
  | true => exact intercalate_cons [sep] part parts

theorem item?_eq_some_iff {α : Type} {read : List Char → Option (α × List Char)} {s rest : List Char} {a : α} :
    item? sep first read s = some (a, rest) ↔
      ∃ t, s = (if first then [] else [sep]) ++ t ∧ read t = some (a, rest) := by
  cases first with
  | true => simp [item?]
  | false =>
    cases s with
    | nil => simp [item?]
    | cons c s =>
      by_cases hc : c = sep
      · simp [item?, hc]
      · simp [item?, hc]

theorem item?_eq_none {α : Type} {read : List Char → Option (α × List Char)} {s : List Char}
    (h : ∀ t, s = (if first then [] else [sep]) ++ t → read t = none) : item? sep first read s = none := by
  rw [Option.eq_none_iff_forall_not_mem]
  rintro ⟨a, rest⟩ hread
  obtain ⟨t, ht, hread⟩ := item?_eq_some_iff.mp hread
  rw [h t ht] at hread
  cases hread

end

/-! ## Quads -/

section
variable {n q : Nat} {first : Bool} {s rest : List Char} {gs : List Nat}

def Octet (g : Nat) (ds : List Char) : Prop := Digits 10 3 false g ds ∧ g ≤ 255

def Quad (q : Nat) (s : List Char) : Prop :=
  ∃ gs parts, gs.length = 4 ∧ List.Forall₂ Octet gs parts ∧ s = ['.'].intercalate parts ∧ q = ofGroups 256 gs

theorem noDigit_joined {parts : List (List Char)} (h : parts = [] → NoDigit 10 rest) :
    NoDigit 10 (joined '.' false parts ++ rest) := by
  cases parts with
  | nil => exact h rfl
  | cons part parts => exact noDigit_cons (by decide)

theorem octets?_eq_some_iff : octets? n first s = some (gs, rest) ↔
    ∃ parts, gs.length = n ∧ List.Forall₂ Octet gs parts ∧ s = joined '.' first parts ++ rest ∧
      (n ≠ 0 → NoDigit 10 rest) := by
  induction n generalizing first s gs with
  | zero =>
    rw [octets?, Option.some.injEq, Prod.mk.injEq]
    constructor
    · rintro ⟨rfl, rfl⟩
      exact ⟨[], rfl, .nil, by rw [joined_nil, List.nil_append], fun h => absurd rfl h⟩
    · rintro ⟨parts, hlength, hparts, rfl, -⟩
      cases hparts with
      | nil => exact ⟨rfl, by rw [joined_nil, List.nil_append]⟩
      | cons _ _ => cases hlength
  | succ n ih =>
    rw [octets?]
    constructor
    · intro h
      obtain ⟨⟨g, s'⟩, hitem, h⟩ := Option.bind_eq_some_iff.mp h
      obtain ⟨hg, h⟩ := Option.ite_none_left_eq_some.mp h
      obtain ⟨⟨gs', rest'⟩, hread, heq⟩ := Option.bind_eq_some_iff.mp h
      cases heq
      obtain ⟨t, rfl, hnumber⟩ := item?_eq_some_iff.mp hitem
      obtain ⟨ds, rfl, hds, hstop⟩ := number?_eq_some_iff.mp hnumber
      obtain ⟨parts, rfl, hparts, rfl, hend⟩ := ih.mp hread
      refine ⟨ds :: parts, rfl, .cons ⟨hds, Nat.le_of_not_lt hg⟩ hparts, ?_, fun _ => ?_⟩
      · rw [joined_cons, List.append_assoc, List.append_assoc]
      · cases hparts with
        | nil => rwa [joined_nil, List.nil_append] at hstop
        | cons _ _ => exact hend (Nat.succ_ne_zero _)
    · rintro ⟨parts, hlength, hparts, rfl, hend⟩
      have hrest := hend (Nat.succ_ne_zero n)
      cases hparts with
      | nil => cases hlength
      | @cons g ds gs parts hds hparts =>
        have hread : octets? n false (joined '.' false parts ++ rest) = some (gs, rest) :=
          ih.mpr ⟨parts, Nat.succ.inj hlength, hparts, rfl, fun _ => hrest⟩
        have hitem : item? '.' first (number? 10 3 false) (joined '.' first (ds :: parts) ++ rest) =
            some (g, joined '.' false parts ++ rest) := by
          refine item?_eq_some_iff.mpr ⟨ds ++ (joined '.' false parts ++ rest), ?_, ?_⟩
          · rw [joined_cons, List.append_assoc, List.append_assoc]
          · exact number?_eq_some_iff.mpr ⟨ds, rfl, hds.1, noDigit_joined fun _ => hrest⟩
        refine Option.bind_eq_some_iff.mpr ⟨_, hitem, Option.ite_none_left_eq_some.mpr ⟨Nat.not_lt_of_le hds.2, ?_⟩⟩
        exact Option.bind_eq_some_iff.mpr ⟨_, hread, rfl⟩

theorem quad?_eq_some_iff : quad? s = some (q, rest) ↔ ∃ t, s = t ++ rest ∧ Quad q t ∧ NoDigit 10 rest := by
  rw [quad?, Option.map_eq_some_iff]
  constructor
  · rintro ⟨⟨gs, rest'⟩, hread, heq⟩
    cases heq
    obtain ⟨parts, hlength, hparts, rfl, hend⟩ := octets?_eq_some_iff.mp hread
    exact ⟨joined '.' true parts, rfl, ⟨gs, parts, hlength, hparts, rfl, rfl⟩, hend (by decide)⟩
  · rintro ⟨t, rfl, ⟨gs, parts, hlength, hparts, rfl, rfl⟩, hrest⟩
    exact ⟨(gs, rest), octets?_eq_some_iff.mpr ⟨parts, hlength, hparts, rfl, fun _ => hrest⟩, rfl⟩

end

/-! ## Groups -/

section
variable {n g : Nat} {first quad : Bool} {s rest : List Char} {gs : List Nat} {parts : List (List Char)}

def Group (g : Nat) (ds : List Char) : Prop := Digits 16 4 true g ds

inductive Groups : List (List Char) → List Nat → Bool → Prop
  | nil : Groups [] [] false
  | quad {q : Nat} {t : List Char} (h : Quad q t) : Groups [t] [q / 65536, q % 65536] true
  | group {g : Nat} {ds : List Char} {parts : List (List Char)} {gs : List Nat} {quad : Bool} (hds : Group g ds)
    (h : Groups parts gs quad) : Groups (ds :: parts) (g :: gs) quad

def Ends (s : List Char) : Prop := ∀ c ∈ s.head?, c = ':'

theorem Ends.noDigit {base : Nat} (h : Ends rest) : NoDigit base rest := by
  intro c hc
  rw [h c hc]
  exact if_neg (Nat.lt_irrefl base)

def Gap (s : List Char) : Prop := s = [] ∨ ∃ r, s = ':' :: ':' :: r

theorem Gap.ends (h : Gap rest) : Ends rest := by
  rcases h with rfl | ⟨r, rfl⟩
  · exact nofun
  · rintro c ⟨⟩
    rfl

theorem ends_joined (hrest : Gap rest) (parts : List (List Char)) : Ends (joined ':' false parts ++ rest) := by
  cases parts with
  | nil => exact hrest.ends
  | cons part parts =>
    rintro c ⟨⟩
    rfl

theorem Quad.exists_dot {q : Nat} (h : Quad q s) :
    ∃ ds r, s = ds ++ '.' :: r ∧ ∀ c ∈ ds, (digit? 10 c).isSome = true := by
  obtain ⟨gs, parts, hlength, hparts, rfl, -⟩ := h
  cases hparts with
  | nil => cases hlength
  | @cons g ds gs parts hds hparts =>
    cases hparts with
    | nil => cases hlength
    | @cons g' ds' gs parts _ _ =>
      have htext : joined '.' true (ds :: ds' :: parts) = ds ++ joined '.' false (ds' :: parts) := joined_cons ds
      exact ⟨ds, ds' ++ joined '.' false parts, htext, fun c => isSome_of_mem_digits? hds.1.value⟩

/-- A text has no quad in front where a colon comes before any dot. -/
theorem quad?_eq_none {run : List Char} (hrun : '.' ∉ run) (hrest : Ends rest) : quad? (run ++ rest) = none := by
  rw [Option.eq_none_iff_forall_not_mem]
  rintro ⟨q, rest'⟩ hread
  obtain ⟨t, ht, hquad, -⟩ := quad?_eq_some_iff.mp hread
  obtain ⟨ds, r, rfl, hdigit⟩ := hquad.exists_dot
  rw [List.append_assoc, List.cons_append] at ht
  rcases List.append_eq_append_iff.mp ht with ⟨more, rfl, hmore⟩ | ⟨more, rfl, hmore⟩
  · -- The run ends within the digits, so a digit or the dot stands for the colon.
    cases more with
    | nil => cases hrest '.' (by rw [hmore]; rfl)
    | cons c more =>
      cases hrest c (by rw [hmore]; rfl)
      cases hdigit ':' (List.mem_append_right _ (List.mem_cons_self ..))
  · -- The run goes on to the dot.
    cases more with
    | nil => cases hrest '.' (by rw [← List.nil_append rest, ← hmore]; rfl)
    | cons c more =>
      obtain ⟨rfl, -⟩ := List.cons.inj hmore
      exact hrun (List.mem_append_right _ (List.mem_cons_self ..))

theorem groups_of_groups? (h : groups? n first s = (gs, quad, rest)) :
    ∃ parts, Groups parts gs quad ∧ s = joined ':' first parts ++ rest ∧ gs.length ≤ n := by
  induction n generalizing first s gs with
  | zero =>
    cases h
    exact ⟨[], .nil, by rw [joined_nil, List.nil_append], Nat.le_refl _⟩
  | succ n ih =>
    rw [groups?] at h
    split at h
    · next q r hitem =>
      cases h
      obtain ⟨hn, hitem⟩ := Option.ite_none_left_eq_some.mp hitem
      obtain ⟨t, rfl, hquad⟩ := item?_eq_some_iff.mp hitem
      obtain ⟨t, rfl, hquad, -⟩ := quad?_eq_some_iff.mp hquad
      refine ⟨[t], .quad hquad, ?_, Nat.succ_le_succ (Nat.pos_of_ne_zero hn)⟩
      rw [joined_cons, joined_nil, List.append_nil, List.append_assoc]
    · split at h
      · next g r hitem =>
        cases h
        obtain ⟨t, rfl, hnumber⟩ := item?_eq_some_iff.mp hitem
        obtain ⟨ds, rfl, hds, -⟩ := number?_eq_some_iff.mp hnumber
        obtain ⟨parts, hparts, hr, hlength⟩ := ih rfl
        refine ⟨ds :: parts, .group hds hparts, ?_, Nat.succ_le_succ hlength⟩
        rw [joined_cons, List.append_assoc, List.append_assoc, ← hr]
      · cases h
        exact ⟨[], .nil, by rw [joined_nil, List.nil_append], Nat.zero_le _⟩

theorem Group.dot_not_mem {ds : List Char} (h : Group g ds) : '.' ∉ ds := fun hmem => by
  cases isSome_of_mem_digits? h.value hmem

theorem Gap.ends_item (h : Gap rest) {t : List Char} (ht : rest = (if first then [] else [':']) ++ t) : Ends t := by
  cases first with
  | true =>
    obtain rfl : rest = t := ht
    exact h.ends
  | false =>
    rcases h with rfl | ⟨r, rfl⟩
    · cases ht
    · cases ht
      rintro c ⟨⟩
      rfl

theorem groups?_gap (n : Nat) (first : Bool) (h : Gap rest) : groups? n first rest = ([], false, rest) := by
  have hquad : item? ':' first quad? rest = none :=
    item?_eq_none fun t ht => quad?_eq_none (List.not_mem_nil (a := '.')) (h.ends_item ht)
  have hnumber : item? ':' first (number? 16 4 true) rest = none :=
    item?_eq_none fun t ht => number?_eq_none (h.ends_item ht).noDigit
  cases n with
  | zero => rfl
  | succ n =>
    rw [groups?, hquad, ite_self]
    simp only [hnumber]

theorem groups?_of_groups (h : Groups parts gs quad) (hlength : gs.length ≤ n) (hgap : Gap rest)
    (hend : quad = true → rest = []) : groups? n first (joined ':' first parts ++ rest) = (gs, quad, rest) := by
  induction h generalizing n first with
  | nil =>
    rw [joined_nil]
    exact groups?_gap n first hgap
  | @quad q t hquad =>
    obtain ⟨n, rfl⟩ : ∃ m, n = m + 2 := Nat.exists_eq_add_of_le' hlength
    rw [hend rfl]
    have hitem : item? ':' first quad? (joined ':' first [t] ++ []) = some (q, []) := by
      refine item?_eq_some_iff.mpr ⟨t, ?_, quad?_eq_some_iff.mpr ⟨t, (List.append_nil t).symm, hquad, noDigit_nil⟩⟩
      rw [joined_cons, joined_nil, List.append_nil, List.append_nil]
    rw [groups?, if_neg (Nat.succ_ne_zero n), hitem]
  | @group g ds parts gs quad hds hparts ih =>
    obtain ⟨n, rfl⟩ : ∃ m, n = m + 1 := Nat.exists_eq_add_of_le' (Nat.le_trans (Nat.le_add_left _ _) hlength)
    have hends := ends_joined hgap parts
    have htext : joined ':' first (ds :: parts) ++ rest =
        (if first then [] else [':']) ++ (ds ++ (joined ':' false parts ++ rest)) := by
      rw [joined_cons, List.append_assoc, List.append_assoc]
    have hquad : item? ':' first quad? (joined ':' first (ds :: parts) ++ rest) = none := by
      refine item?_eq_none fun t ht => ?_
      rw [List.append_cancel_left (ht.symm.trans htext)]
      exact quad?_eq_none hds.dot_not_mem hends
    have hnumber : item? ':' first (number? 16 4 true) (joined ':' first (ds :: parts) ++ rest) =
        some (g, joined ':' false parts ++ rest) :=
      item?_eq_some_iff.mpr ⟨_, htext, number?_eq_some_iff.mpr ⟨ds, rfl, hds, hends.noDigit⟩⟩
    rw [groups?, hquad, ite_self]
    simp only [hnumber, ih (Nat.le_of_succ_le_succ hlength) hend]

/-! ## Addresses -/

/-- Eight groups, or fewer around a gap that stands for groups of zero. -/
inductive EightGroups : List Nat → List Char → Prop
  | all {parts : List (List Char)} {gs : List Nat} {quad : Bool} (h : Groups parts gs quad) (hlength : gs.length = 8) :
    EightGroups gs ([':'].intercalate parts)
  | gap {front back : List (List Char)} {fs bs : List Nat} {quad : Bool} (hfront : Groups front fs false)
    (hback : Groups back bs quad) (hlength : fs.length + bs.length ≤ 7) :
    EightGroups (fs ++ List.replicate (8 - fs.length - bs.length) 0 ++ bs)
      ([':'].intercalate front ++ "::".toList ++ [':'].intercalate back)

theorem exists_eightGroups {bits : Nat} (h : bits6? s = some bits) :
    ∃ gs, EightGroups gs s ∧ ofGroups 65536 gs = bits := by
  obtain ⟨fs, quad, r, hread⟩ : ∃ fs quad r, groups? 8 true s = (fs, quad, r) := ⟨_, _, _, rfl⟩
  obtain ⟨front, hfront, rfl, hlength⟩ := groups_of_groups? hread
  simp only [bits6?, hread] at h
  by_cases hfull : fs.length = 8
  · rw [if_pos hfull] at h
    obtain ⟨hr, hbits⟩ := Option.ite_none_right_eq_some.mp h
    rw [List.isEmpty_iff.mp hr, List.append_nil]
    exact ⟨fs, .all hfront hfull, Option.some.inj hbits⟩
  · rw [if_neg hfull] at h
    obtain ⟨hquad, hrest⟩ := Option.ite_none_left_eq_some.mp h
    rw [Bool.eq_false_iff.mpr hquad] at hfront
    split at hrest
    · next r' =>
      obtain ⟨bs, quad', rest, hread'⟩ : ∃ bs quad' rest, groups? (7 - fs.length) true r' = (bs, quad', rest) :=
        ⟨_, _, _, rfl⟩
      obtain ⟨back, hback, rfl, hlength'⟩ := groups_of_groups? hread'
      simp only [hread'] at hrest
      obtain ⟨hr, hbits⟩ := Option.ite_none_right_eq_some.mp hrest
      have htext : joined ':' true front ++ ':' :: ':' :: joined ':' true back =
          [':'].intercalate front ++ "::".toList ++ [':'].intercalate back := by
        rw [List.append_assoc]
        rfl
      rw [List.isEmpty_iff.mp hr, List.append_nil, htext]
      exact ⟨_, .gap hfront hback (by omega), Option.some.inj hbits⟩
    · cases hrest

theorem EightGroups.bits6?_eq {gs : List Nat} (h : EightGroups gs s) : bits6? s = some (ofGroups 65536 gs) := by
  cases h with
  | @all parts _ quad hgroups hlength =>
    have hread : groups? 8 true ([':'].intercalate parts ++ []) = (gs, quad, []) :=
      groups?_of_groups hgroups (Nat.le_of_eq hlength) (.inl rfl) fun _ => rfl
    rw [List.append_nil] at hread
    simp only [bits6?, hread, hlength, if_true, List.isEmpty_nil]
  | @gap front back fs bs quad hfront hback hlength =>
    have hfirst : groups? 8 true ([':'].intercalate front ++ ("::".toList ++ [':'].intercalate back)) =
        (fs, false, "::".toList ++ [':'].intercalate back) :=
      groups?_of_groups hfront (by omega) (.inr ⟨_, rfl⟩) nofun
    have hsecond : groups? (7 - fs.length) true ([':'].intercalate back ++ []) = (bs, quad, []) :=
      groups?_of_groups hback (by omega) (.inl rfl) fun _ => rfl
    rw [List.append_nil] at hsecond
    rw [bits6?, List.append_assoc, hfirst]
    simp only [show ("::" : String).toList = [':', ':'] from rfl, List.cons_append, List.nil_append, hsecond]
    rw [if_neg (by omega), if_neg (by decide)]
    rfl

inductive Spelled (a : Address) (s : List Char) : Prop
  | quad (hfamily : a.family = .inet) (hcolon : ':' ∉ s) (h : Quad a.bits s)
  | groups {gs : List Nat} (hfamily : a.family = .inet6) (hcolon : ':' ∈ s) (h : EightGroups gs s)
    (hbits : ofGroups 65536 gs = a.bits)

theorem ofBits?_eq_some_iff {family : Family} {bits : Nat} {a : Address} :
    ofBits? family bits = some a ↔ a.family = family ∧ bits = a.bits := by
  obtain ⟨family', bits', hbits⟩ := a
  unfold ofBits?
  constructor
  · intro h
    obtain ⟨_, heq⟩ := Option.dite_none_right_eq_some.mp h
    cases heq
    exact ⟨rfl, rfl⟩
  · rintro ⟨rfl, rfl⟩
    exact dif_pos hbits

theorem ofChars?_eq_some_iff {a : Address} : ofChars? s = some a ↔ a.Spelled s := by
  unfold ofChars?
  by_cases hcolon : ':' ∈ s
  · rw [if_pos (by simpa using hcolon), Option.bind_eq_some_iff]
    constructor
    · rintro ⟨bits, hread, hbits⟩
      obtain ⟨hfamily, rfl⟩ := ofBits?_eq_some_iff.mp hbits
      obtain ⟨gs, hgs, heq⟩ := exists_eightGroups hread
      exact .groups hfamily hcolon hgs heq
    · intro h
      cases h with
      | quad _ hno => exact absurd hcolon hno
      | groups hfamily _ hgs hbits => exact ⟨_, hgs.bits6?_eq, ofBits?_eq_some_iff.mpr ⟨hfamily, hbits⟩⟩
  · rw [if_neg (by simpa using hcolon)]
    constructor
    · intro h
      split at h
      · next q hread =>
        obtain ⟨hfamily, rfl⟩ := ofBits?_eq_some_iff.mp h
        obtain ⟨t, rfl, hquad, -⟩ := quad?_eq_some_iff.mp hread
        rw [List.append_nil] at hcolon ⊢
        exact .quad hfamily hcolon hquad
      · cases h
    · intro h
      cases h with
      | quad hfamily _ hquad =>
        have hread : quad? s = some (a.bits, []) :=
          quad?_eq_some_iff.mpr ⟨s, (List.append_nil s).symm, hquad, noDigit_nil⟩
        rw [hread]
        exact ofBits?_eq_some_iff.mpr ⟨hfamily, rfl⟩
      | groups _ hyes => exact absurd hyes hcolon

end

end Address

end AccessList
