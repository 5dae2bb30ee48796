import AccessList.Rule.ObjectGroup
import AccessList.Proofs.Net.BlockText
import AccessList.Proofs.Net.Notation
import AccessList.Proofs.Text.Spacing
import Mathlib.Data.List.Forall2

/-!
# Address clauses as the device reads them

Rules of extended and standard filters and members of address groups write blocks in different ways. Read back word by
word, each of them stands for just the addresses of the block.
-/

namespace AccessList

namespace Address

open Text

theorem not_blank_of_mem_marks {c : Char} (hc : c ∈ marks) : ¬isBlank c = true :=
  have h : marks.any isBlank = false := by decide
  List.any_eq_false.mp h c hc

theorem words_text (a : Address) : words a.text.toList = [a.chars] := by
  rw [text, String.toList_ofList,
    words_of_no_blank a.chars_ne_nil fun _ hc => not_blank_of_mem_marks (mem_marks hc)]

end Address

namespace AddressPattern

/-- An address and the mask behind it; without a mask it stands by itself. -/
def readMasked (a : Address) : List (List Char) → AddressPattern × List (List Char)
  | [] => (host a, [])
  | w :: ws => ((Address.ofChars? w).map fun mask => (wildcard a mask, ws)).getD (host a, w :: ws)

def read? : List (List Char) → Option (AddressPattern × List (List Char))
  | [] => none
  | w :: ws =>
    if w = "any".toList then some (any, ws)
    else if w = "host".toList then (ws.head?.bind Address.ofChars?).map (host ·, ws.tail)
    else if '/' ∈ w then (Cidr.parse (String.ofList w)).toOption.map fun p => (leading p.address p.length, ws)
    else (Address.ofChars? w).map (readMasked · ws)

def Fits : AddressPattern → Prop
  | leading n length => length ≤ n.family.width
  | _ => True

theorem readMasked_chars (a mask : Address) (ws : List (List Char)) :
    readMasked a (mask.chars :: ws) = (wildcard a mask, ws) := by
  rw [readMasked, Address.ofChars?_chars]
  rfl

theorem read?_chars (a : Address) (ws : List (List Char)) : read? (a.chars :: ws) = some (readMasked a ws) := by
  have hmark : ∀ c ∉ Address.marks, c ∉ a.chars := fun c hc hmem => hc (Address.mem_marks hmem)
  have hany : a.chars ≠ "any".toList := fun h => hmark 'n' (by decide) (h ▸ by decide)
  have hhost : a.chars ≠ "host".toList := fun h => hmark 'h' (by decide) (h ▸ by decide)
  simp only [read?, if_neg hany, if_neg hhost, if_neg (hmark '/' (by decide)), Address.ofChars?_chars, Option.map_some]

theorem words_host (a : Address) : Text.words ((host a).text false).toList = ["host".toList, a.chars] := by
  have htext : ((host a).text false).toList = "host".toList ++ ' ' :: a.text.toList := by simp [text]
  rw [htext, Text.words_append_blank _ _ rfl, Address.words_text]
  rfl

theorem words_bare (a : Address) : Text.words ((host a).text true).toList = [a.chars] := by
  rw [← Address.words_text]
  simp [text]

theorem words_wildcard (n mask : Address) (bare : Bool) :
    Text.words ((wildcard n mask).text bare).toList = [n.chars, mask.chars] := by
  have htext : ((wildcard n mask).text bare).toList = n.text.toList ++ ' ' :: mask.text.toList := by simp [text]
  rw [htext, Text.words_append_blank _ _ rfl, Address.words_text, Address.words_text]
  rfl

theorem toList_leading (n : Address) (length : Nat) :
    ((leading n length).text false).toList = n.chars ++ '/' :: Nat.toDigits 10 length := by
  simp [text, Address.text]

theorem words_leading (n : Address) (length : Nat) :
    Text.words ((leading n length).text false).toList = [((leading n length).text false).toList] := by
  rw [toList_leading]
  refine Text.words_of_no_blank (List.append_ne_nil_of_left_ne_nil n.chars_ne_nil _) fun c hc => ?_
  rcases List.mem_append.mp hc with hc | hc
  · exact Address.not_blank_of_mem_marks (Address.mem_marks hc)
  · rcases List.mem_cons.mp hc with rfl | hc
    · decide
    · exact Address.not_blank_of_mem_marks (Address.mem_marks_of_mem_toDigits (by decide) (by decide) hc)

/-- Printed clauses read as what they were, whatever comes behind them. -/
theorem read?_text (a : AddressPattern) (h : a.Fits) (ws : List (List Char)) :
    read? (Text.words (a.text false).toList ++ ws) = some (a, ws) := by
  cases a with
  | any => rfl
  | host a => simp [words_host, read?, Address.ofChars?_chars]
  | wildcard n mask =>
    rw [words_wildcard, List.cons_append, List.cons_append, read?_chars, readMasked_chars]
    rfl
  | leading n length =>
    have hslash : '/' ∈ ((leading n length).text false).toList := by simp [toList_leading]
    have hany : ((leading n length).text false).toList ≠ "any".toList := fun heq => absurd (heq ▸ hslash) (by decide)
    have hhost : ((leading n length).text false).toList ≠ "host".toList := fun heq => absurd (heq ▸ hslash) (by decide)
    have hblock : Cidr.parse ((leading n length).text false) = .ok ⟨n, length, h⟩ := Cidr.parse_text ⟨n, length, h⟩
    rw [words_leading, List.singleton_append, read?, if_neg hany, if_neg hhost, if_pos hslash, String.ofList_toList,
      hblock]
    rfl

theorem read?_alone (a : AddressPattern) (h : a.Fits) (bare : Bool) :
    read? (Text.words (a.text bare).toList) = some (a, []) := by
  have hread := read?_text a h []
  rw [List.append_nil] at hread
  cases bare with
  | false => exact hread
  | true =>
    cases a with
    | host a =>
      rw [words_bare, read?_chars]
      rfl
    | any | wildcard | leading => exact hread

/-- The device takes a text for just the addresses of a block. -/
def Denotes (text : String) (p : Cidr) : Prop :=
  ∃ a, read? (Text.words text.toList) = some (a, []) ∧ ∀ x, a.Matches x ↔ p.contains (.host x) = true

end AddressPattern

/-! ## Members of groups -/

structure MaskedNetwork where
  network : Address
  mask : Address

namespace MaskedNetwork

def Matches (m : MaskedNetwork) (x : Address) : Prop :=
  x.family = m.network.family ∧ x.bits &&& m.mask.bits = m.network.bits

def read? : List (List Char) → Option MaskedNetwork
  | [n, mask] => (Address.ofChars? n).bind fun network => (Address.ofChars? mask).map ({ network, mask := · })
  | _ => none

/-- The device takes a text for just the addresses of a block. -/
def Denotes (text : String) (p : Cidr) : Prop :=
  ∃ m, read? (Text.words text.toList) = some m ∧ ∀ x, m.Matches x ↔ p.contains (.host x) = true

end MaskedNetwork

/-- The bits of a number of `w` bits above its lowest `k`. -/
theorem and_mask_eq {x k w : Nat} (hx : x < 2 ^ w) (hk : k ≤ w) : x &&& (2 ^ w - 2 ^ k) = x / 2 ^ k * 2 ^ k := by
  have hmask : 2 ^ w - 2 ^ k = (2 ^ (w - k) - 1) <<< k := by
    rw [Nat.shiftLeft_eq, Nat.sub_mul, ← Nat.pow_add, Nat.sub_add_cancel hk, Nat.one_mul]
  refine Nat.eq_of_testBit_eq fun i => ?_
  rw [hmask, ← Nat.shiftLeft_eq, Nat.testBit_and, Nat.testBit_shiftLeft, Nat.testBit_shiftLeft,
    Nat.testBit_two_pow_sub_one, Nat.testBit_div_two_pow]
  by_cases hi : k ≤ i
  · have hback : i - k + k = i := Nat.sub_add_cancel hi
    simp only [hi, decide_true, Bool.true_and, hback]
    by_cases hlt : i < w
    · have : i - k < w - k := by omega
      simp [this]
    · have hle : 2 ^ w ≤ 2 ^ i := Nat.pow_le_pow_right (by decide) (Nat.le_of_not_lt hlt)
      simp [Nat.testBit_lt_two_pow (Nat.lt_of_lt_of_le hx hle)]
  · simp [hi]

namespace Cidr

theorem contains_host_iff (p : Cidr) (x : Address) : p.contains (.host x) = true ↔ x ∈ p := by
  rw [contains_iff]
  refine ⟨fun h => h.2, fun h => ⟨?_, h⟩⟩
  have hwidth : p.length ≤ p.family.width := p.length_le
  rwa [← h.1] at hwidth

theorem mem_masked_iff (p : Cidr) (x : Address) : MaskedNetwork.Matches ⟨p.network, p.netmask⟩ x ↔ x ∈ p := by
  refine and_congr_right fun hf => ?_
  have hf : x.family = p.family := hf
  have hx : x.bits < 2 ^ p.family.width := hf ▸ x.bits_lt
  have hk : p.hostBits ≤ p.family.width := Nat.sub_le _ _
  change x.bits &&& (2 ^ p.family.width - 2 ^ p.hostBits) = p.address.bits / 2 ^ p.hostBits * 2 ^ p.hostBits ↔
    x.bits / 2 ^ p.hostBits = p.address.bits / 2 ^ p.hostBits
  rw [and_mask_eq hx hk]
  exact Nat.mul_left_inj (Nat.two_pow_pos _).ne'

theorem pattern_ne_any (p : Cidr) : p.pattern ≠ .any := by
  unfold pattern
  split
  · exact nofun
  · split <;> exact nofun

theorem pattern_fits (p : Cidr) : p.pattern.Fits := by
  unfold pattern
  split
  · trivial
  · split
    · trivial
    · exact p.length_le

end Cidr

theorem Endpoint.denotes_block (p : Cidr) : AddressPattern.Denotes (Endpoint.block p).text p := by
  refine ⟨p.pattern, ?_, fun x => (p.pattern_matches_iff x).trans (p.contains_host_iff x).symm⟩
  rw [Endpoint.text_eq]
  exact AddressPattern.read?_alone p.pattern p.pattern_fits false

theorem StandardRule.denotes_block (numeric : Bool) (p : Cidr) :
    AddressPattern.Denotes (StandardRule.blockText numeric (some p)) p := by
  have hfits : (StandardRule.pattern ⟨.accept, some p, false⟩).Fits := by
    simp only [StandardRule.pattern]
    split <;> trivial
  refine ⟨StandardRule.pattern ⟨.accept, some p, false⟩, ?_, fun x => ?_⟩
  · rw [← AddressPattern.read?_alone _ hfits numeric, ← StandardRule.blockText_eq]
  · exact (StandardRule.matches_block_iff rfl x).trans (p.contains_host_iff x).symm

theorem GroupDefinition.denotes_member (p : Cidr) :
    MaskedNetwork.Denotes (" " ++ p.network.text ++ " " ++ p.netmask.text) p := by
  have htext : (" " ++ p.network.text ++ " " ++ p.netmask.text).toList =
      ' ' :: (p.network.text.toList ++ ' ' :: p.netmask.text.toList) := by simp
  refine ⟨⟨p.network, p.netmask⟩, ?_, fun x => (p.mem_masked_iff x).trans (p.contains_host_iff x).symm⟩
  rw [htext, Text.words_cons_blank rfl, Text.words_append_blank _ _ rfl, Address.words_text, Address.words_text]
  simp [MaskedNetwork.read?, Address.ofChars?_chars]

/-- Every notation of a block stands for just its addresses: in extended and inet6 rules, in standard rules of numbered
and of named lists, and in the definition of an address group, which has one line for each member. The two tests for a
single address are the same. -/
theorem notations_denote :
    (∀ p, AddressPattern.Denotes (Endpoint.block p).text p) ∧
      (∀ numeric p, AddressPattern.Denotes (StandardRule.blockText numeric (some p)) p) ∧
      (∀ g : AddressGroup, ∃ members, List.Forall₂ MaskedNetwork.Denotes members g.members ∧
        (GroupDefinition.addresses g).lines =
          ("object-group ip address " ++ g.token) :: members ++ ["exit", ""]) ∧
      ∀ p : Cidr, p.isHost = p.isFullLength := by
  refine ⟨Endpoint.denotes_block, StandardRule.denotes_block, fun g => ⟨_, ?_, rfl⟩, fun p => ?_⟩
  · rw [List.forall₂_map_left_iff]
    exact List.forall₂_same.mpr fun p _ => GroupDefinition.denotes_member p
  · rw [Bool.eq_iff_iff, p.isHost_iff, p.isFullLength_iff]

end AccessList
