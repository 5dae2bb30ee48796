import AccessList.Net.CidrText
import AccessList.Proofs.Net.AddressText
import AccessList.Proofs.Text.Splitting
import AccessList.Proofs.Traversal

/-!
# Texts of blocks

A block has one written form: the form of its address, a slash and its length. It is read from other texts as well, from
those with an address that stands alone or before a slash and a length that the family admits.
-/

namespace AccessList

namespace Text

theorem unsigned?_of_no_sign {max : Nat} {s : List Char} (h : s.head? ≠ some '+') :
    unsigned? max s = (digits? 10 s).filter (· ≤ max) := by
  unfold unsigned?
  split
  · exact absurd rfl h
  · rfl

/-- Decimal digits may stand behind a plus sign. -/
theorem unsigned?_eq_some_iff {max n : Nat} {s : List Char} : unsigned? max s = some n ↔
    n ≤ max ∧ ∃ sign ds, (sign = [] ∨ sign = ['+']) ∧ s = sign ++ ds ∧ digits? 10 ds = some n := by
  have hfilter : ∀ ds, (digits? 10 ds).filter (· ≤ max) = some n ↔ digits? 10 ds = some n ∧ n ≤ max := fun ds => by
    rw [Option.filter_eq_some_iff, decide_eq_true_iff]
  constructor
  · intro h
    by_cases hsign : s.head? = some '+'
    · obtain ⟨ds, rfl⟩ := List.head?_eq_some_iff.mp hsign
      obtain ⟨hdigits, hle⟩ := (hfilter ds).mp h
      exact ⟨hle, ['+'], ds, .inr rfl, rfl, hdigits⟩
    · rw [unsigned?_of_no_sign hsign] at h
      obtain ⟨hdigits, hle⟩ := (hfilter s).mp h
      exact ⟨hle, [], s, .inl rfl, rfl, hdigits⟩
  · rintro ⟨hle, sign, ds, rfl | rfl, hs, hdigits⟩
    · obtain rfl : s = ds := hs
      have hsign : s.head? ≠ some '+' := by
        intro hhead
        have hdigit := isSome_of_mem_digits? hdigits (List.mem_of_mem_head? hhead)
        cases hdigit
      rw [unsigned?_of_no_sign hsign]
      exact (hfilter s).mpr ⟨hdigits, hle⟩
    · rw [hs]
      exact (hfilter ds).mpr ⟨hdigits, hle⟩

end Text

namespace Address

open Text

theorem parse_eq_ok_iff {s : String} {a : Address} : parse s = .ok a ↔ a.Spelled s.toList := by
  rw [← ofChars?_eq_some_iff, parse]
  cases ofChars? s.toList <;> simp

end Address

namespace Cidr

open Text

def Written (p : Cidr) (s : List Char) : Prop :=
  ∃ front, p.address.Written front ∧ s = front ++ '/' :: Nat.toDigits 10 p.length

/-- The texts that a block is read from: those of its address, if it is the block of that alone, and those with its
length in decimal digits behind a slash. -/
inductive Spelled : Cidr → List Char → Prop
  | host {a : Address} {s : List Char} (h : a.Spelled s) (hslash : '/' ∉ s) : Spelled (host a) s
  | sized {a : Address} {front sign ds : List Char} {n : Nat} (h : a.Spelled front) (hsign : sign = [] ∨ sign = ['+'])
    (hdigits : digits? 10 ds = some n) (hlength : n ≤ a.family.width) :
    Spelled ⟨a, n, hlength⟩ (front ++ '/' :: (sign ++ ds))

theorem written_iff {p : Cidr} {s : String} : p.Written s.toList ↔ s = p.text := by
  have htext : p.text.toList = p.address.chars ++ '/' :: Nat.toDigits 10 p.length := by
    simp [text, Address.text]
  rw [← String.toList_inj, htext]
  constructor
  · rintro ⟨front, hfront, hs⟩
    rw [hs, Address.written_iff.mp hfront]
  · intro hs
    exact ⟨p.address.chars, Address.written_chars _, hs⟩

theorem Written.spelled {p : Cidr} {s : List Char} (h : p.Written s) : p.Spelled s := by
  obtain ⟨front, hfront, rfl⟩ := h
  exact .sized hfront.spelled (.inl rfl) (digits?_toDigits (by decide) (by decide) _) p.length_le

theorem ofLength_eq_ok_iff {a : Address} {n : Nat} {p : Cidr} :
    ofLength a n = .ok p ↔ ∃ h : n ≤ a.family.width, p = ⟨a, n, h⟩ := by
  unfold ofLength
  split
  · next h =>
    constructor
    · intro heq
      exact ⟨h, (Except.ok.inj heq).symm⟩
    · rintro ⟨_, rfl⟩
      rfl
  · next h =>
    constructor
    · intro heq
      cases heq
    · rintro ⟨hle, -⟩
      exact absurd hle h

theorem parse_of_slash {s : String} {front back : List Char} (hs : s.toList = front ++ '/' :: back)
    (hback : '/' ∉ back) {p : Cidr} : parse s = .ok p ↔
      ∃ (a : Address) (n : Nat), a.Spelled front ∧ unsigned? 255 back = some n ∧ ofLength a n = .ok p := by
  rw [parse, hs, splitLast_eq_some_iff.mpr ⟨rfl, hback⟩, bind_eq_ok_iff]
  simp only [Address.parse_eq_ok_iff, String.toList_ofList]
  refine exists_congr fun a => ?_
  cases unsigned? 255 back with
  | none => simp [throw, throwThe, MonadExceptOf.throw]
  | some n => simp

theorem parse_eq_ok_iff {s : String} {p : Cidr} : parse s = .ok p ↔ p.Spelled s.toList := by
  constructor
  · intro h
    cases hparts : splitLast '/' s.toList with
    | none =>
      rw [parse, hparts] at h
      obtain ⟨a, ha, rfl⟩ := map_eq_ok_iff.mp h
      exact .host (Address.parse_eq_ok_iff.mp ha) (splitLast_eq_none_iff.mp hparts)
    | some parts =>
      obtain ⟨front, back⟩ := parts
      obtain ⟨hs, hback⟩ := splitLast_eq_some_iff.mp hparts
      obtain ⟨a, n, haddress, hlength, hp⟩ := (parse_of_slash hs hback).mp h
      obtain ⟨-, sign, ds, hsign, hds, hdigits⟩ := unsigned?_eq_some_iff.mp hlength
      obtain ⟨hle, rfl⟩ := ofLength_eq_ok_iff.mp hp
      rw [hs, hds]
      exact .sized haddress hsign hdigits hle
  · intro h
    generalize hs : s.toList = t at h
    cases h with
    | host haddress hslash =>
      rw [← hs] at hslash haddress
      rw [parse, splitLast_eq_none_iff.mpr hslash]
      exact map_eq_ok_iff.mpr ⟨_, Address.parse_eq_ok_iff.mpr haddress, rfl⟩
    | @sized a front sign ds n haddress hsign hdigits hle =>
      have hback : '/' ∉ sign ++ ds := by
        intro hmem
        rcases List.mem_append.mp hmem with hmem | hmem
        · rcases hsign with rfl | rfl
          · cases hmem
          · exact absurd hmem (by decide)
        · cases isSome_of_mem_digits? hdigits hmem
      have hmax : n ≤ 255 := Nat.le_trans (Nat.le_trans hle (Family.width_le_word _)) (by decide)
      refine (parse_of_slash hs hback).mpr ⟨a, n, haddress, ?_, ofLength_eq_ok_iff.mpr ⟨hle, rfl⟩⟩
      exact unsigned?_eq_some_iff.mpr ⟨hmax, sign, ds, hsign, rfl, hdigits⟩

theorem parse_text (p : Cidr) : parse p.text = .ok p :=
  parse_eq_ok_iff.mpr (written_iff.mpr rfl).spelled

/-- Reading undoes writing. What is read from any text is written as a text that the same is read from. -/
theorem text_round_trip (s : String) (p : Cidr) :
    (p.Written s.toList ↔ s = p.text) ∧ parse p.text = .ok p ∧ (parse s = .ok p ↔ p.Spelled s.toList) ∧
      (parse s >>= fun q => parse q.text) = parse s := by
  refine ⟨written_iff, parse_text p, parse_eq_ok_iff, ?_⟩
  cases parse s with
  | error e => rfl
  | ok q => exact parse_text q

example : (parse "2001:DB8:0:0:1:0:0:1/+040").map text = .ok "2001:db8::1:0:0:1/40" := by decide +kernel

end Cidr

end AccessList
