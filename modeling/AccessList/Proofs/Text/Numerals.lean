import AccessList.Text.Blank
import AccessList.Text.Numeral
import Mathlib.Tactic.IntervalCases

/-!
# Numbers through their digits

The digits of a number read as the number, with zeros before them or without.
-/

namespace AccessList.Text

variable {b n : Nat} {c : Char}

theorem not_blank_of_isDigit (h : c.isDigit = true) : isBlank c = false := by
  have hbounds : 48 ≤ c.toNat ∧ c.toNat ≤ 57 := by simpa [Char.isDigit, UInt32.le_iff_toNat_le] using h
  rw [Bool.eq_false_iff]
  simp only [isBlank, ne_eq, Bool.or_eq_true, Bool.and_eq_true, decide_eq_true_eq, beq_iff_eq]
  omega

section
variable {p : Char → Bool} {run rest : List Char}

theorem takeWhile_run (hrun : ∀ c ∈ run, p c = true) (hrest : rest.head?.all fun c => !p c) :
    (run ++ rest).takeWhile p = run := by
  rw [List.takeWhile_append_of_pos hrun]
  cases rest with
  | nil => simp
  | cons c rest =>
    have hc : p c = false := by simpa using hrest
    simp [hc]

theorem dropWhile_run (hrun : ∀ c ∈ run, p c = true) (hrest : rest.head?.all fun c => !p c) :
    (run ++ rest).dropWhile p = rest := by
  rw [List.dropWhile_append_of_pos hrun]
  cases rest with
  | nil => simp
  | cons c rest =>
    have hc : p c = false := by simpa using hrest
    simp [hc]

end

theorem exists_digit_of_mem_toDigits (hb : 1 < b) (hc : c ∈ Nat.toDigits b n) : ∃ d < b, c = Nat.digitChar d := by
  induction n using Nat.strongRecOn with
  | ind n ih =>
    rw [Nat.toDigits_eq_if hb] at hc
    by_cases hn : n < b
    · rw [if_pos hn] at hc
      exact ⟨n, hn, List.mem_singleton.mp hc⟩
    · rw [if_neg hn] at hc
      rcases List.mem_append.mp hc with hc | hc
      · exact ih (n / b) (Nat.div_lt_self (by omega) hb) hc
      · exact ⟨n % b, Nat.mod_lt n (by omega), List.mem_singleton.mp hc⟩

theorem head?_toDigits (hb : 1 < b) (hmax : b ≤ 16) (hn : 0 < n) : (Nat.toDigits b n).head? ≠ some '0' := by
  have hdigit : ∀ d < 16, 0 < d → Nat.digitChar d ≠ '0' := by decide
  induction n using Nat.strongRecOn with
  | ind n ih =>
    rw [Nat.toDigits_eq_if hb]
    by_cases hlt : n < b
    · simpa [if_pos hlt] using hdigit n (by omega) hn
    · have hpos : 0 < n / b := Nat.div_pos (by omega) (by omega)
      have hne : Nat.toDigits b (n / b) ≠ [] := Nat.toDigits_ne_nil
      obtain ⟨d, ds, hds⟩ := List.exists_cons_of_ne_nil hne
      have hhead := ih (n / b) (Nat.div_lt_self hn hb) hpos
      rw [if_neg hlt]
      rw [hds] at hhead ⊢
      exact hhead

theorem digit?_digitChar {d : Nat} (hb : b ≤ 16) (hd : d < b) : digit? b (Nat.digitChar d) = some d := by
  have hvalue : ∀ d < 16, (if '0' ≤ Nat.digitChar d ∧ Nat.digitChar d ≤ '9' then (Nat.digitChar d).toNat - '0'.toNat
      else if 'a' ≤ Nat.digitChar d ∧ Nat.digitChar d ≤ 'f' then (Nat.digitChar d).toNat - 'a'.toNat + 10
      else if 'A' ≤ Nat.digitChar d ∧ Nat.digitChar d ≤ 'F' then (Nat.digitChar d).toNat - 'A'.toNat + 10
      else b) = d := by
    intro d hd
    interval_cases d <;> rfl
  rw [digit?, hvalue d (by omega)]
  exact if_pos hd

theorem digitsFrom_append (s t : List Char) (acc : Nat) :
    digitsFrom b acc (s ++ t) = (digitsFrom b acc s).bind fun m => digitsFrom b m t := by
  induction s generalizing acc with
  | nil => rfl
  | cons c s ih =>
    rw [List.cons_append, digitsFrom, digitsFrom]
    cases digit? b c with
    | none => rfl
    | some d => exact ih _

theorem digitsFrom_toDigits (hb : 1 < b) (hmax : b ≤ 16) (n : Nat) : digitsFrom b 0 (Nat.toDigits b n) = some n := by
  induction n using Nat.strongRecOn with
  | ind n ih =>
    rw [Nat.toDigits_eq_if hb]
    by_cases hn : n < b
    · rw [if_pos hn, digitsFrom, digit?_digitChar hmax hn]
      simp [digitsFrom]
    · have hmod : n % b < b := Nat.mod_lt n (by omega)
      rw [if_neg hn, digitsFrom_append, ih (n / b) (Nat.div_lt_self (by omega) hb), Option.bind_some, digitsFrom,
        digit?_digitChar hmax hmod]
      simp [digitsFrom, Nat.div_add_mod']

theorem digitsFrom_zeros (hb : 0 < b) (k : Nat) (s : List Char) :
    digitsFrom b 0 (List.replicate k '0' ++ s) = digitsFrom b 0 s := by
  have hzero : digit? b '0' = some 0 := if_pos hb
  induction k with
  | zero => rfl
  | succ k ih => rw [List.replicate_succ, List.cons_append, digitsFrom, hzero, Option.bind_some, Nat.zero_mul, ih]

theorem digits?_of_ne_nil {s : List Char} (h : s ≠ []) : digits? b s = digitsFrom b 0 s := by
  cases s with
  | nil => exact absurd rfl h
  | cons c s => rfl

theorem digits?_zeros_toDigits (hb : 1 < b) (hmax : b ≤ 16) (k n : Nat) :
    digits? b (List.replicate k '0' ++ Nat.toDigits b n) = some n := by
  rw [digits?_of_ne_nil (List.append_ne_nil_of_right_ne_nil _ Nat.toDigits_ne_nil), digitsFrom_zeros (by omega),
    digitsFrom_toDigits hb hmax]

theorem digits?_toDigits (hb : 1 < b) (hmax : b ≤ 16) (n : Nat) : digits? b (Nat.toDigits b n) = some n :=
  digits?_zeros_toDigits hb hmax 0 n

theorem isSome_of_mem_digitsFrom {b acc n : Nat} {ds : List Char} (h : digitsFrom b acc ds = some n) {c : Char}
    (hc : c ∈ ds) : (digit? b c).isSome = true := by
  induction ds generalizing acc with
  | nil => cases hc
  | cons d ds ih =>
    obtain ⟨v, hd, hrest⟩ := Option.bind_eq_some_iff.mp h
    rcases List.mem_cons.mp hc with rfl | hc
    · rw [hd]
      rfl
    · exact ih hrest hc

theorem isSome_of_mem_digits? {b n : Nat} {ds : List Char} (h : digits? b ds = some n) {c : Char} (hc : c ∈ ds) :
    (digit? b c).isSome = true := by
  rw [digits?_of_ne_nil (List.ne_nil_of_mem hc)] at h
  exact isSome_of_mem_digitsFrom h hc

theorem isDigit_of_digit? {c : Char} (h : (digit? 10 c).isSome = true) : c.isDigit = true := by
  by_cases hc : '0' ≤ c ∧ c ≤ '9'
  · simp only [Char.isDigit, Bool.and_eq_true, decide_eq_true_eq]
    exact hc
  · have hnone : digit? 10 c = none := by
      simp only [digit?, if_neg hc]
      split
      · exact if_neg (by omega)
      · split
        · exact if_neg (by omega)
        · exact if_neg (Nat.lt_irrefl 10)
    rw [hnone] at h
    cases h

end AccessList.Text
