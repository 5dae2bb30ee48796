import AccessList.Date
import AccessList.Proofs.Text.Numerals
import Mathlib.Tactic.IntervalCases

/-!
# Dates and their text

Year, month and day of a date are those of its day number, and the text of a date reads as the date: of any year, with
a sign or without.
-/

namespace AccessList.Date

/-! ## Years -/

def yearOfEra (doe : Nat) : Nat := (doe - doe / 1460 + doe / 36524 - doe / 146096) / 365

def daysBefore (y : Nat) : Nat := 365 * y + y / 4 - y / 100

theorem le_yearOfEra_iff {doe y : Nat} (h : doe < 146097) (hy : y < 400) : y ≤ yearOfEra doe ↔ daysBefore y ≤ doe := by
  -- The last day of an era is in its fourth century.
  have hcentury : ∃ e ≤ 3, doe / 36524 - doe / 146096 = e ∧ doe / 146096 ≤ doe / 36524 ∧ 36524 * e ≤ doe ∧
      (e < 3 → doe < 36524 * e + 36524) := ⟨_, by omega, rfl, by omega, by omega, by omega⟩
  obtain ⟨e, he, heq, hle, hlow, hhigh⟩ := hcentury
  have hyear : yearOfEra doe = (doe - doe / 1460 + e) / 365 := by
    unfold yearOfEra
    omega
  rw [hyear, Nat.le_div_iff_mul_le (by decide), daysBefore]
  clear hyear hle heq
  obtain ⟨c, hc⟩ : ∃ c, c = y / 100 := ⟨_, rfl⟩
  have hc3 : c ≤ 3 := by omega
  rw [← hc]
  interval_cases c <;> interval_cases e <;> omega

theorem yearOfEra_lt {doe : Nat} (h : doe < 146097) : yearOfEra doe < 400 := by
  unfold yearOfEra
  omega

theorem daysBefore_yearOfEra_le {doe : Nat} (h : doe < 146097) : daysBefore (yearOfEra doe) ≤ doe :=
  (le_yearOfEra_iff h (yearOfEra_lt h)).mp (Nat.le_refl _)

/-- A day is in its year, whose last day is there in leap years only. -/
theorem sub_daysBefore_le {doe : Nat} (h : doe < 146097) : doe - daysBefore (yearOfEra doe) ≤ 365 ∧
    (doe - daysBefore (yearOfEra doe) = 365 →
      (yearOfEra doe + 1) % 4 = 0 ∧ ((yearOfEra doe + 1) % 100 ≠ 0 ∨ (yearOfEra doe + 1) % 400 = 0)) := by
  have hlt := yearOfEra_lt h
  have hle := daysBefore_yearOfEra_le h
  have hnext : yearOfEra doe < 399 → ¬daysBefore (yearOfEra doe + 1) ≤ doe := fun hlast => by
    rw [← le_yearOfEra_iff h (by omega)]
    omega
  revert hlt hle hnext
  generalize yearOfEra doe = y
  intro hlt hle hnext
  have h4 : (y + 1) / 4 = y / 4 ∨ (y + 1) / 4 = y / 4 + 1 ∧ (y + 1) % 4 = 0 := by omega
  have h100 : (y + 1) / 100 = y / 100 ∧ (y + 1) % 100 ≠ 0 ∨ (y + 1) / 100 = y / 100 + 1 := by omega
  unfold daysBefore at hle hnext ⊢
  by_cases hlast : y < 399
  · have := hnext hlast
    omega
  · omega

/-! ## Months -/

def monthOfYear (doy : Nat) : Nat := (5 * doy + 2) / 153

def monthNumber (m : Nat) : Nat := if m < 10 then m + 3 else m - 9

def dayOfMonth (doy : Nat) : Nat := doy - (153 * monthOfYear doy + 2) / 5 + 1

theorem monthNumber_spec {m : Nat} (h : m ≤ 11) :
    1 ≤ monthNumber m ∧ monthNumber m ≤ 12 ∧ (monthNumber m + 9) % 12 = m ∧ (monthNumber m ≤ 2 ↔ 10 ≤ m) := by
  unfold monthNumber
  split <;> omega

theorem dayOfMonth_le {doy : Nat} {year : Int} (h : doy ≤ 365) (hleap : doy = 365 → isLeap year = true) :
    dayOfMonth doy ≤ daysIn year (monthNumber (monthOfYear doy)) := by
  obtain ⟨m, hm⟩ : ∃ m, m = monthOfYear doy := ⟨_, rfl⟩
  have hlow : 153 * m ≤ 5 * doy + 2 := by rw [hm, monthOfYear]; omega
  have hhigh : 5 * doy + 2 < 153 * m + 153 := by rw [hm, monthOfYear]; omega
  have hm11 : m ≤ 11 := by omega
  rw [dayOfMonth, ← hm]
  cases hyear : isLeap year with
  | true => interval_cases m <;> simp only [monthNumber, daysIn, hyear] <;> simp <;> omega
  | false =>
    have hshort : doy ≠ 365 := fun hd => by simp [hyear] at hleap; exact hleap hd
    interval_cases m <;> simp only [monthNumber, daysIn, hyear] <;> simp <;> omega

/-! ## Day numbers -/

theorem civil_eq (n : Int) :
    civil n =
      let doe := (n % 146097).toNat
      let doy := doe - daysBefore (yearOfEra doe)
      let month := monthNumber (monthOfYear doy)
      let year := n / 146097 * 400 + yearOfEra doe
      (if month ≤ 2 then year + 1 else year, month, dayOfMonth doy) := rfl

/-- A year of the calendar that starts in March. -/
theorem dayNumber_eq {year : Int} {m day : Nat} (hm : m ≤ 11) :
    dayNumber (if monthNumber m ≤ 2 then year + 1 else year) (monthNumber m) day =
      365 * year + year / 4 - year / 100 + year / 400 + ((153 * m + 2) / 5 + day - 1 : Nat) := by
  obtain ⟨-, -, hmonth, -⟩ := monthNumber_spec hm
  unfold dayNumber
  rw [hmonth]
  by_cases h : monthNumber m ≤ 2
  · simp only [if_pos h, Int.add_sub_cancel]
  · simp only [if_neg h]

theorem dayNumber_era (era : Int) {y doy : Nat} (hy : y < 400) (hdoy : doy ≤ 365) :
    dayNumber (if monthNumber (monthOfYear doy) ≤ 2 then era * 400 + y + 1 else era * 400 + y)
      (monthNumber (monthOfYear doy)) (dayOfMonth doy) = 146097 * era + daysBefore y + doy := by
  have hm : monthOfYear doy ≤ 11 ∧ (153 * monthOfYear doy + 2) / 5 ≤ doy := by
    unfold monthOfYear
    omega
  rw [dayNumber_eq hm.1, dayOfMonth, daysBefore]
  omega

theorem isLeap_era {era : Int} {y : Nat} (h : (y + 1) % 4 = 0 ∧ ((y + 1) % 100 ≠ 0 ∨ (y + 1) % 400 = 0)) :
    isLeap (era * 400 + y + 1) = true := by
  simp only [isLeap, Bool.and_eq_true, Bool.or_eq_true, beq_iff_eq, bne_iff_ne]
  omega

theorem ofCivil?_civil (d : Date) : ofCivil? (civil d.day).1 (civil d.day).2.1 (civil d.day).2.2 = some d := by
  obtain ⟨n, hfirst, hlast⟩ := d
  let doe := (n % 146097).toNat
  let y := yearOfEra doe
  let doy := doe - daysBefore y
  have hdoe : doe < 146097 := by omega
  have hy : y < 400 := yearOfEra_lt hdoe
  have hle : daysBefore y ≤ doe := daysBefore_yearOfEra_le hdoe
  obtain ⟨hdoy, hlastDay⟩ : doy ≤ 365 ∧ (doy = 365 → _) := sub_daysBefore_le hdoe
  have hm : monthOfYear doy ≤ 11 := by
    unfold monthOfYear
    omega
  obtain ⟨hlow, hhigh, -, hearly⟩ := monthNumber_spec hm
  have hleap : doy = 365 →
      isLeap (if monthNumber (monthOfYear doy) ≤ 2 then n / 146097 * 400 + y + 1 else n / 146097 * 400 + y) = true := by
    intro hd
    have hmonth : monthNumber (monthOfYear doy) ≤ 2 := by
      rw [hd]
      decide
    rw [if_pos hmonth]
    exact isLeap_era (hlastDay hd)
  have hday : 1 ≤ dayOfMonth doy := Nat.le_add_left 1 _
  have hnumber := dayNumber_era (n / 146097) hy hdoy
  have hn : 146097 * (n / 146097) + daysBefore y + doy = n := by omega
  rw [civil_eq, ofCivil?, if_pos ⟨hlow, hhigh, hday, dayOfMonth_le hdoy hleap⟩]
  dsimp only
  rw [hnumber, hn]
  exact dif_pos ⟨hfirst, hlast⟩

/-! ## Text -/

section
variable {s rest : List Char}

theorem trimStart_of_head {c : Char} (hc : Text.isBlank c = false) (s : List Char) :
    Text.trimStart (c :: s) = c :: s := by
  rw [Text.trimStart, List.dropWhile_cons, if_neg (by simp [hc])]

theorem hyphen?_cons (s : List Char) : hyphen? ('-' :: s) = some s := by
  rw [hyphen?, trimStart_of_head (by decide)]
  rfl

/-- A field of as many digits as it may have ends there, and a shorter one before what is no digit. -/
theorem field?_digits {most : Nat} {ds : List Char} (hne : ds ≠ []) (hds : ∀ c ∈ ds, c.isDigit = true)
    (hlength : ds.length ≤ most) (hrest : ds.length = most ∨ rest.head?.all fun c => !c.isDigit) :
    field? most (ds ++ rest) = (Text.digits? 10 ds).map (·, rest) := by
  obtain ⟨d, ds', rfl⟩ := List.exists_cons_of_ne_nil hne
  have htrim : Text.trimStart (d :: ds' ++ rest) = d :: ds' ++ rest :=
    trimStart_of_head (Text.not_blank_of_isDigit (hds d (List.mem_cons_self ..))) _
  have hrun : ((d :: ds' ++ rest).take most).takeWhile Char.isDigit = d :: ds' := by
    rw [List.take_append, List.take_of_length_le hlength]
    apply Text.takeWhile_run hds
    rcases hrest with hmost | hrest
    · simp [hmost]
    · cases rest with
      | nil => simp
      | cons c rest =>
        cases most - (d :: ds').length with
        | zero => simp
        | succ k => simpa using hrest
  unfold field?
  simp only [htrim, hrun, List.drop_left]

end

section
variable {width n : Nat}

theorem padded_ne_nil : padded width n ≠ [] := List.append_ne_nil_of_right_ne_nil _ Nat.toDigits_ne_nil

theorem isDigit_of_mem_padded : ∀ c ∈ padded width n, c.isDigit = true := by
  intro c hc
  rcases List.mem_append.mp hc with hc | hc
  · rw [List.eq_of_mem_replicate hc]
    decide
  · exact Nat.isDigit_of_mem_toDigits (by decide) (by decide) hc

theorem digits?_padded : Text.digits? 10 (padded width n) = some n :=
  Text.digits?_zeros_toDigits (by decide) (by decide) _ n

theorem length_padded (hwidth : 0 < width) (hn : n < 10 ^ width) : (padded width n).length = width := by
  have hlength : (Nat.toDigits 10 n).length ≤ width := (Nat.length_toDigits_le_iff (by decide) hwidth).mpr hn
  rw [padded, List.length_append, List.length_replicate]
  omega

theorem field?_padded (hwidth : 0 < width) (hn : n < 10 ^ width) (rest : List Char) :
    field? width (padded width n ++ rest) = some (n, rest) := by
  have hlength := length_padded hwidth hn
  rw [field?_digits padded_ne_nil isDigit_of_mem_padded (Nat.le_of_eq hlength) (.inl hlength), digits?_padded]
  rfl

end

theorem year?_yearText (year : Int) (rest : List Char) :
    year? (yearText year ++ '-' :: rest) = some (year, '-' :: rest) := by
  have hhead : ∃ d ds, padded 4 year.natAbs = d :: ds := List.exists_cons_of_ne_nil padded_ne_nil
  obtain ⟨d, ds, hds⟩ := hhead
  have hd : d.isDigit = true := isDigit_of_mem_padded d (hds ▸ List.mem_cons_self ..)
  -- A signed year takes digits as far as the hyphen.
  have hsigned : field? (padded 4 year.natAbs ++ '-' :: rest).length (padded 4 year.natAbs ++ '-' :: rest) =
      some (year.natAbs, '-' :: rest) := by
    rw [field?_digits padded_ne_nil isDigit_of_mem_padded (by simp) (.inr (by simp)), digits?_padded]
    rfl
  unfold yearText
  by_cases hneg : year < 0
  · rw [if_pos hneg, List.cons_append, year?, trimStart_of_head (by decide)]
    have hany : (padded 4 year.natAbs ++ '-' :: rest).head?.any Char.isDigit = true := by simp [hds, hd]
    simp only [hany, if_true, hsigned, Option.map_some]
    have : -(year.natAbs : Int) = year := by omega
    rw [this]
  rw [if_neg hneg]
  have habs : (year.natAbs : Int) = year := by omega
  by_cases hlong : 9999 < year
  · rw [if_pos hlong, List.cons_append, year?, trimStart_of_head (by decide)]
    have hany : (padded 4 year.natAbs ++ '-' :: rest).head?.any Char.isDigit = true := by simp [hds, hd]
    simp only [hany, if_true, hsigned, Option.map_some, habs]
  · have hshort : field? 4 (padded 4 year.natAbs ++ '-' :: rest) = some (year.natAbs, '-' :: rest) :=
      field?_padded (by decide) (by omega) _
    have hsign : d ≠ '-' ∧ d ≠ '+' := by
      constructor <;> rintro rfl <;> cases hd
    rw [if_neg hlong]
    rw [hds, List.cons_append] at hshort ⊢
    rw [year?, trimStart_of_head (Text.not_blank_of_isDigit hd)]
    simp [hshort, hsign, habs]

theorem lt_of_ofCivil? {year : Int} {month day : Nat} {d : Date} (h : ofCivil? year month day = some d) :
    month < 100 ∧ day < 100 := by
  have hdays : daysIn year month ≤ 31 := by
    unfold daysIn
    split
    · split <;> decide
    all_goals decide
  unfold ofCivil? at h
  split at h
  · omega
  · cases h

theorem ofText?_text (d : Date) : ofText? d.text = some d := by
  have hcivil := ofCivil?_civil d
  have htext : d.text.toList = yearText (civil d.day).1 ++ '-' :: (padded 2 (civil d.day).2.1 ++
      '-' :: (padded 2 (civil d.day).2.2 ++ [])) := by
    simp [text, chars]
  revert hcivil htext
  generalize civil d.day = ymd
  obtain ⟨year, month, day⟩ := ymd
  intro hcivil htext
  obtain ⟨hmonth, hday⟩ := lt_of_ofCivil? hcivil
  have hfield : ∀ n < 100, ∀ rest, field? 2 (padded 2 n ++ rest) = some (n, rest) := fun n hn rest =>
    field?_padded (by decide) hn rest
  simp only [ofText?, htext, year?_yearText, hyphen?_cons, hfield month hmonth, hfield day hday, Option.bind_eq_bind,
    Option.bind_some, hcivil]
  rfl

/-- The year 12345 needs a sign, and so does the year before the year 0. -/
example : (ofCivil? 12345 1 2).map text = some "+12345-01-02" ∧
    (ofCivil? (-1) 12 31).map text = some "-0001-12-31" := by decide +kernel

end AccessList.Date
