import AccessList.Text.Blank
import AccessList.Text.Numeral

/-!
# Calendar dates

A date is the number of its day, counted from 1 March of the year 0 in the Gregorian calendar extended both
ways. A year then starts in March, so that the leap day is its last, and 400 years have 146097 days.
-/

namespace AccessList

/-- Day number of a date. A month above 12 or a day beyond the month runs over into the days that follow. -/
def Date.dayNumber (year : Int) (month day : Nat) : Int :=
  let y := if month ≤ 2 then year - 1 else year
  let m := (month + 9) % 12
  365 * y + y / 4 - y / 100 + y / 400 + ((153 * m + 2) / 5 + day - 1 : Nat)

def Date.first : Int := Date.dayNumber (-262143) 1 1

def Date.last : Int := Date.dayNumber 262142 12 31

structure Date where
  day : Int
  first_le : Date.first ≤ day
  le_last : day ≤ Date.last
deriving DecidableEq

namespace Date

instance : LE Date where
  le a b := a.day ≤ b.day

instance (a b : Date) : Decidable (a ≤ b) := inferInstanceAs (Decidable (a.day ≤ b.day))

def greatest : Date := ⟨last, by decide, Int.le_refl _⟩

def ofDay? (n : Int) : Option Date := if h : first ≤ n ∧ n ≤ last then some ⟨n, h.1, h.2⟩ else none

/-- The date `n` days later, if there is one. -/
def addDays? (d : Date) (n : Nat) : Option Date := ofDay? (d.day + n)

/-! ## Year, month and day -/

def isLeap (year : Int) : Bool := year % 4 == 0 && (year % 100 != 0 || year % 400 == 0)

def daysIn (year : Int) (month : Nat) : Nat :=
  match month with
  | 2 => if isLeap year then 29 else 28
  | 4 | 6 | 9 | 11 => 30
  | _ => 31

def ofCivil? (year : Int) (month day : Nat) : Option Date :=
  if 1 ≤ month ∧ month ≤ 12 ∧ 1 ≤ day ∧ day ≤ daysIn year month then ofDay? (dayNumber year month day)
  else none

/-- Year, month and day of a day number: the 400-year era, the year of the era, the day of the year. -/
def civil (n : Int) : Int × Nat × Nat :=
  let era := n / 146097
  let doe := (n % 146097).toNat
  let yoe := (doe - doe / 1460 + doe / 36524 - doe / 146096) / 365
  let doy := doe - (365 * yoe + yoe / 4 - yoe / 100)
  let m := (5 * doy + 2) / 153
  let month := if m < 10 then m + 3 else m - 9
  let year := era * 400 + yoe
  (if month ≤ 2 then year + 1 else year, month, doy - (153 * m + 2) / 5 + 1)

/-! ## Text -/

def padded (width n : Nat) : List Char :=
  let ds := Nat.toDigits 10 n
  List.replicate (width - ds.length) '0' ++ ds

def yearText (year : Int) : List Char :=
  if year < 0 then '-' :: padded 4 year.natAbs
  else if 9999 < year then '+' :: padded 4 year.natAbs
  else padded 4 year.natAbs

def chars (d : Date) : List Char :=
  let (year, month, day) := civil d.day
  yearText year ++ '-' :: padded 2 month ++ '-' :: padded 2 day

def text (d : Date) : String := String.ofList d.chars

def field? (most : Nat) (s : List Char) : Option (Nat × List Char) :=
  let s := Text.trimStart s
  let run := (s.take most).takeWhile Char.isDigit
  (Text.digits? 10 run).map (·, s.drop run.length)

/-- Reads a year: up to four digits, or any number of them after a sign. -/
def year? (s : List Char) : Option (Int × List Char) :=
  match Text.trimStart s with
  | '-' :: r => if r.head?.any Char.isDigit then (field? r.length r).map fun (n, r) => (-n, r) else none
  | '+' :: r => if r.head?.any Char.isDigit then (field? r.length r).map fun (n, r) => (n, r) else none
  | s => (field? 4 s).map fun (n, r) => (n, r)

def hyphen? (s : List Char) : Option (List Char) :=
  match Text.trimStart s with
  | '-' :: r => some r
  | _ => none

/-- Year, month and day with hyphens between them; blanks may stand around each. -/
def ofText? (s : String) : Option Date := do
  let (year, s) ← year? s.toList
  let (month, s) ← field? 2 (← hyphen? s)
  let (day, s) ← field? 2 (← hyphen? s)
  if (Text.trimStart s).isEmpty then ofCivil? year month day else none

end Date

end AccessList
