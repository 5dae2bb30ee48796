import AccessList.Compile

/-!
# When terms are reported to expire

A term is reported if it expires up to so many weeks ahead. So many days may be more than a word counts, or go past the
last date there is. Neither bound shows, since no term expires after that date.
-/

namespace AccessList

namespace Date

theorem eq_of_day_eq {d e : Date} (h : d.day = e.day) : d = e := by
  obtain ⟨day, hfirst, hlast⟩ := d
  obtain ⟨day', hfirst', hlast'⟩ := e
  simp only at h
  subst h
  rfl

theorem addDays?_eq_some_iff {d e : Date} {n : Nat} : d.addDays? n = some e ↔ e.day = d.day + n := by
  have hfirst := e.first_le
  have hlast := e.le_last
  unfold addDays? ofDay?
  constructor
  · intro h
    split at h
    · cases h
      rfl
    · cases h
  · intro h
    rw [dif_pos (by omega), Option.some.injEq]
    exact eq_of_day_eq h.symm

/-- There is a date so many days later unless that is past the last one. -/
theorem addDays?_eq_none_iff {d : Date} {n : Nat} : d.addDays? n = none ↔ last < d.day + n := by
  have hfirst := d.first_le
  unfold addDays? ofDay?
  split
  · exact iff_of_false nofun (by omega)
  · exact iff_of_true rfl (by omega)

/-- A word counts more days than there are. -/
theorem last_le_first_add : last ≤ first + Settings.maxNumber := by decide

end Date

namespace Config

variable (c : Config)

theorem day_warningDate : c.warningDate.day = min (c.today.day + 7 * c.settings.expInfoWeeks) Date.last := by
  have hspan := Date.last_le_first_add
  have hfirst := c.today.first_le
  unfold warningDate
  cases hadd : c.today.addDays? (min (c.settings.expInfoWeeks * 7) Settings.maxNumber) with
  | some d =>
    have hday := Date.addDays?_eq_some_iff.mp hadd
    have hlast := d.le_last
    rw [Option.getD_some]
    omega
  | none =>
    have hpast := Date.addDays?_eq_none_iff.mp hadd
    change Date.last = _
    omega

theorem warningDate_eq {d : Date} (hd : d.day = c.today.day + 7 * c.settings.expInfoWeeks) : c.warningDate = d := by
  have hlast := d.le_last
  have hday := c.day_warningDate
  apply Date.eq_of_day_eq
  omega

theorem le_warningDate_of_none (hnone : ∀ d : Date, d.day ≠ c.today.day + 7 * c.settings.expInfoWeeks) (d : Date) :
    d ≤ c.warningDate := by
  have hfirst := c.today.first_le
  have hlast := d.le_last
  have hpast : Date.last < c.today.day + 7 * c.settings.expInfoWeeks := by
    apply Int.not_le.mp
    intro hle
    exact hnone ⟨c.today.day + 7 * c.settings.expInfoWeeks, by omega, hle⟩ rfl
  change d.day ≤ c.warningDate.day
  rw [day_warningDate]
  omega

theorem today_le_warningDate : c.today ≤ c.warningDate := by
  have hlast := c.today.le_last
  change c.today.day ≤ c.warningDate.day
  rw [day_warningDate]
  omega

theorem isExpired_iff (d : Date) : c.isExpired d = true ↔ d.day ≤ c.today.day := by
  unfold isExpired
  exact decide_eq_true_iff

/-- No date is after the last one, so that it does not show where the window is cut off there. -/
theorem expiresSoon_iff (d : Date) :
    c.expiresSoon d = true ↔ d.day ≤ c.today.day + 7 * c.settings.expInfoWeeks := by
  have hlast := d.le_last
  have hle : c.expiresSoon d = true ↔ d.day ≤ c.warningDate.day := by
    unfold expiresSoon
    exact decide_eq_true_iff
  rw [hle, day_warningDate]
  omega

structure IsWindow : Prop where
  weeksAhead : ∀ d : Date, d.day = c.today.day + 7 * c.settings.expInfoWeeks → c.warningDate = d
  greatest : (∀ d : Date, d.day ≠ c.today.day + 7 * c.settings.expInfoWeeks) →
    ∀ d : Date, d ≤ c.warningDate
  not_before : c.today ≤ c.warningDate
  expired : ∀ d, c.isExpired d = true → c.expiresSoon d = true
  ahead : ∀ d, c.expiresSoon d = true ∧ c.isExpired d = false ↔
    c.today.day < d.day ∧ d.day ≤ c.today.day + 7 * c.settings.expInfoWeeks
  widens : ∀ c' : Config, c'.today = c.today → c.settings.expInfoWeeks ≤ c'.settings.expInfoWeeks →
    ∀ d, c.expiresSoon d = true → c'.expiresSoon d = true

/-- The warning date is so many weeks ahead, or the greatest date where there is none; a term that is reported and has
not expired does so within these weeks, and more weeks report no fewer terms. -/
theorem reports_weeks_ahead : c.IsWindow := by
  refine ⟨fun _ => c.warningDate_eq, c.le_warningDate_of_none, c.today_le_warningDate, ?expired, ?ahead, ?widens⟩
  case expired =>
    intro d
    rw [isExpired_iff, expiresSoon_iff]
    omega
  case ahead =>
    intro d
    rw [← Bool.not_eq_true, isExpired_iff, expiresSoon_iff]
    omega
  case widens =>
    intro c' htoday hweeks d
    rw [expiresSoon_iff, expiresSoon_iff, htoday]
    omega

/-- Two weeks ahead, and more weeks than there are dates for. -/
example :
    let newYear : Date := ⟨Date.dayNumber 2024 1 1, by decide, by decide⟩
    (warningDate ⟨{}, newYear⟩).text = "2024-01-15" ∧
      (warningDate ⟨{ expInfoWeeks := Settings.maxNumber }, newYear⟩).text = "+262142-12-31" := by decide +kernel

end Config

end AccessList
