import CasualDate.Calendar.Period
import CasualDate.Proofs.Calendar.Local

/-!
# Ends of periods and steps exist

From a day of the Gregorian years 1 to 9990 both calendars have the last day of its week, month and
year, and the day one of each later. Days of a month are clamped to its length and a year later is
at most the next one of the calendar, so no conversion on the way fails (`exists_endOf`,
`exists_addOne`).
-/

namespace CasualDate.Calendar

variable {c : Calendar} {d : Date} {l : LocalDate} {now : Instant} {m : Nat} {y : Int}

theorem exists_addDays? {n : Int} (hd : d.IsCentral) (hlow : -800 ≤ n) (hhigh : n ≤ 800) :
    ∃ e, orOffCalendar (d.addDays? n) = .ok e ∧ e.IsConvertible := by
  obtain ⟨e, he, hconvertible⟩ :=
    hd.exists_ofDayNumber? (n := d.dayNumber + n) (by omega) (by omega)
  exact ⟨e, by rw [Date.addDays?, he]; rfl, hconvertible⟩

theorem exists_clamped {day : Nat} (hd : d.IsCentral) (hm : 1 ≤ m) (hle : m ≤ 12) (hday : 1 ≤ day)
    (hyear : c.yearAt d ≤ y) (hnext : y ≤ c.yearAt d + 1) :
    ∃ e, c.clamped ⟨y, m, day⟩ = .ok e ∧ e.IsConvertible := by
  have hdate : c.reckoning.HasDate ⟨y, m, min day (c.reckoning.daysInMonth y m)⟩ :=
    hasDate_iff.2 ⟨hm, hle, Nat.le_min.2 ⟨hday, c.daysInMonth_pos y hm hle⟩, Nat.min_le_right ..⟩
  obtain ⟨e, he, hconvertible, -⟩ := exists_ofLocal hd hdate hyear hnext
  refine ⟨e, ?_, hconvertible⟩
  rw [clamped, daysInMonth_eq hd hm hle hyear hnext]
  exact he

theorem exists_lastOfMonth (hd : d.IsCentral) (hm : 1 ≤ m) (hle : m ≤ 12)
    (hyear : c.yearAt d ≤ y) (hnext : y ≤ c.yearAt d + 1) :
    ∃ e, c.ofLocal ⟨y, m, c.reckoning.daysInMonth y m⟩ = .ok e ∧ e.IsConvertible := by
  have hdate : c.reckoning.HasDate ⟨y, m, c.reckoning.daysInMonth y m⟩ :=
    hasDate_iff.2 ⟨hm, hle, c.daysInMonth_pos y hm hle, Nat.le_refl _⟩
  obtain ⟨e, he, hconvertible, -⟩ := exists_ofLocal hd hdate hyear hnext
  exact ⟨e, he, hconvertible⟩

theorem exists_lastDayOf (hd : d.IsCentral) (p : Period) :
    ∃ e, c.lastDayOf d p = .ok e ∧ e.IsConvertible := by
  obtain ⟨hm, hle, -, -⟩ := hasDate_iff.1 (c.lawful.hasDate_localDate d.dayNumber)
  have hnext : c.yearAt d ≤ c.yearAt d + 1 := by omega
  cases p with
  | week =>
    have := d.weekday.daysUntil_lt c.weekStart.pred
    exact exists_addDays? hd (by omega) (by omega)
  | month =>
    obtain ⟨e, he, hconvertible⟩ := exists_lastOfMonth hd hm hle (Int.le_refl _) hnext
    refine ⟨e, ?_, hconvertible⟩
    rw [lastDayOf, toLocal_eq hd.isConvertible]
    exact congrArg orRefuse he
  | year =>
    have hdays : c.daysInMonth (c.reckoning.localDate d.dayNumber).year 12 =
        .ok (c.reckoning.daysInMonth (c.yearAt d) 12) :=
      daysInMonth_eq hd (by decide) (by decide) (Int.le_refl _) hnext
    obtain ⟨e, he, hconvertible⟩ :=
      exists_lastOfMonth (m := 12) hd (by decide) (by decide) (Int.le_refl _) hnext
    refine ⟨e, ?_, hconvertible⟩
    rw [lastDayOf, toLocal_eq hd.isConvertible]
    simp only [bind, Except.bind, monthsInYear_eq, hdays]
    exact congrArg orRefuse he

theorem exists_dateOneOn (hd : d.IsCentral) (p : Period) :
    ∃ e, c.dateOneOn d p = .ok e ∧ e.IsConvertible := by
  obtain ⟨hm, hle, hday, -⟩ := hasDate_iff.1 (c.lawful.hasDate_localDate d.dayNumber)
  have hnext : c.yearAt d ≤ c.yearAt d + 1 := by omega
  cases p with
  | week => exact exists_addDays? hd (by decide) (by decide)
  | month =>
    rw [dateOneOn, toLocal_eq hd.isConvertible]
    simp only [bind, Except.bind, monthsInYear_eq]
    split
    · obtain ⟨e, he, hconvertible⟩ :=
        exists_clamped hd (Nat.le_refl 1) (by decide) hday hnext (Int.le_refl _)
      exact ⟨e, congrArg orRefuse he, hconvertible⟩
    · next hlast =>
      obtain ⟨e, he, hconvertible⟩ :=
        exists_clamped hd (Nat.le_add_left 1 _) (Nat.lt_of_not_le hlast) hday (Int.le_refl _) hnext
      exact ⟨e, congrArg orRefuse he, hconvertible⟩
  | year =>
    obtain ⟨e, he, hconvertible⟩ := exists_clamped hd hm hle hday hnext (Int.le_refl _)
    refine ⟨e, ?_, hconvertible⟩
    rw [dateOneOn, toLocal_eq hd.isConvertible]
    exact congrArg orRefuse he

/-- The period that holds a central instant has an end, which can be converted. -/
theorem exists_endOf (hnow : now.date.IsCentral) (p : Period) :
    ∃ t, c.endOf now p = .ok t ∧ t.date.IsConvertible := by
  obtain ⟨e, he, hconvertible⟩ := exists_lastDayOf (c := c) hnow p
  exact ⟨⟨e, .endOfDay⟩, by rw [endOf, he]; rfl, hconvertible⟩

theorem exists_addOne (hnow : now.date.IsCentral) (p : Period) :
    ∃ t, c.addOne now p = .ok t ∧ t.date.IsConvertible := by
  obtain ⟨e, he, hconvertible⟩ := exists_dateOneOn (c := c) hnow p
  exact ⟨⟨e, now.time⟩, by rw [addOne, he]; rfl, hconvertible⟩

end CasualDate.Calendar
