import CasualDate.Proofs.Calendar.OnePeriodOn

/-!
# One day after the other

In both calendars the days have names without gaps and without repeats. A day is followed by the
next day of its month, the last day of a month by the first of the next month, and the last day of
a year by the first of the next year (`toLocal_next`). The length of a month that the calendar tells
is therefore the place where the names turn over to the next month, in leap years, too.
-/

namespace CasualDate

namespace Reckoning

variable {r : Reckoning} {l m : LocalDate}

/-- The name of the day after the day with a name. -/
def dayAfter (r : Reckoning) (l : LocalDate) : LocalDate :=
  if l.day < r.daysInMonth l.year l.month then ⟨l.year, l.month, l.day + 1⟩
  else if l.month < r.monthsInYear l.year then ⟨l.year, l.month + 1, 1⟩
  else ⟨l.year + 1, 1, 1⟩

theorem Lawful.dayNumber_dayAfter (h : r.Lawful) (hl : r.HasDate l) :
    r.dayNumber (r.dayAfter l) = r.dayNumber l + 1 := by
  obtain ⟨hm, hle, hday, hlast⟩ := id hl
  unfold dayAfter
  split
  · -- Within a month only the last summand of the number grows.
    simp only [dayNumber]
    omega
  · next hend =>
    have heq : l.day = r.daysInMonth l.year l.month := by omega
    have hnext := h.dayNumber_nextMonth hm hle (heq ▸ hday)
    rwa [← heq] at hnext

end Reckoning

namespace Calendar

variable {c : Calendar} {d e : Date} {l m : LocalDate}

theorem hasDate_dayAfter (hl : c.reckoning.HasDate l) :
    c.reckoning.HasDate (c.reckoning.dayAfter l) := by
  obtain ⟨hm, hle, hday, hlast⟩ := hasDate_iff.1 hl
  unfold Reckoning.dayAfter
  split
  · next hlt => exact hasDate_iff.2 ⟨hm, hle, Nat.le_add_left 1 l.day, hlt⟩
  · exact c.hasDate_nextMonth l.year l.month

/-- The name of the day after a day is the one after its name, and no other day has it. -/
theorem localDate_eq_dayAfter_iff (c : Calendar) (d e : Date) :
    c.reckoning.localDate e.dayNumber = c.reckoning.dayAfter (c.reckoning.localDate d.dayNumber) ↔
      e.dayNumber = d.dayNumber + 1 := by
  have hname := c.lawful.hasDate_localDate d.dayNumber
  have hnumber : c.reckoning.dayNumber
      (c.reckoning.dayAfter (c.reckoning.localDate d.dayNumber)) = d.dayNumber + 1 := by
    rw [c.lawful.dayNumber_dayAfter hname, c.lawful.dayNumber_localDate]
  constructor
  · intro h
    rw [← hnumber, ← h, c.lawful.dayNumber_localDate]
  · intro h
    rw [h, ← hnumber, c.lawful.localDate_dayNumber (hasDate_dayAfter hname)]

/-- Days that can be converted follow each other as their names do: one day is the next after the
other exactly if its name is the next one, and it is earlier exactly if its name comes before. -/
theorem toLocal_next (hd : c.toLocal d = .ok l) (he : c.toLocal e = .ok m) :
    (d.addDays? 1 = some e ↔ m = c.reckoning.dayAfter l) ∧
      (d.dayNumber < e.dayNumber ↔ l.Precedes m) := by
  obtain ⟨-, rfl⟩ := toLocal_eq_ok_iff.1 hd
  obtain ⟨-, rfl⟩ := toLocal_eq_ok_iff.1 he
  refine ⟨?_, c.lt_iff_precedes d e⟩
  rw [localDate_eq_dayAfter_iff, Date.addDays?]
  constructor
  · exact Date.dayNumber_ofDayNumber?
  · intro h
    rw [← h, e.ofDayNumber?_dayNumber]

/-- 30 Esfand 1403, a leap day, is followed by 1 Farvardin 1404. -/
theorem toLocal_next_leapDay :
    let leapDay : Date := ⟨739330, by decide, by decide⟩
    let newYear : Date := ⟨739331, by decide, by decide⟩
    (leapDay.addDays? 1 = some newYear ↔ (⟨1404, 1, 1⟩ : LocalDate) =
        persian.reckoning.dayAfter ⟨1403, 12, 30⟩) ∧
      (leapDay.dayNumber < newYear.dayNumber ↔
        LocalDate.Precedes ⟨1403, 12, 30⟩ ⟨1404, 1, 1⟩) :=
  toLocal_next (by decide +kernel) (by decide +kernel)

end Calendar

end CasualDate
