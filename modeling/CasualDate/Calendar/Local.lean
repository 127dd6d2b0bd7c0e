import CasualDate.Error

/-!
# Dates as a calendar names them

`toLocal` and `ofLocal` go between dates and the local dates of a calendar. The first answers only
for the Gregorian years -9999 to 9999, the second for every local date that lies in the range of
dates.
-/

namespace CasualDate.Calendar

def toLocal (c : Calendar) (d : Date) : Except Error LocalDate :=
  if -9999 ≤ d.year ∧ d.year ≤ 9999 then .ok (c.reckoning.localDate d.dayNumber)
  else .error (.calendar (.outside d))

/-- The date that the calendar names so. Nothing is clamped. -/
def ofLocal (c : Calendar) (l : LocalDate) : Except Error Date :=
  let date := if c.reckoning.HasDate l then Date.ofDayNumber? (c.reckoning.dayNumber l) else none
  match date with
  | some d => .ok d
  | none => .error (.calendar (.noSuchDay l c))

/-- The number of days of a month, if its first day can be converted. -/
def daysInMonth (c : Calendar) (year : Int) (month : Nat) : Except Error Nat := do
  let first ← c.toLocal (← c.ofLocal ⟨year, month, 1⟩)
  return c.reckoning.daysInMonth first.year first.month

end Calendar

/-- The number of days of a Gregorian month: the day before the first of the next month. -/
def lastDayOfMonth (year : Int) (month : Nat) : Except Error Nat :=
  let last := do
    let first ← Date.ofCivil? year month 1
    let next ← first.addMonths? 1
    next.addDays? (-1)
  match last with
  | some d => .ok d.day
  | none => .error (.invalidDate (.yearMonth year month))

end CasualDate
