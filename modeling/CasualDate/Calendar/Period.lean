import CasualDate.Calendar.Local
import CasualDate.Instant
import CasualDate.TimeUnit

/-!
# Ends of periods and steps over them

The end of the week, month or year that holds an instant, and the instant one such period later.
Weeks are counted in days and can run off the range of dates; months and years are counted on the
calendar and are refused where it has no answer.
-/

namespace CasualDate.Calendar

/-- The last day of the period that holds the date. -/
def lastDayOf (c : Calendar) (d : Date) : Period → Except Failure Date
  | .week => orOffCalendar (d.addDays? (d.weekday.daysUntil c.weekStart.pred))
  | .month => orRefuse do
    let today ← c.toLocal d
    c.ofLocal { today with day := c.reckoning.daysInMonth today.year today.month }
  | .year => orRefuse do
    let today ← c.toLocal d
    let month := c.reckoning.monthsInYear today.year
    let day ← c.daysInMonth today.year month
    c.ofLocal ⟨today.year, month, day⟩

/-- The last millisecond of the period that holds the instant. -/
def endOf (c : Calendar) (now : Instant) (p : Period) : Except Failure Instant := do
  return ⟨← c.lastDayOf now.date p, .endOfDay⟩

/-- The day of a month, or the month's last day if it has no such day. -/
def clamped (c : Calendar) (l : LocalDate) : Except Error Date := do
  let days ← c.daysInMonth l.year l.month
  c.ofLocal { l with day := min l.day days }

def dateOneOn (c : Calendar) (d : Date) : Period → Except Failure Date
  | .week => orOffCalendar (d.addDays? 7)
  | .month => orRefuse do
    let today ← c.toLocal d
    if c.reckoning.monthsInYear today.year ≤ today.month then
      c.clamped ⟨today.year + 1, 1, today.day⟩
    else c.clamped { today with month := today.month + 1 }
  | .year => orRefuse do
    let today ← c.toLocal d
    c.clamped { today with year := today.year + 1 }

/-- The instant one period later, at the same time of day. -/
def addOne (c : Calendar) (now : Instant) (p : Period) : Except Failure Instant := do
  return ⟨← c.dateOneOn now.date p, now.time⟩

end CasualDate.Calendar
