import CasualDate.Reckoning
import CasualDate.Text.Decimal
import CasualDate.Weekday

/-!
# Dates

A date is a day of a bounded range, from the first day of the Gregorian year -262143 to the last
day of the year 262142. It is held as its day number, so that counting days and weekdays needs no
calendar; `civil` is its Gregorian name.
-/

namespace CasualDate

/-- The day number of 1 January of year -262143. -/
def firstDay : Int :=
  -95746129

/-- The day number of 31 December of year 262142. -/
def lastDay : Int :=
  95745399

theorem firstDay_eq : firstDay = gregorian.newYear (-262143) := by decide

theorem lastDay_eq : lastDay + 1 = gregorian.newYear 262143 := by decide

/-- A day of the range. -/
structure Date where
  dayNumber : Int
  firstDay_le : firstDay ≤ dayNumber
  le_lastDay : dayNumber ≤ lastDay
deriving DecidableEq

namespace Date

def ofDayNumber? (n : Int) : Option Date :=
  if h : firstDay ≤ n ∧ n ≤ lastDay then some ⟨n, h.1, h.2⟩ else none

theorem dayNumber_ofDayNumber? {n : Int} {d : Date} (h : ofDayNumber? n = some d) :
    d.dayNumber = n := by
  unfold ofDayNumber? at h
  split at h
  · cases h; rfl
  · cases h

/-- The date with a Gregorian year, month and day, if there is one in the range. -/
def ofCivil? (year : Int) (month day : Nat) : Option Date :=
  if gregorian.HasDate ⟨year, month, day⟩ then
    ofDayNumber? (gregorian.dayNumber ⟨year, month, day⟩)
  else none

def civil (d : Date) : LocalDate :=
  gregorian.localDate d.dayNumber

def year (d : Date) : Int :=
  d.civil.year

def month (d : Date) : Nat :=
  d.civil.month

def day (d : Date) : Nat :=
  d.civil.day

/-- The day of the week; day 0 is a Sunday. -/
def weekday (d : Date) : Weekday :=
  .ofIndex (d.dayNumber % 7).toNat

/-- The date `n` days later, or earlier if `n` is negative. -/
def addDays? (d : Date) (n : Int) : Option Date :=
  ofDayNumber? (d.dayNumber + n)

/-- The same day of the month `n` months later or earlier, or the month's last day if it has no
such day. -/
def addMonths? (d : Date) (n : Int) : Option Date :=
  let months := 12 * d.year + (d.month - 1 : Nat) + n
  let year := months / 12
  let month := (months % 12).toNat + 1
  ofCivil? year month (min d.day (gregorian.daysInMonth year month))

/-- The date as `2024-04-17`; a year that has not four digits carries its sign. -/
def iso (d : Date) : String :=
  let y := d.year
  let year := if 0 ≤ y ∧ y ≤ 9999 then Text.paddedInt 4 y else Text.paddedSigned 5 y
  String.ofList (year ++ '-' :: Text.padded 2 d.month ++ '-' :: Text.padded 2 d.day)

end Date

end CasualDate
