/-!
# Reckonings of days by year, month and day

Days are numbered in one sequence, day 1 being the first of January of year 1. A reckoning divides
the sequence into years and each year into months; `dayNumber` and `localDate` go from the one
description of a day to the other.

The Gregorian reckoning is extended to all years before and after its introduction; the year before
year 1 is year 0. The Persian one is the solar Hijri calendar by the rule of 33 years, with a list of
years whose leap day the rule would put one year late. Year 1 begins on 21 March 622; year 0 and
negative years exist.
-/

namespace CasualDate

structure LocalDate where
  year : Int
  month : Nat
  day : Nat
deriving DecidableEq

/-- Where the years begin, how long their months are, and which year a day lies in. -/
structure Reckoning where
  newYear : Int → Int
  monthLengths : Int → List Nat
  yearOf : Int → Int

namespace Reckoning

variable (r : Reckoning)

def monthsInYear (year : Int) : Nat :=
  (r.monthLengths year).length

/-- The number of days of a month, 0 for a month that the year does not have. -/
def daysInMonth (year : Int) (month : Nat) : Nat :=
  if month = 0 then 0 else (r.monthLengths year).getD (month - 1) 0

/-- The year has the month and the month has the day. -/
def HasDate (d : LocalDate) : Prop :=
  1 ≤ d.month ∧ d.month ≤ r.monthsInYear d.year ∧ 1 ≤ d.day ∧ d.day ≤ r.daysInMonth d.year d.month

instance (d : LocalDate) : Decidable (r.HasDate d) := by
  unfold HasDate; infer_instance

/-- The number of days in months with the given lengths. -/
def totalDays : (lengths : List Nat) → Nat
  | [] => 0
  | len :: lengths => len + totalDays lengths

def dayNumber (d : LocalDate) : Int :=
  r.newYear d.year + totalDays ((r.monthLengths d.year).take (d.month - 1)) + (d.day - 1 : Nat)

/-- The month and the day of the month that lie `n` days after the first day of months with the
given lengths. -/
def locate : (lengths : List Nat) → (n : Nat) → Nat × Nat
  | [], n => (1, n + 1)
  | len :: lengths, n =>
    if n < len then (1, n + 1)
    else
      let (month, day) := locate lengths (n - len)
      (month + 1, day)

def localDate (n : Int) : LocalDate :=
  let year := r.yearOf n
  let (month, day) := locate (r.monthLengths year) (n - r.newYear year).toNat
  ⟨year, month, day⟩

/-- The year of day `n`, given a guess that is off by at most one. -/
def settle (newYear : Int → Int) (guess n : Int) : Int :=
  if n < newYear guess then guess - 1
  else if newYear (guess + 1) ≤ n then guess + 1
  else guess

end Reckoning

/-! ### The Gregorian reckoning -/

namespace Gregorian

/-- Every fourth year is a leap year, except the centuries that 400 does not divide. -/
def isLeap (year : Int) : Bool :=
  year % 4 == 0 && (year % 100 != 0 || year % 400 == 0)

def monthLengths (year : Int) : List Nat :=
  [31, if isLeap year then 29 else 28, 31, 30, 31, 30, 31, 31, 30, 31, 30, 31]

def newYear (year : Int) : Int :=
  let past := year - 1
  365 * past + past / 4 - past / 100 + past / 400 + 1

/-- The year that holds day `n`: 400 years have 146097 days. -/
def yearOf (n : Int) : Int :=
  Reckoning.settle newYear (400 * n / 146097 + 1) n

end Gregorian

def gregorian : Reckoning where
  newYear := Gregorian.newYear
  monthLengths := Gregorian.monthLengths
  yearOf := Gregorian.yearOf

/-! ### The Persian reckoning -/

namespace Persian

/-- The day after the first day of year 1. -/
def epoch : Int :=
  226896

/-- The years whose last day is taken from the year before the one that the rule makes leap: the
year after each of them begins a day early. -/
def corrections : List Int :=
  [1502, 1601, 1634, 1667, 1700, 1733, 1766, 1799, 1832, 1865, 1898, 1931, 1964, 1997, 2030, 2059,
   2063, 2096, 2129, 2158, 2162, 2191, 2195, 2224, 2228, 2257, 2261, 2290, 2294, 2323, 2327, 2356,
   2360, 2389, 2393, 2422, 2426, 2455, 2459, 2488, 2492, 2521, 2525, 2554, 2558, 2587, 2591, 2620,
   2624, 2653, 2657, 2686, 2690, 2719, 2723, 2748, 2752, 2756, 2781, 2785, 2789, 2818, 2822, 2847,
   2851, 2855, 2880, 2884, 2888, 2913, 2917, 2921, 2946, 2950, 2954, 2979, 2983, 2987]

/-- A corrected year is no leap year and the year after it is one; all others follow the rule. -/
def isLeap (year : Int) : Bool :=
  if corrections.contains (year - 1) then true
  else if corrections.contains year then false
  else (25 * year + 11) % 33 < 8

def monthLengths (year : Int) : List Nat :=
  [31, 31, 31, 31, 31, 31, 30, 30, 30, 30, 30, if isLeap year then 30 else 29]

def newYear (year : Int) : Int :=
  epoch - 1 + 365 * (year - 1) + (8 * year + 21) / 33 -
    (if corrections.contains (year - 1) then 1 else 0)

/-- The year that holds day `n`: 33 years have 12053 days. -/
def yearOf (n : Int) : Int :=
  Reckoning.settle newYear (33 * (n - epoch) / 12053 + 1) n

end Persian

def persian : Reckoning where
  newYear := Persian.newYear
  monthLengths := Persian.monthLengths
  yearOf := Persian.yearOf

end CasualDate
