import CasualDate.Reckoning
import CasualDate.Month
import CasualDate.Text.Lowercase
import CasualDate.Text.CharTable
import CasualDate.Weekday

/-!
# Calendars

The calendars that period boundaries are computed in and output is written in.
-/

namespace CasualDate

inductive Calendar where
  | gregorian | persian
deriving DecidableEq

namespace Calendar

def reckoning : Calendar → Reckoning
  | gregorian => CasualDate.gregorian
  | persian => CasualDate.persian

def name : Calendar → String
  | gregorian => "Gregorian"
  | persian => "Persian"

def weekStart : Calendar → Weekday
  | gregorian => .sunday
  | persian => .saturday

def monthNames : Calendar → List String
  | gregorian => Month.all.map Month.name
  | persian =>
    ["Farvardin", "Ordibehesht", "Khordad", "Tir", "Mordad", "Shahrivar", "Mehr", "Aban", "Azar",
      "Dey", "Bahman", "Esfand"]

def monthName (c : Calendar) (month : Nat) : String :=
  c.monthNames.getD (month - 1) ""

/-- The calendar with a name such as `jalali`, or the calendar of a locale such as `fa_IR`. -/
def ofName? (s : String) : Option Calendar :=
  let name := (Text.lower (Text.trim s)).toList.map fun c => if c = '_' then '-' else c
  let language := name.takeWhile (· ≠ '-')
  if ["gregorian", "gregory", "iso"].any (·.toList = name) then some gregorian
  else if ["persian", "jalali", "solar-hijri"].any (·.toList = name) then some persian
  else if language = "fa".toList then some persian
  else if language = "en".toList then some gregorian
  else none

end Calendar

end CasualDate
