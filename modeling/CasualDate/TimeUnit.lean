import CasualDate.Text.Lowercase

/-!
# Units of time

Days, weeks, hours and minutes always have the same length; months and years are counted on the
calendar. Weeks, months and years are also the periods that an instant lies in and that can be
stepped over.
-/

namespace CasualDate

inductive TimeUnit where
  | day | week | hour | minute | month | year
deriving DecidableEq

namespace TimeUnit

def name : TimeUnit → String
  | day => "Day"
  | week => "Week"
  | hour => "Hour"
  | minute => "Minute"
  | month => "Month"
  | year => "Year"

def isSubDaily : TimeUnit → Bool
  | hour | minute => true
  | _ => false

/-- How much one unit is: a number of minutes, or a number of months. -/
inductive Length where
  | minutes (n : Nat)
  | months (n : Nat)
deriving DecidableEq

def length : TimeUnit → Length
  | day => .minutes 1440
  | week => .minutes 10080
  | hour => .minutes 60
  | minute => .minutes 1
  | month => .months 1
  | year => .months 12

end TimeUnit

inductive Period where
  | week | month | year
deriving DecidableEq

namespace Period

def name : Period → String
  | week => "Week"
  | month => "Month"
  | year => "Year"

def ofName? (s : String) : Option Period :=
  match Text.lower s with
  | "week" => some week
  | "month" => some month
  | "year" => some year
  | _ => none

end Period

end CasualDate
