import CasualDate.Calendar.Basic
import CasualDate.Date
import CasualDate.Text.Displayed
import CasualDate.TimeUnit

/-!
# Errors

Every refusal has its cause as a constructor; `message` is its wording. A computation can also break
down, which is no refusal: nothing is answered then.
-/

namespace CasualDate

inductive Meridiem where
  | am | pm
deriving DecidableEq

/-- Why an expression names no date. -/
inductive InvalidDate where
  | monthDay (month day : Nat)
  | yearMonthDay (year month day : Nat)
  | yearMonth (year : Int) (month : Nat)
  | month (month : Nat)
  | year (year : Nat)
  | time (hour minute : Nat) (half : Option Meridiem)
  | length (count : Nat) (unit : TimeUnit)
  | monthShift (date : Date) (months : Int) (unit : TimeUnit)
  | dayShift (date : Date) (days : Int)
deriving DecidableEq

/-- Why a calendar has no answer. -/
inductive CalendarError where
  /-- The date lies outside the years that calendars are computed for. -/
  | outside (date : Date)
  /-- There is no such day, or it lies outside the range of dates. -/
  | noSuchDay (date : LocalDate) (calendar : Calendar)
deriving DecidableEq

inductive Error where
  | invalidDate (cause : InvalidDate)
  /-- The words make an expression that has no meaning, such as a time in "this month". -/
  | meaningless
  /-- The text after "last day of" or "end of" names no month. -/
  | malformedRemainder (text : String)
  | calendar (cause : CalendarError)
  | unknownWeekday (text : String)
  | unknownCalendar (text : String)
deriving DecidableEq

/-- Why a computation breaks down. -/
inductive Breakdown where
  /-- It leaves the range of dates where that is no reason to refuse. -/
  | offCalendar
  /-- It needs the century of a two-digit year, and the current year gives none. -/
  | noCentury
deriving DecidableEq

/-- How a computation fails: it is refused for a reason, or it breaks down. -/
inductive Failure where
  | refused (error : Error)
  | broken (cause : Breakdown)
deriving DecidableEq

instance instDecidableEqAnswer {ε α : Type} [DecidableEq ε] [DecidableEq α] :
    DecidableEq (Except ε α)
  | .ok a, .ok b => decidable_of_iff (a = b) (by simp)
  | .error e, .error f => decidable_of_iff (e = f) (by simp)
  | .ok _, .error _ => .isFalse (by simp)
  | .error _, .ok _ => .isFalse (by simp)

def orRefuse {α : Type} (x : Except Error α) : Except Failure α :=
  x.mapError .refused

/-- A missing value as a failure to stay in the range of dates. -/
def orOffCalendar {α : Type} : Option α → Except Failure α
  | some a => .ok a
  | none => .error (.broken .offCalendar)

def Breakdown.message : Breakdown → String
  | offCalendar => "The date lies outside the calendar"
  | noCentury => "A two-digit year has no century in the current year"

def InvalidDate.message : InvalidDate → String
  | .monthDay m d => "Invalid month-day: " ++ toString m ++ "-" ++ toString d
  | .yearMonthDay y m d =>
    "Invalid year-month-day: " ++ toString y ++ "-" ++ toString m ++ "-" ++ toString d
  | .yearMonth y m => "Invalid year-month: " ++ toString y ++ "-" ++ toString m
  | .month m => "Invalid month: " ++ toString m
  | .year y => "Invalid year: " ++ toString y
  | .time h m half =>
    let suffix := match half with
      | none => ""
      | some .am => " am"
      | some .pm => " pm"
    "Invalid time: " ++ toString h ++ ":" ++ toString m ++ suffix
  | .length n unit => toString n ++ " " ++ unit.name ++ " is out of range"
  | .monthShift date months unit =>
    date.iso ++ " shifted by " ++ toString months ++ " months (" ++ unit.name ++
      ") is out of range"
  | .dayShift date days =>
    date.iso ++ " shifted by " ++ toString days ++ " days is out of range"

def CalendarError.message : CalendarError → String
  | .outside date => date.iso ++ " cannot be converted"
  | .noSuchDay d calendar =>
    toString d.year ++ "/" ++ toString d.month ++ "/" ++ toString d.day ++ " is not a valid " ++
      calendar.name ++ " date"

def Error.message : Error → String
  | .invalidDate cause => "Invalid date: " ++ cause.message
  | .meaningless => "Unable to parse date"
  | .malformedRemainder text => "No month or year found in " ++ Text.quoted text
  | .calendar cause => "Calendar error: " ++ cause.message
  | .unknownWeekday text => "Unknown weekday: " ++ text
  | .unknownCalendar text => "Unknown calendar: " ++ text

end CasualDate
