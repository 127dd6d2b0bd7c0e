import CasualDate.Expr.Duration
import CasualDate.Components

/-!
# Dates in text

The ways to write a date: with a month's name before or after the day, in numbers, as a duration
from another date, relative to the current day, or as a weekday. `parse?` tries them in order;
no two of them begin with the same words and both succeed where the order would matter.
-/

namespace CasualDate

inductive DateExpr where
  | numericFull (month day year : Nat)
  | monthDayYear (month : Month) (day year : Nat)
  | numeric (month day : Nat)
  | monthDay (month : Month) (day : Nat)
  | monthYear (month : Month) (year : Nat)
  | month (month : Month)
  | today
  | tomorrow
  | yesterday
  | before (d : Duration) (date : DateExpr)
  | after (d : Duration) (date : DateExpr)
  | relativeUnit (r : Relative) (unit : TimeUnit)
  | relativeWeekday (r : Relative) (day : Weekday)
  | weekday (day : Weekday)
  | unstated
deriving DecidableEq

namespace DateExpr

/-- The year after a day: a number of at least four digits after a comma, or a number that is not
the hour of a time. -/
def year? : (ws : List Word) → Option (Parsed Nat ws)
  | .comma :: rest => (Number.parse? rest).bind fun y =>
    if 1000 ≤ y.value then some y.behind else none
  | ws => (Number.parse? ws).bind fun y =>
    match y.rest with
    | .colon :: _ | .meridiem _ :: _ => none
    | _ => some y

/-- A day of a month, and the year if one follows the day. -/
def dayOf {ws : List Word} (m : Month) (day : Parsed Nat ws) : Parsed DateExpr ws :=
  match year? day.rest with
  | some y => (y.map (monthDayYear m day.value)).widen day.shorter
  | none => day.map (monthDay m)

def namedDay? : (ws : List Word) → Option (Parsed DateExpr ws) :=
  readWord? fun
    | .today => some today
    | .tomorrow => some tomorrow
    | .yesterday => some yesterday
    | _ => none

/-- A month with a day, a day and a year, or a year after it. No month has a 32nd day, so a larger
number is a year. -/
def monthFirst? : (ws : List Word) → Option (Parsed DateExpr ws)
  | .month m :: rest =>
    match Number.parse? rest with
    | none => some (.ofHead (month m))
    | some n =>
      if 31 < n.value then some (n.map (monthYear m)).behind
      else some (dayOf m (n.skip .ordinalSuffix).behind)
  | _ => none

/-- A day before its month, "the 15th of June". -/
def dayFirst? (ws : List Word) : Option (Parsed DateExpr ws) :=
  (Number.parse? (skipWord .the ws)).bind fun n =>
    let day := (n.skip .ordinalSuffix).skip .ofWord
    match h : day.rest with
    | .month m :: rest =>
      if n.value ≤ 31 then
        have hlt := Nat.lt_of_lt_of_le (day.shorter_of_rest_eq h) (length_skipWord_le .the ws)
        some (dayOf m ⟨n.value, rest, hlt⟩)
      else none
    | _ => none

def isDelimiter : Word → Bool
  | .slash | .dash | .dot => true
  | _ => false

/-- Month and day in the order that the mark between them asks for: the day comes first before a
dot. -/
def monthAndDay (delimiter : Word) (first second : Nat) : Nat × Nat :=
  if delimiter = .dot then (second, first) else (first, second)

/-- Two or three numbers with the same mark between them. -/
def numeric? (ws : List Word) : Option (Parsed DateExpr ws) :=
  (Number.parse? ws).bind fun first =>
    match h : first.rest with
    | delimiter :: rest =>
      have hlt := first.shorter_of_rest_eq h
      if isDelimiter delimiter then
        (Number.parse? rest).bind fun second =>
          let md := monthAndDay delimiter first.value second.value
          let short := (second.map fun _ => numeric md.1 md.2).widen hlt
          match h₂ : second.rest with
          | next :: rest₂ =>
            have hlt₂ := second.shorter_of_rest_eq h₂
            if next = delimiter then
              (Number.parse? rest₂).map fun third =>
                ((third.map (numericFull md.1 md.2)).widen hlt₂).widen hlt
            else some short
          | [] => some short
      else none
    | [] => none

def relative? : (ws : List Word) → Option (Parsed DateExpr ws)
  | .relative r :: .weekday d :: _ =>
    some (Parsed.ofHead (relativeWeekday r d)).behind
  | .relative r :: .unit u :: _ =>
    some (Parsed.ofHead (relativeUnit r u)).behind
  | _ => none

def weekday? : (ws : List Word) → Option (Parsed DateExpr ws) :=
  readWord? fun
    | .weekday d => some (weekday d)
    | _ => none

def parse? (ws : List Word) : Option (Parsed DateExpr ws) :=
  let byDuration : Option (Parsed DateExpr ws) :=
    match Duration.parse? ws with
    | none => none
    | some d =>
      if d.value.isSubDaily then none
      else
        match h : d.rest with
        | .agoWord :: rest => some ⟨before d.value today, rest, d.shorter_of_rest_eq h⟩
        | .afterWord :: rest | .fromWord :: rest =>
          have hlt := d.shorter_of_rest_eq h
          match parse? rest with
          | some e => some ((e.map (after d.value)).widen hlt)
          | none => none
        | _ => none
  namedDay? ws <|> monthFirst? ws <|> dayFirst? ws <|> numeric? ws <|> byDuration
    <|> relative? ws <|> weekday? ws
termination_by ws.length

def stated : DateExpr → Stated
  | numericFull .. | monthDayYear .. | today | tomorrow | yesterday | before .. | after .. =>
    .fullDate
  | numeric .. | monthDay .. => { month := true, day := true }
  | monthYear .. => { year := true, month := true }
  | month _ => { month := true }
  | relativeUnit _ .month => { year := true, month := true }
  | relativeUnit _ .year => { year := true }
  | relativeUnit _ _ => .fullDate
  | relativeWeekday .. | weekday _ => { weekday := true }
  | unstated => {}

/-- The full year of a number below one hundred, as seen from a year: in the 2000s if that is at
most ten years ahead, else in the 1900s. No year is found from the ten years before year 0, and
from any year before those it is in the 2000s. -/
def fullYear (reference : Int) (year : Nat) : Except Failure Nat :=
  if 100 ≤ year then .ok year
  else if -10 ≤ reference ∧ reference < 0 then .error (.broken .noCentury)
  else if 0 ≤ reference ∧ reference + 10 < 2000 + year then .ok (1900 + year)
  else .ok (2000 + year)

/-- The largest year that can be written. -/
def maxYear : Nat :=
  2147483647

/-- The date of a written year. -/
def inYear (year month day : Nat) (cause : InvalidDate) : Except Error Date :=
  if maxYear < year then .error (.invalidDate (.year year))
  else
    match Date.ofCivil? year month day with
    | some d => .ok d
    | none => .error (.invalidDate cause)

def inYearOf (today : Date) (month day : Nat) (cause : InvalidDate) : Except Error Date :=
  match Date.ofCivil? today.year month day with
  | some d => .ok d
  | none => .error (.invalidDate cause)

/-- How many days ahead the named weekday is. The week runs from the current day on: "this" is in
it, "next" a week later, and "last" a week earlier, never the current day itself. -/
def weekdayOffset (today : Weekday) (r : Relative) (day : Weekday) : Int :=
  let ahead : Int := today.daysUntil day
  match r with
  | .current => ahead
  | .following => ahead + 7
  | .previous => if ahead = 0 then -7 else ahead - 7

def evaluate (now : Date) : DateExpr → Except Failure Date
  | today | unstated => .ok now
  | yesterday => orOffCalendar (now.addDays? (-1))
  | tomorrow => orOffCalendar (now.addDays? 1)
  | numeric m d => orRefuse (inYearOf now m d (.monthDay m d))
  | monthDay m d => orRefuse (inYearOf now m.number d (.monthDay m.number d))
  | month m => orRefuse (inYearOf now m.number 1 (.month m.number))
  | numericFull m d y => do
    let y ← fullYear now.year y
    orRefuse (inYear y m d (.yearMonthDay y m d))
  | monthDayYear m d y => orRefuse (inYear y m.number d (.yearMonthDay y m.number d))
  | monthYear m y => orRefuse (inYear y m.number 1 (.yearMonth y m.number))
  | before d date => do orRefuse (d.shiftDate .backward (← date.evaluate now))
  | after d date => do orRefuse (d.shiftDate .forward (← date.evaluate now))
  | relativeUnit .current _ => .error (.refused .meaningless)
  | relativeUnit .following u => orRefuse ((Duration.count 1 u).shiftDate .forward now)
  | relativeUnit .previous u => orRefuse ((Duration.count 1 u).shiftDate .backward now)
  | relativeWeekday r day =>
    let days := weekdayOffset now.weekday r day
    match now.addDays? days with
    | some d => .ok d
    | none => .error (.refused (.invalidDate (.dayShift now days)))
  | weekday day => orOffCalendar (now.addDays? (now.weekday.daysUntil day))

def describe : DateExpr → String
  | numericFull m d y =>
    "MonthNumDayYear(" ++ toString m ++ ", " ++ toString d ++ ", " ++ toString y ++ ")"
  | monthDayYear m d y =>
    "MonthDayYear(" ++ m.name ++ ", " ++ toString d ++ ", " ++ toString y ++ ")"
  | numeric m d => "MonthNumDay(" ++ toString m ++ ", " ++ toString d ++ ")"
  | monthDay m d => "MonthDay(" ++ m.name ++ ", " ++ toString d ++ ")"
  | monthYear m y => "MonthYear(" ++ m.name ++ ", " ++ toString y ++ ")"
  | month m => "MonthOnly(" ++ m.name ++ ")"
  | today => "Today"
  | tomorrow => "Tomorrow"
  | yesterday => "Yesterday"
  | before d date => "Before(" ++ d.describe ++ ", " ++ date.describe ++ ")"
  | after d date => "After(" ++ d.describe ++ ", " ++ date.describe ++ ")"
  | relativeUnit r u => "UnitRelative(" ++ r.name ++ ", " ++ u.name ++ ")"
  | relativeWeekday r d => "Relative(" ++ r.name ++ ", " ++ d.name ++ ")"
  | weekday d => "Weekday(" ++ d.name ++ ")"
  | unstated => "Empty"

end DateExpr

end CasualDate
