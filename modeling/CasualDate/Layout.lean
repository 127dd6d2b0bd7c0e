import CasualDate.Calendar.Local
import CasualDate.Instant

/-!
# Output patterns

A pattern such as `dddd, D MMMM YYYY` is read into pieces: fields of the instant, and text. Text in
square brackets is copied as it stands, up to the end of the pattern if the bracket is not closed,
and a character that begins no field stands for itself.
-/

namespace CasualDate

namespace Layout

inductive Field where
  | year | shortYear
  | monthName | shortMonthName | paddedMonth | month
  | paddedDay | dayWithSuffix | day
  | weekdayName | shortWeekdayName | weekdayNumber
  | paddedHour | hour | paddedHour12 | hour12
  | paddedMinute | minute | paddedSecond | second
  | upperMeridiem | lowerMeridiem
deriving DecidableEq

namespace Field

def letters : Field → List Char
  | year => ['Y', 'Y', 'Y', 'Y']
  | shortYear => ['Y', 'Y']
  | monthName => ['M', 'M', 'M', 'M']
  | shortMonthName => ['M', 'M', 'M']
  | paddedMonth => ['M', 'M']
  | month => ['M']
  | paddedDay => ['D', 'D']
  | dayWithSuffix => ['D', 'o']
  | day => ['D']
  | weekdayName => ['d', 'd', 'd', 'd']
  | shortWeekdayName => ['d', 'd', 'd']
  | weekdayNumber => ['d']
  | paddedHour => ['H', 'H']
  | hour => ['H']
  | paddedHour12 => ['h', 'h']
  | hour12 => ['h']
  | paddedMinute => ['m', 'm']
  | minute => ['m']
  | paddedSecond => ['s', 's']
  | second => ['s']
  | upperMeridiem => ['A']
  | lowerMeridiem => ['a']

/-- All fields, those with more letters first. -/
def all : List Field :=
  [year, monthName, weekdayName, shortMonthName, shortWeekdayName, shortYear, paddedMonth,
    paddedDay, dayWithSuffix, paddedHour, paddedHour12, paddedMinute, paddedSecond, month, day,
    weekdayNumber, hour, hour12, minute, second, upperMeridiem, lowerMeridiem]

/-- The field with the most letters that the text begins with. -/
def atStart? (cs : List Char) : Option Field :=
  all.find? fun f => f.letters.isPrefixOf cs

end Field

inductive Piece where
  | field (f : Field)
  | text (cs : List Char)
deriving DecidableEq

def pieces : List Char → List Piece
  | [] => []
  | c :: cs =>
    if c = '[' then
      .text (cs.takeWhile (· ≠ ']')) :: pieces ((cs.dropWhile (· ≠ ']')).drop 1)
    else
      match Field.atStart? (c :: cs) with
      | some f => .field f :: pieces (cs.drop (f.letters.length - 1))
      | none => .text [c] :: pieces cs
termination_by cs => cs.length
decreasing_by
  · have := (List.dropWhile_sublist (l := cs) (· ≠ ']')).length_le
    simp only [List.length_drop, List.length_cons]
    omega
  · simp only [List.length_drop, List.length_cons]
    omega
  · simp

def ordinalSuffix (n : Nat) : String :=
  if 11 ≤ n % 100 ∧ n % 100 ≤ 13 then "th"
  else match n % 10 with
    | 1 => "st"
    | 2 => "nd"
    | 3 => "rd"
    | _ => "th"

def clockHour (hour : Nat) : Nat :=
  if hour % 12 = 0 then 12 else hour % 12

/-- A field of an instant whose date the calendar names `l`. -/
def Field.render (c : Calendar) (l : LocalDate) (t : Instant) : Field → List Char
  | year => Text.paddedInt 4 l.year
  | shortYear => Text.padded 2 (l.year % 100).toNat
  | monthName => (c.monthName l.month).toList
  | shortMonthName => (c.monthName l.month).toList.take 3
  | paddedMonth => Text.padded 2 l.month
  | month => Text.decimal l.month
  | paddedDay => Text.padded 2 l.day
  | dayWithSuffix => Text.decimal l.day ++ (ordinalSuffix l.day).toList
  | day => Text.decimal l.day
  | weekdayName => t.date.weekday.name.toList
  | shortWeekdayName => t.date.weekday.name.toList.take 3
  | weekdayNumber => Text.decimal t.date.weekday.index
  | paddedHour => Text.padded 2 t.time.hour
  | hour => Text.decimal t.time.hour
  | paddedHour12 => Text.padded 2 (clockHour t.time.hour)
  | hour12 => Text.decimal (clockHour t.time.hour)
  | paddedMinute => Text.padded 2 t.time.minute
  | minute => Text.decimal t.time.minute
  | paddedSecond => Text.padded 2 t.time.clockSecond
  | second => Text.decimal t.time.clockSecond
  | upperMeridiem => if t.time.hour < 12 then ['A', 'M'] else ['P', 'M']
  | lowerMeridiem => if t.time.hour < 12 then ['a', 'm'] else ['p', 'm']

def Piece.render (c : Calendar) (l : LocalDate) (t : Instant) : Piece → List Char
  | .field f => f.render c l t
  | .text cs => cs

end Layout

/-- The instant in the calendar, written by the pattern. -/
def Instant.format (t : Instant) (pattern : String) (c : Calendar) : Except Error String := do
  let l ← c.toLocal t.date
  return String.ofList ((Layout.pieces pattern.toList).flatMap (·.render c l t))

end CasualDate
