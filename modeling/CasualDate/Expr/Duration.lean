import CasualDate.Instant
import CasualDate.Number

/-!
# Durations

A duration is a list of amounts of units, written "two weeks and a day". Days, weeks, hours and
minutes are exact; months and years are counted on the calendar, a day that the month reached does
not have becoming its last day. The parts are applied in the order they are written, both ways in
time.
-/

namespace CasualDate

inductive Duration where
  /-- One of a unit, "a week". -/
  | one (unit : TimeUnit)
  | count (n : Nat) (unit : TimeUnit)
  | both (first second : Duration)
deriving DecidableEq

namespace Duration

/-- An amount of one unit: a number or an article, and the unit. -/
def part? (ws : List Word) : Option (Parsed Duration ws) :=
  let unit := readWord? fun
    | .unit u => some u
    | _ => none
  let counted := (Number.parse? ws).bind fun n =>
    (unit n.rest).map fun u => (u.map (count n.value)).widen n.shorter
  let single := match ws with
    | .indefinite :: rest | .the :: rest =>
      (unit rest).map fun u => (u.map one).behind
    | _ => none
  counted <|> single

/-- A duration: amounts joined by "and". An "and" without an amount after it is left. -/
def parse? (ws : List Word) : Option (Parsed Duration ws) :=
  match part? ws with
  | none => none
  | some first =>
    match h : first.rest with
    | .andWord :: rest =>
      have hlt := first.shorter_of_rest_eq h
      match parse? rest with
      | some second => some ((second.map (both first.value)).widen hlt)
      | none => some first
    | _ => some first
termination_by ws.length

def parts : Duration → List (Nat × TimeUnit)
  | one u => [(1, u)]
  | count n u => [(n, u)]
  | both first second => first.parts ++ second.parts

def isSubDaily (d : Duration) : Bool :=
  d.parts.any fun part => part.2.isSubDaily

inductive Direction where
  | forward | backward
deriving DecidableEq

def Direction.apply : Direction → Nat → Int
  | forward, n => n
  | backward, n => -n

/-- The largest number of months that can be counted. -/
def maxMonths : Nat :=
  2147483647

def shiftMonths (dir : Direction) (d : Date) (n per : Nat) (unit : TimeUnit) : Except Error Date :=
  if maxMonths < n * per then .error (.invalidDate (.length n unit))
  else
    let months := dir.apply (n * per)
    match d.addMonths? months with
    | some e => .ok e
    | none => .error (.invalidDate (.monthShift d months unit))

/-- The date one part of a duration away, the unit being a day or longer. -/
def stepDate (dir : Direction) (d : Date) (part : Nat × TimeUnit) : Except Error Date :=
  match part.2.length with
  | .minutes per =>
    match d.addDays? (dir.apply (part.1 * (per / 1440))) with
    | some e => .ok e
    | none => .error (.invalidDate (.length part.1 part.2))
  | .months per => shiftMonths dir d part.1 per part.2

/-- The instant one part of a duration away. -/
def step (dir : Direction) (t : Instant) (part : Nat × TimeUnit) : Except Error Instant :=
  match part.2.length with
  | .minutes per =>
    match t.addMinutes? (dir.apply (part.1 * per)) with
    | some u => .ok u
    | none => .error (.invalidDate (.length part.1 part.2))
  | .months per => (shiftMonths dir t.date part.1 per part.2).map fun d => { t with date := d }

/-- The date a duration away; a duration with hours or minutes leads to no date. -/
def shiftDate (dir : Direction) (d : Duration) (date : Date) : Except Error Date :=
  if d.isSubDaily then .error .meaningless else d.parts.foldlM (stepDate dir) date

def shift (dir : Direction) (d : Duration) (t : Instant) : Except Error Instant :=
  d.parts.foldlM (step dir) t

def describe : Duration → String
  | one u => "Article(" ++ u.name ++ ")"
  | count n u => "Specific(" ++ toString n ++ ", " ++ u.name ++ ")"
  | both first second => "Concat(" ++ first.describe ++ ", " ++ second.describe ++ ")"

end Duration

end CasualDate
