import CasualDate.Instant

/-!
# Components

The fields of a date and time as a text gives them: each has a value, stated by the text or taken
from elsewhere. The weekday follows from year, month and day unless it was stated. Which fields an
expression spells out, as opposed to those that it takes from the reference, is known apart from their
values (`Stated`).
-/

namespace CasualDate

/-- The fields, in the order in which they are listed. -/
inductive Field where
  | year | month | day | weekday | hour | minute | second
deriving DecidableEq

namespace Field

def all : List Field :=
  [year, month, day, weekday, hour, minute, second]

def name : Field → String
  | year => "year"
  | month => "month"
  | day => "day"
  | weekday => "weekday"
  | hour => "hour"
  | minute => "minute"
  | second => "second"

end Field

structure Stated where
  year : Bool := false
  month : Bool := false
  day : Bool := false
  weekday : Bool := false
  time : Bool := false
deriving DecidableEq

namespace Stated

def fullDate : Stated :=
  { year := true, month := true, day := true }

end Stated

/-- The value of a field, and whether it was stated. -/
structure Entry where
  value : Int
  certain : Bool
deriving DecidableEq

namespace Entry

/-- A value that was not stated. -/
def implied (value : Int) : Entry :=
  ⟨value, false⟩

/-- The entry with a value that was not stated, which a stated one stands against. -/
def imply (e : Entry) (value : Int) : Entry :=
  if e.certain then e else implied value

end Entry

structure Components where
  year : Entry
  month : Entry
  day : Entry
  hour : Entry
  minute : Entry
  second : Entry
  /-- The weekday that was stated, if one was. -/
  statedWeekday : Option Int
deriving DecidableEq

namespace Components

/-- The components of an instant, none of them stated. -/
def ofInstant (t : Instant) : Components where
  year := .implied t.date.year
  month := .implied t.date.month
  day := .implied t.date.day
  hour := .implied t.time.hour
  minute := .implied t.time.minute
  second := .implied t.time.clockSecond
  statedWeekday := none

/-- The day that year, month and day name, if there is one. -/
def day? (c : Components) : Option Date := do
  Date.ofCivil? c.year.value (← c.month.value.toNat?) (← c.day.value.toNat?)

/-- The instant that the components name, if there is one. -/
def date? (c : Components) : Option Instant := do
  let date ← c.day?
  let time ← TimeOfDay.ofClock? (← c.hour.value.toNat?) (← c.minute.value.toNat?)
    (← c.second.value.toNat?)
  return ⟨date, time⟩

/-- The value of a field. Only a weekday can be missing. -/
def get (c : Components) : Field → Option Int
  | .year => some c.year.value
  | .month => some c.month.value
  | .day => some c.day.value
  | .weekday => c.statedWeekday <|> c.day?.map fun d => (d.weekday.index : Int)
  | .hour => some c.hour.value
  | .minute => some c.minute.value
  | .second => some c.second.value

/-- Whether the field was stated. -/
def isCertain (c : Components) : Field → Bool
  | .year => c.year.certain
  | .month => c.month.certain
  | .day => c.day.certain
  | .weekday => c.statedWeekday.isSome
  | .hour => c.hour.certain
  | .minute => c.minute.certain
  | .second => c.second.certain

/-- The stated fields in order. -/
def certainFields (c : Components) : List Field :=
  Field.all.filter c.isCertain

/-- The components with a field stated. -/
def assign (c : Components) (f : Field) (value : Int) : Components :=
  match f with
  | .year => { c with year := ⟨value, true⟩ }
  | .month => { c with month := ⟨value, true⟩ }
  | .day => { c with day := ⟨value, true⟩ }
  | .weekday => { c with statedWeekday := some value }
  | .hour => { c with hour := ⟨value, true⟩ }
  | .minute => { c with minute := ⟨value, true⟩ }
  | .second => { c with second := ⟨value, true⟩ }

/-- The components with a field filled in, unless it was stated. A weekday is never filled in: it
follows from the date. -/
def imply (c : Components) (f : Field) (value : Int) : Components :=
  match f with
  | .year => { c with year := c.year.imply value }
  | .month => { c with month := c.month.imply value }
  | .day => { c with day := c.day.imply value }
  | .weekday => c
  | .hour => { c with hour := c.hour.imply value }
  | .minute => { c with minute := c.minute.imply value }
  | .second => { c with second := c.second.imply value }

/-- A change of one field. -/
inductive Change where
  | assign (f : Field) (value : Int)
  | imply (f : Field) (value : Int)
deriving DecidableEq

def change (c : Components) : Change → Components
  | .assign f value => c.assign f value
  | .imply f value => c.imply f value

/-- The components after several changes. -/
def changes (c : Components) (steps : List Change) : Components :=
  steps.foldl change c

/-- The components of an instant that an expression names, with the fields that it spells out
stated. -/
def ofStated (t : Instant) (s : Stated) : Components where
  year := ⟨t.date.year, s.year⟩
  month := ⟨t.date.month, s.month⟩
  day := ⟨t.date.day, s.day⟩
  hour := ⟨t.time.hour, s.time⟩
  minute := ⟨t.time.minute, s.time⟩
  second := ⟨t.time.clockSecond, s.time⟩
  statedWeekday := if s.weekday then some t.date.weekday.index else none

end Components

end CasualDate
