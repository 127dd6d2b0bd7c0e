import CasualDate.Date

/-!
# Times of day and instants

An instant is a date and a time of day, without a time zone. Any minute can have a leap second
after its second 59; it is second 60. Counted from, it stands for an ordinary second: for the one
before it on the way forward, and for the one after it on the way back.
-/

namespace CasualDate

/-- A time of day, to the nanosecond. Second 60 is a leap second. -/
structure TimeOfDay where
  hour : Nat
  minute : Nat
  second : Nat
  nanosecond : Nat
  hour_lt : hour < 24
  minute_lt : minute < 60
  second_le : second ≤ 60
  nanosecond_lt : nanosecond < 1000000000
deriving DecidableEq

namespace TimeOfDay

def of? (hour minute second nanosecond : Nat) : Option TimeOfDay :=
  if h : hour < 24 ∧ minute < 60 ∧ second ≤ 60 ∧ nanosecond < 1000000000 then
    some ⟨hour, minute, second, nanosecond, h.1, h.2.1, h.2.2.1, h.2.2.2⟩
  else none

/-- The time that a clock without leap seconds shows by whole seconds, if there is one. -/
def ofClock? (hour minute second : Nat) : Option TimeOfDay :=
  if second < 60 then of? hour minute second 0 else none

def midnight : TimeOfDay :=
  ⟨0, 0, 0, 0, by decide, by decide, by decide, by decide⟩

def endOfDay : TimeOfDay :=
  ⟨23, 59, 59, 999000000, by decide, by decide, by decide, by decide⟩

/-- The second that a clock without leap seconds shows: it stands still at 59 in a leap second. -/
def clockSecond (t : TimeOfDay) : Nat :=
  min t.second 59

theorem clockSecond_le (t : TimeOfDay) : t.clockSecond ≤ 60 :=
  Nat.le_trans (Nat.min_le_left ..) t.second_le

/-- The place of the time in the order of the times of a day, each minute having 61 seconds. -/
def rank (t : TimeOfDay) : Nat :=
  ((t.hour * 60 + t.minute) * 61 + t.second) * 1000000000 + t.nanosecond

/-- The time with its fraction of a second, if any, in three, six or nine digits. -/
def iso (t : TimeOfDay) : String :=
  let fraction :=
    if t.nanosecond = 0 then []
    else if t.nanosecond % 1000000 = 0 then '.' :: Text.padded 3 (t.nanosecond / 1000000)
    else if t.nanosecond % 1000 = 0 then '.' :: Text.padded 6 (t.nanosecond / 1000)
    else '.' :: Text.padded 9 t.nanosecond
  String.ofList (Text.padded 2 t.hour ++ ':' :: Text.padded 2 t.minute ++
    ':' :: Text.padded 2 t.second ++ fraction)

end TimeOfDay

structure Instant where
  date : Date
  time : TimeOfDay
deriving DecidableEq

namespace Instant

def rank (t : Instant) : Int :=
  t.date.dayNumber * 87840000000000 + t.time.rank

def isBefore (t u : Instant) : Bool :=
  t.rank < u.rank

/-- Minutes since the midnight of day 0, the seconds left out. -/
def minutes (t : Instant) : Int :=
  t.date.dayNumber * 1440 + (t.time.hour * 60 + t.time.minute : Nat)

/-- The instant in a minute counted from the midnight of day 0. -/
def inMinute? (minutes : Int) (second nanosecond : Nat) (hs : second ≤ 60)
    (hn : nanosecond < 1000000000) : Option Instant :=
  let ofDay := (minutes % 1440).toNat
  (Date.ofDayNumber? (minutes / 1440)).map fun date =>
    ⟨date, ⟨ofDay / 60, ofDay % 60, second, nanosecond, by omega, by omega, hs, hn⟩⟩

/-- The instant `n` minutes later, or earlier if `n` is negative. -/
def addMinutes? (t : Instant) (n : Int) : Option Instant :=
  let at? (minutes : Int) (second : Nat) (h : second ≤ 60) : Option Instant :=
    inMinute? minutes second t.time.nanosecond h t.time.nanosecond_lt
  if t.time.second < 60 ∨ n = 0 then at? (t.minutes + n) t.time.second t.time.second_le
  else if 0 < n then at? (t.minutes + n) 59 (by decide)
  else at? (t.minutes + 1 + n) 0 (by decide)

/-- The instant `n` days later, or earlier if `n` is negative. -/
def addDays? (t : Instant) (n : Int) : Option Instant :=
  t.addMinutes? (n * 1440)

/-- The instant as `2024-04-17 10:30:00`. -/
def iso (t : Instant) : String :=
  t.date.iso ++ " " ++ t.time.iso

end Instant

end CasualDate
