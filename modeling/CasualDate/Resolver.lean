import CasualDate.Calendar.Period
import CasualDate.Journal
import CasualDate.Layout
import CasualDate.Recognizer
import CasualDate.Shape

/-!
# Resolving a phrase

A phrase with one of the special shapes is answered directly, as a date in the resolver's calendar
or as the middle of a month. Any other phrase means the first date found in it. If the first date
found names its weekday, relative words count from the beginning of the current week.
-/

namespace CasualDate

inductive Resolved where
  | date (t : Instant)
  | formatted (text : String)
  | noMatch
deriving DecidableEq

def Resolved.ofDate? : Option Instant → Resolved
  | some t => date t
  | none => noMatch

structure Resolver where
  finder : Finder
  calendar : Calendar
  /-- The current instant, for phrases resolved without one. -/
  clock : Instant

namespace Resolver

/-- A resolver for a locale, with the built-in recognizers before those given. -/
def build (locale : String) (calendar : Calendar) (clock : Instant) (locales : Locales)
    (recognizers : List Recognizer) : Resolver where
  finder := ⟨locales.get locale ++ Recognizer.builtin ++ recognizers⟩
  calendar := calendar
  clock := clock

def describe (r : Resolver) : String :=
  "PhraseResolver \x7b grammar: " ++ r.finder.describe ++ ", calendar: " ++ r.calendar.name ++
    ", .. \x7d"

/-- As many days before `now` as have passed since the week began. -/
def startOfWeek (now : Instant) (weekStart : Weekday) : Except Failure Instant :=
  orOffCalendar (now.addDays? (-(weekStart.daysUntil now.date.weekday)))

/-- Whether the first candidate names its weekday. -/
def namesWeekday (candidates : List Candidate) : Bool :=
  candidates.head?.any (·.fields.isCertain .weekday)

/-- Whether the phrase names a weekday, and the instant that its relative words count from. -/
def anchor (r : Resolver) (text : String) (weekStart : Weekday) (now : Instant) :
    Except Failure (Bool × Instant) := do
  let certain := namesWeekday (← r.finder.find { text, reference := now, now })
  return (certain, ← if certain then startOfWeek now weekStart else pure now)

def monthEndPattern : String :=
  "YYYY/MM/DD"

/-- The last day of the month of the first date in a text. -/
def monthEnd (r : Resolver) (remainder : String) (now : Instant) : Except Failure String := do
  match ← r.finder.find { text := remainder, reference := now, now } with
  | [] => .error (.refused (.malformedRemainder remainder))
  | c :: _ =>
    let year := c.fields.year.value
    let month := c.fields.month.value.toNat
    let day ← orRefuse (lastDayOfMonth year month)
    match Date.ofCivil? year month day with
    | none => .error (.refused (.malformedRemainder remainder))
    | some date => orRefuse (Instant.format ⟨date, .midnight⟩ monthEndPattern r.calendar)

def midMonthPhrase (word : String) : String :=
  word ++ " 15th"

/-- What the text means at the instant `now`. The pattern is for "this" and "next" with a
period. -/
def resolveAt (r : Resolver) (text : String) (weekStart : Weekday) (pattern : String)
    (now : Instant) : Except Failure Resolved := do
  let (_, reference) ← r.anchor text weekStart now
  match Shape.ofText text with
  | .endOfPeriod p =>
    let t ← r.calendar.endOf now p
    return .formatted (← orRefuse (t.format pattern r.calendar))
  | .onePeriodOn p =>
    let t ← r.calendar.addOne now p
    return .formatted (← orRefuse (t.format pattern r.calendar))
  | .monthEnd remainder => return .formatted (← r.monthEnd remainder now)
  | .midMonth word =>
    let text := midMonthPhrase word
    return .ofDate? (← r.finder.findDate { text, reference := now, now, forward := true })
  | .other => return .ofDate? (← r.finder.findDate { text, reference, now })

def resolve (r : Resolver) (text : String) (weekStart : Weekday) (pattern : String) :
    Except Failure Resolved :=
  r.resolveAt text weekStart pattern r.clock

def buildEvent (r : Resolver) (locale : String) : Event :=
  .resolverBuilt locale r.finder r.calendar

def events (r : Resolver) (text : String) (weekStart : Weekday) (now : Instant) : List Event :=
  r.finder.events { text, reference := now, now } ++
    match r.anchor text weekStart now with
    | .error _ => []
    | .ok (certain, reference) =>
      .resolving text reference certain ::
        match Shape.ofText text with
        | .endOfPeriod p => [.endOfPeriod p]
        | .onePeriodOn p => [.onePeriodOn p]
        | .monthEnd remainder =>
          .monthEnd remainder :: r.finder.events { text := remainder, reference := now, now }
        | .midMonth word =>
          let text := midMonthPhrase word
          .midMonth text :: r.finder.events { text, reference := now, now, forward := true }
        | .other => r.finder.events { text, reference, now }

end Resolver

end CasualDate
