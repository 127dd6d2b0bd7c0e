import CasualDate.Finder.Basic
import CasualDate.TimeUnit

/-!
# The journal

What happened while dates were looked for and a phrase was resolved, one event a line.
-/

namespace CasualDate

/-- Something worth a line in the journal. -/
inductive Event where
  | parsed (text : String) (e : MomentExpr)
  | skipped (text : String) (e : Error)
  | declined (name text : String)
  | notADate (c : Candidate)
  | clash (c : Candidate.Clash)
  | forwarded (c : Candidate)
  | resolverBuilt (locale : String) (finder : Finder) (calendar : Calendar)
  | resolving (text : String) (reference : Instant) (weekdayCertain : Bool)
  | endOfPeriod (p : Period)
  | onePeriodOn (p : Period)
  | monthEnd (remainder : String)
  | midMonth (phrase : String)

namespace Event

/-- The line of the event: its level and what it says. -/
def line : Event → String
  | parsed text e => "trace " ++ Text.quoted text ++ " parsed as " ++ e.describe
  | skipped text e => "debug skipping " ++ Text.quoted text ++ ": " ++ e.message
  | declined name text => "trace " ++ name ++ " declined " ++ Text.quoted text
  | notADate c =>
    "debug dropping " ++ Text.quoted c.text ++ " at " ++ toString c.index ++ ": not a valid date"
  | clash (.replaced new old) =>
    "debug " ++ Text.quoted new.text ++ " replaces overlapping " ++ Text.quoted old.text
  | clash (.dropped new old) =>
    "debug dropping " ++ Text.quoted new.text ++ ", overlaps " ++ Text.quoted old.text
  | forwarded c => "debug moving " ++ Text.quoted c.text ++ " forward a year"
  | resolverBuilt locale finder calendar =>
    "debug resolver for locale " ++ Text.quoted locale ++ ": " ++ finder.describe ++ ", " ++
      calendar.name
  | resolving text reference certain =>
    "debug resolving " ++ Text.quoted text ++ " from " ++ reference.iso ++
      " (weekday certain: " ++ (if certain then "true" else "false") ++ ")"
  | endOfPeriod p => "debug end of this " ++ p.name
  | onePeriodOn p => "debug one " ++ p.name ++ " from now"
  | monthEnd remainder => "debug last day of " ++ Text.quoted remainder
  | midMonth phrase => "debug middle of the month, as " ++ Text.quoted phrase

/-- The event of a step of the scan, if it leaves one. -/
def ofStep? : Step → Option Event
  | .found _ text e _ => some (parsed text e)
  | .skipped text e => some (skipped text e)
  | .broken _ => none

/-- The event of an attempt that was declined. -/
def ofAttempt? (a : Attempt) : Option Event :=
  if a.fields.isNone then some (declined a.name a.text) else none

end Event

namespace Finder

/-- The events of settling candidates. -/
def settleEvents (ctx : Context) (candidates : List Candidate) : List Event :=
  let sorted := ordered candidates
  (candidates.filter (·.date?.isNone)).map .notADate ++
    (Candidate.clashes sorted).map .clash ++
    (if ctx.forward then
      ((Candidate.collapse sorted).filter (·.isPast ctx.reference)).map .forwarded
    else [])

/-- The events of a search for dates. -/
def events (f : Finder) (ctx : Context) : List Event :=
  (Step.scan ctx.text ctx.reference).filterMap Event.ofStep? ++
    match f.proposals ctx with
    | .error _ => []
    | .ok candidates =>
      (f.attempts ctx).filterMap Event.ofAttempt? ++ settleEvents ctx candidates

end Finder

end CasualDate
