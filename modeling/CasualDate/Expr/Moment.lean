import CasualDate.Expr.Date
import CasualDate.Expr.Time

/-!
# Moments in text

A date with or without a time, a time with or without a date, a duration from another moment, or
"now". A number by itself reads as a time but is too weak to be taken for one in running text.
-/

namespace CasualDate

inductive MomentExpr where
  | dateTime (date : DateExpr) (time : TimeExpr)
  | timeDate (time : TimeExpr) (date : DateExpr)
  | after (d : Duration) (moment : MomentExpr)
  | before (d : Duration) (moment : MomentExpr)
  | now
deriving DecidableEq

namespace MomentExpr

/-- A time that may follow a date in `ws`, after a comma or "at" or directly. -/
def timeAfter (ws : List Word) : Option (Parsed TimeExpr ws) :=
  match ws with
  | .comma :: rest | .atWord :: rest => (TimeExpr.parse? rest).map (·.behind)
  | ws => TimeExpr.parse? ws

/-- A date that may follow a time in `ws`, after a comma or "on" or directly. -/
def dateAfter (ws : List Word) : Option (Parsed DateExpr ws) :=
  match ws with
  | .comma :: rest | .onWord :: rest => (DateExpr.parse? rest).map (·.behind)
  | ws => DateExpr.parse? ws

def withDate {ws : List Word} (date : Parsed DateExpr ws) : Parsed MomentExpr ws :=
  match timeAfter date.rest with
  | some time => (time.map (dateTime date.value)).widen date.shorter
  | none => date.map (dateTime · .unstated)

def withTime {ws : List Word} (time : Parsed TimeExpr ws) : Parsed MomentExpr ws :=
  match dateAfter time.rest with
  | some date => (date.map (timeDate time.value)).widen time.shorter
  | none => time.map (timeDate · .unstated)

/-- A moment. A date is tried before a duration, which may begin a date, and a time last, since
every number is one. -/
def parse? (ws : List Word) : Option (Parsed MomentExpr ws) :=
  match ws with
  | .now :: _ => some (.ofHead now)
  | .inWord :: rest =>
    (Duration.parse? rest).map fun d => (d.map (after · now)).behind
  | ws =>
    match DateExpr.parse? ws with
    | some date => some (withDate date)
    | none =>
      match Duration.parse? ws with
      | none => (TimeExpr.parse? ws).map withTime
      | some d =>
        match h : d.rest with
        | .afterWord :: rest | .fromWord :: rest =>
          have hlt := d.shorter_of_rest_eq h
          match parse? rest with
          | some m => some ((m.map (after d.value)).widen hlt)
          | none => none
        | .beforeWord :: rest =>
          have hlt := d.shorter_of_rest_eq h
          match parse? rest with
          | some m => some ((m.map (before d.value)).widen hlt)
          | none => none
        | .agoWord :: rest => some ⟨before d.value now, rest, d.shorter_of_rest_eq h⟩
        | _ => none
termination_by ws.length

def isBareNumber : MomentExpr → Bool
  | timeDate (.bare _) .unstated => true
  | _ => false

def stated : MomentExpr → Stated
  | now => { Stated.fullDate with time := true }
  | dateTime date time | timeDate time date => { date.stated with time := time ≠ .unstated }
  | after _ m | before _ m => { Stated.fullDate with time := m.stated.time }

def evaluate (reference : Instant) : MomentExpr → Except Failure Instant
  | now => .ok reference
  | dateTime date time | timeDate time date => do
    let day ← date.evaluate reference.date
    let timeOfDay ← orRefuse (time.evaluate reference)
    return ⟨day, timeOfDay⟩
  | after d m => do orRefuse (d.shift .forward (← m.evaluate reference))
  | before d m => do orRefuse (d.shift .backward (← m.evaluate reference))

def describe : MomentExpr → String
  | dateTime date time => "DateTime(" ++ date.describe ++ ", " ++ time.describe ++ ")"
  | timeDate time date => "TimeDate(" ++ time.describe ++ ", " ++ date.describe ++ ")"
  | after d m => "After(" ++ d.describe ++ ", " ++ m.describe ++ ")"
  | before d m => "Before(" ++ d.describe ++ ", " ++ m.describe ++ ")"
  | now => "Now"

end MomentExpr

end CasualDate
