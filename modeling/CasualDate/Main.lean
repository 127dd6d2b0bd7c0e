import CasualDate.CommandLine.Run
import Std.Time

/-!
The program: reads the clock, runs the command and writes its outcome.
-/

namespace CasualDate

/-- A wall clock reading as an instant. -/
def instantOf? (t : Std.Time.PlainDateTime) : Option Instant := do
  let date ← Date.ofCivil? t.date.year t.date.month.toNat t.date.day.toNat
  let time ← TimeOfDay.of? t.time.hour.toNat t.time.minute.toNat t.time.second.toNat
    t.time.nanosecond.toNat
  return ⟨date, time⟩

/-- The current time in a time zone, if the zone is known. -/
def inZone (zone : String) : IO (Option Instant) := do
  try
    let t ← Std.Time.DateTime.nowAt zone
    return instantOf? t.toPlainDateTime
  catch _ => return none

end CasualDate

open CasualDate in
def main (args : List String) : IO UInt32 := do
  let zone := match CommandLine.Options.ofArgs args with
    | .ok options => options.timezone
    | .error _ => none
  let there ← match zone with
    | some name => inZone name
    | none => pure none
  match instantOf? (← Std.Time.PlainDateTime.now) with
  | none =>
    IO.eprintln "The clock is outside the calendar"
    return 101
  | some here =>
    let outcome := CommandLine.run args ⟨here, fun _ => there⟩
    IO.print outcome.stdout
    IO.eprint outcome.stderr
    return outcome.code.toUInt32
