import CasualDate.CommandLine.Options
import CasualDate.Resolver

/-!
# Running a command

A run takes the arguments and a clock, and answers what is written and the exit code: 0 for an
answer, 1 where there is none, 2 for arguments that are not understood, and 101 where the
computation breaks down.
-/

namespace CasualDate.CommandLine

/-- What a run writes and how it ends. -/
structure Outcome where
  code : Nat
  stdout : String
  stderr : String
deriving DecidableEq

/-- The current time where the program runs, and in the time zones that are known. -/
structure Clock where
  here : Instant
  inZone : String → Option Instant

namespace Outcome

/-- A line of output. -/
def answer (line : String) : Outcome :=
  ⟨0, line ++ "\n", ""⟩

/-- A refusal in a context, with the cause below it. -/
def refusal (context cause : String) : Outcome :=
  ⟨1, "", "Error: " ++ context ++ "\n\nCaused by:\n    " ++ cause ++ "\n"⟩

/-- A computation that broke down. -/
def broken (cause : Breakdown) : Outcome :=
  ⟨101, "", cause.message ++ "\n"⟩

end Outcome

/-- A candidate as four columns: where it stands, its text, its date, and the stated fields. -/
def candidateLine (c : Candidate) : String :=
  let date := match c.date? with
    | some t => t.date.iso ++ "T" ++ t.time.iso
    | none => ""
  let fields := match c.fields.certainFields with
    | [] => "-"
    | fields => ",".intercalate (fields.map Field.name)
  toString c.index ++ "\t" ++ c.text ++ "\t" ++ date ++ "\t" ++ fields ++ "\n"

namespace Options

def resolver (o : Options) (now : Instant) : Resolver :=
  .build o.locale o.calendar now .standard []

/-- The dates found in the text, one a line. -/
def listCandidates (o : Options) (now : Instant) : Outcome :=
  match (o.resolver now).finder.find { text := o.text, reference := now, now } with
  | .ok candidates => ⟨0, "".intercalate (candidates.map candidateLine), ""⟩
  | .error (.refused e) => ⟨1, "", "Error: " ++ e.message ++ "\n"⟩
  | .error (.broken cause) => .broken cause

/-- What the text resolves to; a date is written by the pattern in the Gregorian calendar. -/
def resolveText (o : Options) (now : Instant) : Outcome :=
  match (o.resolver now).resolve o.text o.weekStart o.pattern with
  | .error (.refused e) => .refusal ("Could not resolve " ++ Text.quoted o.text) e.message
  | .error (.broken cause) => .broken cause
  | .ok (.formatted line) => .answer line
  | .ok .noMatch => ⟨1, "", "No date found in " ++ Text.quoted o.text ++ "\n"⟩
  | .ok (.date t) =>
    match t.format o.pattern .gregorian with
    | .ok line => .answer line
    | .error e => ⟨1, "", "Error: " ++ e.message ++ "\n"⟩

/-- The outcome at the instant `now`. -/
def runAt (o : Options) (now : Instant) : Outcome :=
  if o.candidates then o.listCandidates now else o.resolveText now

/-- The outcome by a clock. -/
def run (o : Options) (clock : Clock) : Outcome :=
  match o.now, o.timezone with
  | some now, _ => o.runAt now
  | none, none => o.runAt clock.here
  | none, some zone =>
    match clock.inZone zone with
    | some now => o.runAt now
    | none =>
      .refusal ("Unknown timezone " ++ Text.quoted zone) "failed to parse timezone"

end Options

/-- The outcome of a command. -/
def run (args : List String) (clock : Clock) : Outcome :=
  match Options.ofArgs args with
  | .ok options => options.run clock
  | .error e => ⟨2, "", "error: " ++ e.message ++ "\n"⟩

end CasualDate.CommandLine
