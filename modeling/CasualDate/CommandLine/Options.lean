import CasualDate.Calendar.Basic
import CasualDate.CommandLine.Timestamp

/-!
# Command line options

The arguments are options with values, the flag `--candidates`, and the words of the phrase, in any
order; after `--` all are words. An option is given at most once, as `--format F`, `--format=F`,
`-f F`, `-fF` or `-f=F`, and a value of its own argument does not begin with a hyphen.
-/

namespace CasualDate.CommandLine

/-- The options that take a value. -/
inductive Key where
  | format | weekStart | locale | calendar | now | timezone
deriving DecidableEq

namespace Key

def all : List Key :=
  [format, weekStart, locale, calendar, now, timezone]

/-- The name after two hyphens. The first letter of it stands after one hyphen. -/
def name : Key → String
  | format => "format"
  | weekStart => "week-start"
  | locale => "locale"
  | calendar => "calendar"
  | now => "now"
  | timezone => "timezone"

end Key

/-- Why arguments are not understood. -/
inductive UsageError where
  | unknownOption (argument : String)
  | unexpectedValue (argument : String)
  | missingValue (k : Key)
  | repeated (name : String)
  | invalidValue (k : Key) (value : String)
  | conflict (k l : Key)
  | noText
deriving DecidableEq

def UsageError.message : UsageError → String
  | .unknownOption argument => "unexpected argument '" ++ argument ++ "'"
  | .unexpectedValue argument => "no value is taken by '" ++ argument ++ "'"
  | .missingValue k => "a value is required for '--" ++ k.name ++ "'"
  | .repeated name => "'--" ++ name ++ "' cannot be used multiple times"
  | .invalidValue k value => "invalid value '" ++ value ++ "' for '--" ++ k.name ++ "'"
  | .conflict k l => "'--" ++ k.name ++ "' cannot be used with '--" ++ l.name ++ "'"
  | .noText => "no text was given"

/-- What one argument is. -/
inductive Argument where
  | word
  | endOfOptions
  | candidates
  | option (k : Key) (value : Option String)
  | wrong (e : UsageError)
deriving DecidableEq

/-- An option after two hyphens. -/
def Argument.ofLong (argument : String) (cs : List Char) : Argument :=
  let name := cs.takeWhile (· ≠ '=')
  let value := match cs.dropWhile (· ≠ '=') with
    | [] => none
    | _ :: value => some (String.ofList value)
  if name = "candidates".toList then
    if value.isNone then .candidates else .wrong (.unexpectedValue argument)
  else
    match Key.all.find? (·.name.toList = name) with
    | some k => .option k value
    | none => .wrong (.unknownOption argument)

/-- An option after one hyphen. -/
def Argument.ofShort (argument : String) (letter : Char) (cs : List Char) : Argument :=
  let value := match cs with
    | [] => none
    | '=' :: value => some (String.ofList value)
    | value => some (String.ofList value)
  match Key.all.find? (·.name.toList.head? = some letter) with
  | some k => .option k value
  | none => .wrong (.unknownOption argument)

/-- What an argument is, before `--`. -/
def Argument.of (argument : String) : Argument :=
  match argument.toList with
  | ['-', '-'] => .endOfOptions
  | '-' :: '-' :: cs => .ofLong argument cs
  | '-' :: c :: cs => .ofShort argument c cs
  | _ => .word

/-- The arguments, sorted by what they are. -/
structure Arguments where
  values : List (Key × String)
  candidates : Bool
  words : List String

namespace Arguments

/-- The value of an option. -/
def get? (a : Arguments) (k : Key) : Option String :=
  (a.values.find? (·.1 = k)).map Prod.snd

/-- The arguments with the value of an option that was not given before. -/
def set (a : Arguments) (k : Key) (value : String) : Except UsageError Arguments :=
  if (a.get? k).isSome then .error (.repeated k.name)
  else .ok { a with values := (k, value) :: a.values }

/-- The arguments `a` and those of a list after them. -/
def read (a : Arguments) (args : List String) : Except UsageError Arguments :=
  match args with
  | [] => .ok a
  | arg :: rest =>
    match Argument.of arg with
    | .word => read { a with words := a.words ++ [arg] } rest
    | .endOfOptions => .ok { a with words := a.words ++ rest }
    | .candidates =>
      if a.candidates then .error (.repeated "candidates")
      else read { a with candidates := true } rest
    | .wrong e => .error e
    | .option k (some value) =>
      match a.set k value with
      | .ok b => read b rest
      | .error e => .error e
    | .option k none =>
      match rest with
      | [] => .error (.missingValue k)
      | value :: rest =>
        if Argument.of value = .word then
          match a.set k value with
          | .ok b => read b rest
          | .error e => .error e
        else .error (.missingValue k)
termination_by args.length

end Arguments

/-- What the program is asked to do. -/
structure Options where
  pattern : String
  weekStart : Weekday
  locale : String
  calendar : Calendar
  now : Option Instant
  timezone : Option String
  /-- Whether to list the dates found instead of resolving the phrase. -/
  candidates : Bool
  text : String

/-- The value of an option, read by `read`. -/
def Arguments.value {α : Type} (a : Arguments) (k : Key) (read : String → Option α) :
    Except UsageError (Option α) :=
  match a.get? k with
  | none => .ok none
  | some s =>
    match read s with
    | some v => .ok (some v)
    | none => .error (.invalidValue k s)

/-- The options that arguments stand for. -/
def Options.ofArgs (args : List String) : Except UsageError Options := do
  let a ← Arguments.read ⟨[], false, []⟩ args
  if a.words.isEmpty then .error .noText
  if (a.get? .now).isSome && (a.get? .timezone).isSome then .error (.conflict .timezone .now)
  return {
    pattern := (a.get? .format).getD "YYYY-MM-DD"
    weekStart := (← a.value .weekStart Weekday.ofName?).getD .sunday
    locale := (a.get? .locale).getD "en"
    calendar := (← a.value .calendar Calendar.ofName?).getD .gregorian
    now := ← a.value .now Timestamp.read?
    timezone := a.get? .timezone
    candidates := a.candidates
    text := " ".intercalate a.words }

end CasualDate.CommandLine
