import CasualDate.Text.Lowercase
import CasualDate.Word.Basic

/-!
# Spellings

Every keyword with its spellings in lower case, and the word that a run of letters or digits
spells.
-/

namespace CasualDate.Word

def spellings : List (Word × List String) := [
  (indefinite, ["a", "an"]), (the, ["the"]),
  (andWord, ["and"]), (onWord, ["on"]), (atWord, ["at"]), (ofWord, ["of"]), (inWord, ["in"]),
  (fromWord, ["from"]), (afterWord, ["after"]), (beforeWord, ["before"]), (agoWord, ["ago"]),
  (now, ["now"]), (today, ["today"]), (tomorrow, ["tomorrow"]), (yesterday, ["yesterday"]),
  (midnight, ["midnight"]), (noon, ["noon"]),
  (relative .current, ["this"]), (relative .following, ["next"]), (relative .previous, ["last"]),
  (weekday .monday, ["monday", "mon"]),
  (weekday .tuesday, ["tuesday", "tue", "tues"]),
  (weekday .wednesday, ["wednesday", "wed"]),
  (weekday .thursday, ["thursday", "thu", "thur", "thurs"]),
  (weekday .friday, ["friday", "fri"]),
  (weekday .saturday, ["saturday", "sat"]),
  (weekday .sunday, ["sunday", "sun"]),
  (month .january, ["january", "jan"]),
  (month .february, ["february", "feb"]),
  (month .march, ["march", "mar"]),
  (month .april, ["april", "apr"]),
  (month .may, ["may"]),
  (month .june, ["june", "jun"]),
  (month .july, ["july", "jul"]),
  (month .august, ["august", "aug"]),
  (month .september, ["september", "sep", "sept"]),
  (month .october, ["october", "oct"]),
  (month .november, ["november", "nov"]),
  (month .december, ["december", "dec"]),
  (unit .day, ["day", "days"]),
  (unit .week, ["week", "weeks"]),
  (unit .month, ["month", "months"]),
  (unit .year, ["year", "years"]),
  (unit .hour, ["hour", "hours"]),
  (unit .minute, ["min", "mins", "minute", "minutes"]),
  (meridiem .am, ["am"]), (meridiem .pm, ["pm"]),
  (ordinalSuffix, ["st", "nd", "rd", "th"]),
  (numeral .one, ["one"]), (numeral .two, ["two"]), (numeral .three, ["three"]),
  (numeral .four, ["four"]), (numeral .five, ["five"]), (numeral .six, ["six"]),
  (numeral .seven, ["seven"]), (numeral .eight, ["eight"]), (numeral .nine, ["nine"]),
  (numeral .ten, ["ten"]), (numeral .eleven, ["eleven"]), (numeral .twelve, ["twelve"]),
  (numeral .thirteen, ["thirteen"]), (numeral .fourteen, ["fourteen"]),
  (numeral .fifteen, ["fifteen"]), (numeral .sixteen, ["sixteen"]),
  (numeral .seventeen, ["seventeen"]), (numeral .eighteen, ["eighteen"]),
  (numeral .nineteen, ["nineteen"]), (numeral .twenty, ["twenty"]), (numeral .thirty, ["thirty"]),
  (numeral .forty, ["forty", "fourty"]), (numeral .fifty, ["fifty"]), (numeral .sixty, ["sixty"]),
  (numeral .seventy, ["seventy"]), (numeral .eighty, ["eighty"]), (numeral .ninety, ["ninety"]),
  (hundred, ["hundred"]),
  (scale .thousand, ["thousand"]), (scale .million, ["million"]), (scale .billion, ["billion"]),
  (zero, ["zero"])]

/-- The keyword with a spelling in lower case. -/
def ofSpelling? (s : String) : Option Word :=
  (spellings.find? fun entry => entry.2.contains s).map Prod.fst

/-- The word that a run of letters or digits spells in any case. -/
def ofRun (cs : List Char) : Word :=
  let lowered := cs.flatMap Text.lowerChar
  match ofSpelling? (String.ofList lowered) with
  | some w => w
  | none =>
    match Text.readCount? lowered with
    | some n => literal n
    | none => unknown

end CasualDate.Word
