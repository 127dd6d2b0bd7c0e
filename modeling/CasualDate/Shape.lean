import CasualDate.TimeUnit
import CasualDate.Text.Folding
import CasualDate.Text.CharTable
import CasualDate.Text.WordChar

/-!
# Shapes of phrases

Some phrases are answered directly: "this week", "next month", "last day of …" and "mid …". The
first of them that a text holds decides its shape, in this order, wherever it stands and even
inside a word. Only the first place where "this", "next" or "mid" has a word after it counts.
-/

namespace CasualDate

inductive Shape where
  | endOfPeriod (p : Period)
  | onePeriodOn (p : Period)
  | monthEnd (remainder : String)
  | midMonth (word : String)
  | other
deriving DecidableEq

namespace Shape

/-- The word after `trigger` and one white space character at the start of a text. -/
def wordAfter? (trigger cs : List Char) : Option (List Char) :=
  match Text.dropWord? trigger cs with
  | some (c :: rest) =>
    let word := rest.takeWhile Text.isWordChar
    if Text.isSpace c && !word.isEmpty then some word else none
  | _ => none

/-- The first word that stands so after the trigger. -/
def firstWordAfter? (trigger : List Char) : List Char → Option (List Char)
  | [] => none
  | c :: cs => wordAfter? trigger (c :: cs) <|> firstWordAfter? trigger cs

/-- The period named after the first place of the trigger. -/
def periodAfter? (trigger text : String) : Option Period :=
  (firstWordAfter? trigger.toList text.toList).bind fun word => Period.ofName? (String.ofList word)

/-- The text after "last day of" or "end of", up to the end of the line. -/
def remainder? : List Char → Option (List Char)
  | [] => none
  | c :: cs =>
    match Text.dropWord? "last day of".toList (c :: cs) <|>
      Text.dropWord? "end of".toList (c :: cs) with
    | some rest => some ((rest.dropWhile Text.isSpace).takeWhile fun c => c ≠ '\n' && c ≠ '\r')
    | none => remainder? cs

def ofText (text : String) : Shape :=
  match periodAfter? "this" text with
  | some p => endOfPeriod p
  | none =>
    match periodAfter? "next" text with
    | some p => onePeriodOn p
    | none =>
      match remainder? text.toList with
      | some cs => monthEnd (String.ofList cs)
      | none =>
        match firstWordAfter? "mid".toList text.toList with
        | some word => midMonth (String.ofList word)
        | none => other

end Shape

end CasualDate
