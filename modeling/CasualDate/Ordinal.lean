import CasualDate.Text.Decimal
import CasualDate.Text.Lowercase
import CasualDate.Trigger

/-!
# Ordinal numbers

Ordinals from the first to the thirty-first in words, and any ordinal in digits with a suffix. The
trigger finds them in running text; `read?` gives the number of one.
-/

namespace CasualDate.Ordinal

/-- The ordinals in words, with a hyphen between two words. -/
def words : List (String × Nat) := [
  ("first", 1), ("second", 2), ("third", 3), ("fourth", 4), ("fifth", 5), ("sixth", 6),
  ("seventh", 7), ("eighth", 8), ("ninth", 9), ("tenth", 10), ("eleventh", 11), ("twelfth", 12),
  ("thirteenth", 13), ("fourteenth", 14), ("fifteenth", 15), ("sixteenth", 16),
  ("seventeenth", 17), ("eighteenth", 18), ("nineteenth", 19), ("twentieth", 20),
  ("twenty-first", 21), ("twenty-second", 22), ("twenty-third", 23), ("twenty-fourth", 24),
  ("twenty-fifth", 25), ("twenty-sixth", 26), ("twenty-seventh", 27), ("twenty-eighth", 28),
  ("twenty-ninth", 29), ("thirtieth", 30), ("thirty-first", 31)]

/-- The suffixes of ordinals in digits. -/
def suffixes : List (List Char) :=
  [['s', 't'], ['n', 'd'], ['r', 'd'], ['t', 'h']]

/-- One or two digits with a suffix, or an ordinal in words, which may be run together or have a
space for the hyphen. -/
def trigger : Trigger :=
  suffixes.map (fun s => .digit :: .optionalDigit :: s.map .letter) ++
    words.map fun w => w.1.toList.map fun c => if c = '-' then .gap else .letter c

/-- The characters before a suffix, if the text ends with one. -/
def dropSuffix? (cs : List Char) : Option (List Char) :=
  let stem := cs.take (cs.length - 2)
  if suffixes.contains (cs.drop (cs.length - 2)) then some stem else none

/-- A number in digits, with or without a plus sign. -/
def readDigits? : List Char → Option Text.Count
  | '+' :: cs => Text.readCount? cs
  | cs => Text.readCount? cs

/-- The parts of a text between hyphens and white space, some of them empty. -/
def splitParts (cs : List Char) : List (List Char) :=
  cs.foldr (fun c parts =>
    if c = '-' || Text.isSpace c then [] :: parts
    else match parts with
      | [] => [[c]]
      | part :: parts => (c :: part) :: parts) [[]]

/-- The text with one hyphen between its parts. -/
def hyphenated (cs : List Char) : List Char :=
  ['-'].intercalate ((splitParts cs).filter (!·.isEmpty))

/-- The number of an ordinal. -/
def read? (s : String) : Option Nat :=
  let cs := (Text.lower (Text.trim s)).toList
  match (dropSuffix? cs).bind readDigits? with
  | some n => some n.val
  | none => (words.find? fun w => w.1.toList = hyphenated cs).map Prod.snd

end CasualDate.Ordinal
