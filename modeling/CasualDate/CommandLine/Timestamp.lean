import CasualDate.Instant
import CasualDate.Text.CharTable

/-!
# Timestamps

An instant written as `2024-04-17T10:30:00`, with an optional fraction of a second. White space may
stand before each number and mark and at the end. A year of more than four digits needs a sign.
-/

namespace CasualDate.Timestamp

/-- A number in at most `most` digits, any number of them if `none`. -/
def digits? (most : Option Nat) (cs : List Char) : Option (Nat × List Char) :=
  let run := cs.takeWhile Char.isDigit
  let run := match most with
    | some n => run.take n
    | none => run
  if run.isEmpty then none else some (Text.digitsValue run, cs.drop run.length)

/-- A number of one or two digits after any white space. -/
def number? (cs : List Char) : Option (Nat × List Char) :=
  digits? (some 2) (cs.dropWhile Text.isSpace)

/-- What follows a mark after any white space. -/
def mark? (mark : Char) (cs : List Char) : Option (List Char) :=
  match cs.dropWhile Text.isSpace with
  | [] => none
  | c :: rest => if c = mark then some rest else none

/-- A year: up to four digits, or a sign and any number of digits. -/
def year? (cs : List Char) : Option (Int × List Char) :=
  match cs.dropWhile Text.isSpace with
  | '-' :: rest => (digits? none rest).map fun y => (-(y.1 : Int), y.2)
  | '+' :: rest => (digits? none rest).map fun y => ((y.1 : Int), y.2)
  | rest => (digits? (some 4) rest).map fun y => ((y.1 : Int), y.2)

/-- The nanoseconds of a fraction, if one follows. Digits after the ninth are passed over. -/
def fraction? : List Char → Option (Nat × List Char)
  | '.' :: cs =>
    let run := (cs.takeWhile Char.isDigit).take 9
    if run.isEmpty then none
    else some (Text.digitsValue (run.rightpad 9 '0'), cs.dropWhile Char.isDigit)
  | cs => some (0, cs)

/-- The instant that a text writes. -/
def read? (s : String) : Option Instant := do
  let (year, cs) ← year? s.toList
  let (month, cs) ← number? (← mark? '-' cs)
  let (day, cs) ← number? (← mark? '-' cs)
  let (hour, cs) ← number? (← mark? 'T' cs)
  let (minute, cs) ← number? (← mark? ':' cs)
  let (second, cs) ← number? (← mark? ':' cs)
  let (nanosecond, cs) ← fraction? cs
  guard (cs.all Text.isSpace)
  return ⟨← Date.ofCivil? year month day, ← TimeOfDay.of? hour minute second nanosecond⟩

end CasualDate.Timestamp
