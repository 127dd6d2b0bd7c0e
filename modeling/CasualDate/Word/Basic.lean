import CasualDate.Error
import CasualDate.Month
import CasualDate.Text.Decimal
import CasualDate.TimeUnit
import CasualDate.Weekday

/-!
# Words

The words and marks that date expressions are made of. Different spellings of one word are one
`Word`; text that no expression uses is `unknown`.
-/

namespace CasualDate

/-- Which of the days or periods of a name is meant: this one, the next or the last. -/
inductive Relative where
  | current | following | previous
deriving DecidableEq

def Relative.name : Relative → String
  | current => "This"
  | following => "Next"
  | previous => "Last"

/-- The spelled numbers below one hundred that are a single word. -/
inductive Numeral where
  | one | two | three | four | five | six | seven | eight | nine
  | ten | eleven | twelve | thirteen | fourteen | fifteen | sixteen | seventeen | eighteen
  | nineteen
  | twenty | thirty | forty | fifty | sixty | seventy | eighty | ninety
deriving DecidableEq

def Numeral.value : Numeral → Nat
  | one => 1
  | two => 2
  | three => 3
  | four => 4
  | five => 5
  | six => 6
  | seven => 7
  | eight => 8
  | nine => 9
  | ten => 10
  | eleven => 11
  | twelve => 12
  | thirteen => 13
  | fourteen => 14
  | fifteen => 15
  | sixteen => 16
  | seventeen => 17
  | eighteen => 18
  | nineteen => 19
  | twenty => 20
  | thirty => 30
  | forty => 40
  | fifty => 50
  | sixty => 60
  | seventy => 70
  | eighty => 80
  | ninety => 90

/-- The words that a number below one thousand can be multiplied by. -/
inductive Scale where
  | thousand | million | billion
deriving DecidableEq

def Scale.value : Scale → Nat
  | thousand => 1000
  | million => 1000000
  | billion => 1000000000

inductive Word where
  | indefinite | the
  | andWord | onWord | atWord | ofWord | inWord | fromWord | afterWord | beforeWord | agoWord
  | now | today | tomorrow | yesterday | midnight | noon
  | comma | colon | dot | dash | slash
  | relative (r : Relative)
  | weekday (d : Weekday)
  | month (m : Month)
  | unit (u : TimeUnit)
  | meridiem (half : Meridiem)
  | ordinalSuffix
  /-- A number in digits. -/
  | literal (n : Text.Count)
  | numeral (n : Numeral)
  | hundred
  | scale (s : Scale)
  /-- The word "zero", which counts nothing. -/
  | zero
  | unknown
deriving DecidableEq

end CasualDate
