/-!
# Months of the Gregorian year
-/

namespace CasualDate

inductive Month where
  | january | february | march | april | may | june
  | july | august | september | october | november | december
deriving DecidableEq

namespace Month

/-- The place of the month in the year, January being 1. -/
def number : Month → Nat
  | january => 1
  | february => 2
  | march => 3
  | april => 4
  | may => 5
  | june => 6
  | july => 7
  | august => 8
  | september => 9
  | october => 10
  | november => 11
  | december => 12

def name : Month → String
  | january => "January"
  | february => "February"
  | march => "March"
  | april => "April"
  | may => "May"
  | june => "June"
  | july => "July"
  | august => "August"
  | september => "September"
  | october => "October"
  | november => "November"
  | december => "December"

def all : List Month :=
  [january, february, march, april, may, june, july, august, september, october, november,
    december]

end Month

end CasualDate
