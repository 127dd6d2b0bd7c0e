import CasualDate.Text.Lowercase
import CasualDate.Text.CharTable

/-!
# Days of the week
-/

namespace CasualDate

inductive Weekday where
  | sunday | monday | tuesday | wednesday | thursday | friday | saturday
deriving DecidableEq

namespace Weekday

def index : Weekday → Nat
  | sunday => 0
  | monday => 1
  | tuesday => 2
  | wednesday => 3
  | thursday => 4
  | friday => 5
  | saturday => 6

/-- The weekday `n` days after a Sunday. -/
def ofIndex (n : Nat) : Weekday :=
  match n % 7 with
  | 0 => sunday
  | 1 => monday
  | 2 => tuesday
  | 3 => wednesday
  | 4 => thursday
  | 5 => friday
  | _ => saturday

theorem index_lt (d : Weekday) : d.index < 7 := by
  cases d <;> decide

@[simp] theorem ofIndex_index (d : Weekday) : ofIndex d.index = d := by
  cases d <;> rfl

theorem index_ofIndex (n : Nat) : (ofIndex n).index = n % 7 := by
  have h : n % 7 = 0 ∨ n % 7 = 1 ∨ n % 7 = 2 ∨ n % 7 = 3 ∨ n % 7 = 4 ∨ n % 7 = 5 ∨ n % 7 = 6 := by
    omega
  rcases h with h | h | h | h | h | h | h <;> simp [ofIndex, h, index]

/-- The number of days from a day `a` to the next day `b`, 0 if they are the same. -/
def daysUntil (a b : Weekday) : Nat :=
  (7 + b.index - a.index) % 7

def pred (d : Weekday) : Weekday :=
  ofIndex (d.index + 6)

def name : Weekday → String
  | sunday => "Sunday"
  | monday => "Monday"
  | tuesday => "Tuesday"
  | wednesday => "Wednesday"
  | thursday => "Thursday"
  | friday => "Friday"
  | saturday => "Saturday"

/-- The weekday with a full or three-letter name, in any case and with space around it. -/
def ofName? (s : String) : Option Weekday :=
  match Text.lower (Text.trim s) with
  | "sunday" | "sun" => some sunday
  | "monday" | "mon" => some monday
  | "tuesday" | "tue" => some tuesday
  | "wednesday" | "wed" => some wednesday
  | "thursday" | "thu" => some thursday
  | "friday" | "fri" => some friday
  | "saturday" | "sat" => some saturday
  | _ => none

end Weekday

end CasualDate
