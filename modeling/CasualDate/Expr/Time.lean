import CasualDate.Instant
import CasualDate.Number

/-!
# Times of day in text

"midnight", "noon", and a number with minutes after a colon, "am" or "pm", both or neither.
-/

namespace CasualDate

inductive TimeExpr where
  /-- A number by itself, read as a whole hour. -/
  | bare (hour : Nat)
  | clock (hour minute : Nat)
  | halfDay (half : Meridiem) (hour minute : Nat)
  | unstated
deriving DecidableEq

namespace TimeExpr

/-- The minutes after an hour. A colon is taken even if no number follows it. -/
def minutes : List Word → Option Nat × List Word
  | .colon :: ws =>
    match Number.parse? ws with
    | some p => (some p.value, p.rest)
    | none => (none, ws)
  | ws => (none, ws)

theorem length_minutes_le (ws : List Word) : (minutes ws).2.length ≤ ws.length := by
  unfold minutes
  split
  · split
    · next p _ =>
      have := p.shorter
      simp only [List.length_cons]
      omega
    · simp
  · simp

def afterHour {ws : List Word} (hour : Parsed Nat ws) : Parsed TimeExpr ws :=
  have hlt := hour.shorter
  have hle := length_minutes_le hour.rest
  match h : minutes hour.rest with
  | (minute, .meridiem half :: rest) =>
    ⟨.halfDay half hour.value (minute.getD 0), rest, by
      rw [h] at hle; simp only [List.length_cons] at hle; omega⟩
  | (some minute, rest) => ⟨.clock hour.value minute, rest, by rw [h] at hle; simp at hle; omega⟩
  | (none, rest) => ⟨.bare hour.value, rest, by rw [h] at hle; simp at hle; omega⟩

def parse? (ws : List Word) : Option (Parsed TimeExpr ws) :=
  match ws with
  | .midnight :: _ => some (.ofHead (.clock 0 0))
  | .noon :: _ => some (.ofHead (.clock 12 0))
  | ws => (Number.parse? ws).map afterHour

/-- The time of day meant at the instant `now`. -/
def evaluate (now : Instant) (e : TimeExpr) : Except Error TimeOfDay :=
  let at? (hour minute : Nat) (cause : InvalidDate) : Except Error TimeOfDay :=
    match TimeOfDay.ofClock? hour minute 0 with
    | some t => .ok t
    | none => .error (.invalidDate cause)
  match e with
  | unstated => .ok now.time
  | bare hour => at? hour 0 (.time hour 0 none)
  | clock hour minute => at? hour minute (.time hour minute none)
  | halfDay half hour minute =>
    let cause := .time hour minute (some half)
    if hour = 0 ∨ 12 < hour then .error (.invalidDate cause)
    else
      match half with
      | .am => at? (hour % 12) minute cause
      | .pm => at? (hour % 12 + 12) minute cause

def describe : TimeExpr → String
  | bare hour => "Bare(" ++ toString hour ++ ")"
  | clock hour minute => "HourMin(" ++ toString hour ++ ", " ++ toString minute ++ ")"
  | halfDay .am hour minute => "HourMinAM(" ++ toString hour ++ ", " ++ toString minute ++ ")"
  | halfDay .pm hour minute => "HourMinPM(" ++ toString hour ++ ", " ++ toString minute ++ ")"
  | unstated => "Empty"

end TimeExpr

end CasualDate
