import CasualDate.Finder.Scan
import CasualDate.Proofs.Reading.Date

/-!
# Reading moments

A date that is read from the beginning of the words makes a moment by itself or with the time that
follows it (`reads_date`, `reads_dateTime`). Words that the scan does not stop at begin nothing
(`parse?_eq_none`): it only saves the attempt.
-/

namespace CasualDate

namespace TimeExpr

variable {hour minute : Text.Count} {rest : List Word}

@[simp] theorem parse?_nil : parse? [] = none := by
  simp [parse?]

theorem minutes_colon_literal (rest : List Word)
    (h : ∀ w ∈ rest.head?, w.multiplies = false) :
    minutes (.colon :: .literal minute :: rest) = (some minute.val, rest) := by
  obtain ⟨_, hminute⟩ := Number.reads_literal minute rest h
  simp [minutes, hminute]

theorem afterHour_clock {ws : List Word} (hour : Parsed Nat ws) {m : Nat}
    (h : minutes hour.rest = (some m, [])) :
    ∃ hlt, afterHour hour = ⟨clock hour.value m, [], hlt⟩ := by
  refine ⟨Nat.lt_of_le_of_lt (Nat.zero_le _) hour.shorter, ?_⟩
  unfold afterHour
  split
  · next heq => rw [h] at heq; cases heq
  · next heq => rw [h] at heq; cases heq; rfl
  · next heq => rw [h] at heq; cases heq

theorem afterHour_halfDay {ws : List Word} (hour : Parsed Nat ws) {m : Nat} {half : Meridiem}
    (h : minutes hour.rest = (some m, [.meridiem half])) :
    ∃ hlt, afterHour hour = ⟨halfDay half hour.value m, [], hlt⟩ := by
  refine ⟨Nat.lt_of_le_of_lt (Nat.zero_le _) hour.shorter, ?_⟩
  unfold afterHour
  split
  · next heq => rw [h] at heq; cases heq; rfl
  · next hno heq => rw [h] at heq; cases heq; exact (hno _ _ rfl).elim
  · next heq => rw [h] at heq; cases heq

theorem reads_clock : Reads parse? [.literal hour, .colon, .literal minute] (clock hour minute) [] := by
  obtain ⟨hlt, hhour⟩ := Number.reads_literal hour [.colon, .literal minute]
    (by simp [Word.multiplies])
  obtain ⟨hlt', hclock⟩ := afterHour_clock ⟨hour.val, _, hlt⟩
    (minutes_colon_literal [] (by simp))
  exact ⟨hlt', by simp [parse?, hhour, hclock]⟩

theorem reads_halfDay {half : Meridiem} :
    Reads parse? [.literal hour, .colon, .literal minute, .meridiem half]
      (halfDay half hour minute) [] := by
  obtain ⟨hlt, hhour⟩ := Number.reads_literal hour
    [.colon, .literal minute, .meridiem half] (by simp [Word.multiplies])
  obtain ⟨hlt', hhalf⟩ := afterHour_halfDay ⟨hour.val, _, hlt⟩
    (minutes_colon_literal [.meridiem half] (by simp [Word.multiplies]))
  exact ⟨hlt', by simp [parse?, hhour, hhalf]⟩

end TimeExpr

namespace MomentExpr

variable {date : DateExpr} {time : TimeExpr} {ws left rest : List Word}

@[simp] theorem parse?_nil : parse? [] = none := by
  cases h : parse? [] with
  | none => rfl
  | some p => exact absurd p.shorter (Nat.not_lt_zero _)

theorem parse?_eq_none {w : Word} (h : w.startsExpression = false) : parse? (w :: rest) = none := by
  have hnumber : Number.parse? (w :: rest) = none :=
    Number.parse?_eq_none (by cases w <;> first | rfl | cases h)
  have hduration : Duration.parse? (w :: rest) = none := by
    rw [Duration.parse?.eq_def]
    cases w <;> first | (cases h; done) | simp [Duration.part?, hnumber]
  have hdate : DateExpr.parse? (w :: rest) = none := by
    rw [DateExpr.parse?.eq_def]
    cases w <;> first
      | (cases h; done)
      | simp [DateExpr.namedDay?, DateExpr.monthFirst?, DateExpr.dayFirst?, DateExpr.numeric?,
          DateExpr.relative?, DateExpr.weekday?, readWord?, skipWord, hnumber, hduration]
  have htime : TimeExpr.parse? (w :: rest) = none := by
    cases w <;> first | (cases h; done) | simp [TimeExpr.parse?, hnumber]
  rw [parse?.eq_def]
  cases w <;> first | (cases h; done) | simp [hdate, hduration, htime]

@[simp] theorem timeAfter_nil : timeAfter [] = none := by
  simp [timeAfter]

theorem timeAfter_ofWord : timeAfter (.ofWord :: rest) = none := by
  have hnumber : Number.parse? (.ofWord :: rest) = none := Number.parse?_eq_none rfl
  simp [timeAfter, TimeExpr.parse?, hnumber]

theorem parse?_unit {u : TimeUnit} : parse? (.unit u :: rest) = none := by
  have hnumber : Number.parse? (.unit u :: rest) = none := Number.parse?_eq_none rfl
  have hduration : Duration.parse? (.unit u :: rest) = none := by
    rw [Duration.parse?.eq_def]
    simp [Duration.part?, hnumber]
  have hdate : DateExpr.parse? (.unit u :: rest) = none := by
    rw [DateExpr.parse?.eq_def]
    simp [DateExpr.namedDay?, DateExpr.monthFirst?, DateExpr.dayFirst?, DateExpr.numeric?,
      DateExpr.relative?, DateExpr.weekday?, readWord?, skipWord, hnumber, hduration]
  rw [parse?.eq_def]
  simp [hdate, hduration, TimeExpr.parse?, hnumber]

theorem startsExpression_of_reads {w : Word} {e : MomentExpr} (h : Reads parse? (w :: rest) e left) :
    w.startsExpression = true := by
  obtain ⟨_, hread⟩ := h
  cases hw : w.startsExpression with
  | true => rfl
  | false => rw [parse?_eq_none hw] at hread; cases hread

/-- The words that make a moment without a date or a time: a moment is no date if it begins so. -/
def isOpening : Word → Bool
  | .now | .inWord => true
  | _ => false

theorem parse?_eq_withDate {p : Parsed DateExpr ws} (hopen : ∀ w ∈ ws.head?, isOpening w = false)
    (hdate : DateExpr.parse? ws = some p) : parse? ws = some (withDate p) := by
  rw [parse?.eq_def]
  cases ws with
  | nil => exact absurd p.shorter (Nat.not_lt_zero _)
  | cons w ws =>
    have hw := hopen w rfl
    cases w <;> first | (cases hw; done) | simp [hdate]

theorem reads_date (hopen : ∀ w ∈ ws.head?, isOpening w = false)
    (hdate : Reads DateExpr.parse? ws date rest) (htime : timeAfter rest = none) :
    Reads parse? ws (dateTime date .unstated) rest := by
  obtain ⟨hlt, hdate⟩ := hdate
  refine ⟨hlt, ?_⟩
  rw [parse?_eq_withDate hopen hdate]
  simp [withDate, htime]

theorem reads_dateTime (hopen : ∀ w ∈ ws.head?, isOpening w = false)
    (hdate : Reads DateExpr.parse? ws date left) (htime : Reads timeAfter left time rest) :
    Reads parse? ws (dateTime date time) rest := by
  obtain ⟨hlt, hdate⟩ := hdate
  obtain ⟨hlt', htime⟩ := htime
  refine ⟨Nat.lt_trans hlt' hlt, ?_⟩
  rw [parse?_eq_withDate hopen hdate]
  simp [withDate, htime]

end MomentExpr

end CasualDate
