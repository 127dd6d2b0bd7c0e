import CasualDate.Expr.Moment
import CasualDate.Proofs.Error.Answers
import CasualDate.Proofs.Instant.Days

/-!
# Where evaluation breaks down

Most failures of an evaluation are refusals. It breaks down for two reasons only: because a day next
to the current one, or the coming weekday, lies outside the range of dates, and because a two-digit
year has no century. A day off the ends of the range the second reason is the only one left, and it
takes a date with a two-digit year and a current year from -10 to -1
(`MomentExpr.evaluate_eq_broken_iff`).
-/

namespace CasualDate

section Failures

variable {α β : Type} {x : Except Failure α} {cause : Breakdown}

theorem orRefuse_ok (a : α) : orRefuse (.ok a) = .ok a := rfl

theorem orRefuse_ne_broken (y : Except Error α) : orRefuse y ≠ .error (.broken cause) := by
  cases y <;> rintro ⟨⟩

/-- A computation that only ever refuses adds no breakdown. -/
theorem bind_eq_broken_iff {f : α → Except Failure β} (hf : ∀ a, f a ≠ .error (.broken cause)) :
    x >>= f = .error (.broken cause) ↔ x = .error (.broken cause) := by
  cases x with
  | ok a => exact iff_of_false (hf a) (by simp)
  | error failure => simp [bind, Except.bind]

theorem bind_pure_eq_error_iff {f : α → β} {failure : Failure} :
    (x >>= fun a => pure (f a)) = .error failure ↔ x = .error failure := by
  cases x <;> simp [bind, Except.bind, pure, Except.pure]

theorem map_eq_error_iff {f : α → β} {failure : Failure} :
    x.map f = .error failure ↔ x = .error failure := by
  cases x <;> simp [Except.map]

end Failures

/-- The day before lies in the range, and so do the six days after. -/
structure Date.HasRoom (d : Date) : Prop where
  low : firstDay + 1 ≤ d.dayNumber
  high : d.dayNumber + 6 ≤ lastDay

namespace Date.HasRoom

variable {d : Date} {n : Int}

theorem exists_addDays? (h : d.HasRoom) (hlow : -1 ≤ n) (hhigh : n ≤ 6) :
    ∃ e, d.addDays? n = some e := by
  have := h.low
  have := h.high
  exact ⟨_, ofDayNumber?_eq_some (n := d.dayNumber + n) (by omega) (by omega)⟩

theorem orOffCalendar_ne_broken {cause : Breakdown} (h : d.HasRoom) (hlow : -1 ≤ n)
    (hhigh : n ≤ 6) : orOffCalendar (d.addDays? n) ≠ .error (.broken cause) := by
  obtain ⟨e, he⟩ := h.exists_addDays? hlow hhigh
  simp [he, orOffCalendar]

end Date.HasRoom

namespace DateExpr

variable {d : Date} {e : DateExpr} {cause : Breakdown}

/-- Whether the date is written in numbers with a year below one hundred, or counted from such a
date. -/
def asksCentury : DateExpr → Bool
  | numericFull _ _ year => year < 100
  | before _ date | after _ date => date.asksCentury
  | _ => false

theorem fullYear_eq_broken_iff {reference : Int} {year : Nat} :
    fullYear reference year = .error (.broken cause) ↔
      cause = .noCentury ∧ year < 100 ∧ -10 ≤ reference ∧ reference < 0 := by
  unfold fullYear
  split
  · simp; omega
  · split
    · simp [eq_comm]; omega
    · split <;> simp <;> omega

theorem evaluate_eq_broken_iff (h : d.HasRoom) : e.evaluate d = .error (.broken cause) ↔
    cause = .noCentury ∧ e.asksCentury = true ∧ -10 ≤ d.year ∧ d.year < 0 := by
  induction e with
  | numericFull month day year =>
    rw [evaluate, bind_eq_broken_iff fun _ => orRefuse_ne_broken _, fullYear_eq_broken_iff]
    simp [asksCentury]
  | before duration date ih | after duration date ih =>
    rw [evaluate, bind_eq_broken_iff fun _ => orRefuse_ne_broken _]
    exact ih
  | yesterday | tomorrow =>
    exact iff_of_false (h.orOffCalendar_ne_broken (by decide) (by decide)) (by simp [asksCentury])
  | weekday day =>
    have := d.weekday.daysUntil_lt day
    exact iff_of_false (h.orOffCalendar_ne_broken (by omega) (by omega)) (by simp [asksCentury])
  | today | unstated => simp [evaluate, asksCentury]
  | numeric | monthDay | month | monthDayYear | monthYear =>
    exact iff_of_false (orRefuse_ne_broken _) (by simp [asksCentury])
  | relativeUnit r unit =>
    cases r with
    | current => simp [evaluate, asksCentury]
    | following | previous => exact iff_of_false (orRefuse_ne_broken _) (by simp [asksCentury])
  | relativeWeekday r day =>
    simp only [evaluate]
    split <;> simp [asksCentury]

end DateExpr

namespace MomentExpr

variable {t : Instant} {e : MomentExpr} {cause : Breakdown}

/-- Whether a date of the moment asks for the century of its year. -/
def asksCentury : MomentExpr → Bool
  | now => false
  | dateTime date _ | timeDate _ date => date.asksCentury
  | after _ moment | before _ moment => moment.asksCentury

theorem evaluate_dateTime_eq_broken_iff {date : DateExpr} {time : TimeExpr} :
    (dateTime date time).evaluate t = .error (.broken cause) ↔
      date.evaluate t.date = .error (.broken cause) := by
  rw [evaluate, bind_eq_broken_iff fun _ => mt bind_pure_eq_error_iff.1 (orRefuse_ne_broken _)]

theorem evaluate_eq_broken_iff (h : t.date.HasRoom) : e.evaluate t = .error (.broken cause) ↔
    cause = .noCentury ∧ e.asksCentury = true ∧ -10 ≤ t.date.year ∧ t.date.year < 0 := by
  induction e with
  | now => simp [evaluate, asksCentury]
  | dateTime date time =>
    rw [evaluate_dateTime_eq_broken_iff, DateExpr.evaluate_eq_broken_iff h]
    rfl
  | timeDate time date =>
    rw [show (timeDate time date).evaluate t = (dateTime date time).evaluate t by simp only [evaluate],
      evaluate_dateTime_eq_broken_iff, DateExpr.evaluate_eq_broken_iff h]
    rfl
  | after duration moment ih | before duration moment ih =>
    rw [evaluate, bind_eq_broken_iff fun _ => orRefuse_ne_broken _]
    exact ih

end MomentExpr

end CasualDate
