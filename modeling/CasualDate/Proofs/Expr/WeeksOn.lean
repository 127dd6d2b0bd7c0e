import CasualDate.Proofs.Expr.FixedLength
import CasualDate.Proofs.Expr.WholeDays

/-!
# Whole weeks on

Where the clock shows the same so many weeks on, an expression that names no month and no year means
the same instant, so many weeks on (`MomentExpr.evaluate_isDaysFrom`). What it adds to the current day
depends on the weekday alone (`DateExpr.lead`), and the weekday comes back after whole weeks;
everything that is counted from there is of one length (`Duration.shift_isDaysFrom`,
`Duration.shiftDate_isDaysFrom`), so it moves along by any number of days.
-/

namespace CasualDate

namespace Date

variable {d d' e e' : Date} {n k k' : Int}

/-- The first date lies so many days from the second one, before it if they are negative. -/
def IsDaysFrom (e d : Date) (n : Int) : Prop :=
  e.dayNumber = d.dayNumber + n

theorem addDays?_eq_some_iff : d.addDays? n = some e ↔ e.IsDaysFrom d n := by
  constructor
  · exact dayNumber_ofDayNumber?
  · intro h
    rw [addDays?, ← h]
    exact e.ofDayNumber?_dayNumber

namespace IsDaysFrom

protected theorem addDays? (h : d'.IsDaysFrom d n) (he : d.addDays? k = some e)
    (he' : d'.addDays? k' = some e') : e'.IsDaysFrom e (n + (k' - k)) := by
  rw [addDays?_eq_some_iff] at he he'
  unfold IsDaysFrom at *
  omega

theorem weekday_eq (h : d'.IsDaysFrom d (7 * k)) : d'.weekday = d.weekday := by
  unfold IsDaysFrom at h
  rw [weekday_eq_iff, index_weekday]
  omega

theorem index_weekday_of_next (h : d'.IsDaysFrom d (7 * k + 1)) :
    d'.weekday.index = (d.weekday.index + 1) % 7 := by
  have hindex := d.index_weekday
  have hindex' := d'.index_weekday
  unfold IsDaysFrom at h
  omega

end IsDaysFrom

end Date

namespace Instant

variable {t t' u u' : Instant} {n m : Int}

/-- The first instant lies so many days from the second one, at the same time of day. -/
structure IsDaysFrom (u t : Instant) (n : Int) : Prop where
  date : u.date.IsDaysFrom t.date n
  time_eq : u.time = t.time

theorem isDaysFrom_iff : u.IsDaysFrom t n ↔ u.IsMinutesFrom t (n * 1440) := by
  have hminutes := t.minutes_eq
  have hminutes' := u.minutes_eq
  constructor
  · rintro ⟨hdate, htime⟩
    unfold Date.IsDaysFrom at hdate
    rw [htime, hdate] at hminutes'
    exact ⟨by omega, by rw [htime], by rw [htime]⟩
  · rintro ⟨hdays, hsecond, hnano⟩
    have hhour := t.time.hour_lt
    have hminute := t.time.minute_lt
    have hhour' := u.time.hour_lt
    have hminute' := u.time.minute_lt
    have hdate : u.date.dayNumber = t.date.dayNumber + n := by omega
    have hclock : u.time.hour = t.time.hour ∧ u.time.minute = t.time.minute := by omega
    refine ⟨hdate, ?_⟩
    cases htime : u.time
    cases htime' : t.time
    simp_all

theorem addDays?_eq_some_iff (h : t.time.second < 60) : t.addDays? n = some u ↔ u.IsDaysFrom t n :=
  (addMinutes?_eq_some_iff_of_lt h).trans isDaysFrom_iff.symm

/-- Counted back from a leap second, minutes are counted from the full minute after it. -/
theorem minutes_of_addMinutes? (h : t.addMinutes? m = some u) :
    u.minutes = t.minutes + m + if t.time.second < 60 ∨ 0 ≤ m then 0 else 1 := by
  unfold addMinutes? at h
  split at h
  · have hminutes := (inMinute?_eq_some_iff.1 h).1
    rw [if_pos (by omega), hminutes, Int.add_zero]
  · split at h
    · have hminutes := (inMinute?_eq_some_iff.1 h).1
      rw [if_pos (by omega), hminutes, Int.add_zero]
    · have hminutes := (inMinute?_eq_some_iff.1 h).1
      rw [if_neg (by omega), hminutes]
      omega

theorem IsDaysFrom.addMinutes? (h : t'.IsDaysFrom t n) (hu : t.addMinutes? m = some u)
    (hu' : t'.addMinutes? m = some u') : u'.IsDaysFrom u n := by
  have htime : u'.time = u.time := by
    rw [time_of_addMinutes? hu', time_of_addMinutes? hu, h.time_eq]
  have hapart := (isDaysFrom_iff.1 h).minutes_eq
  have hminutes := minutes_of_addMinutes? hu
  have hminutes' := minutes_of_addMinutes? hu'
  rw [h.time_eq] at hminutes'
  rw [isDaysFrom_iff]
  exact ⟨by omega, by rw [htime], by rw [htime]⟩

end Instant

namespace Duration

variable {dir : Direction} {t t' u u' : Instant} {date date' e e' : Date} {part : Nat × TimeUnit}
  {d : Duration} {n : Int}

theorem shift_isDaysFrom (hd : d.isFixed = true) (h : t'.IsDaysFrom t n)
    (hu : d.shift dir t = .ok u) (hu' : d.shift dir t' = .ok u') : u'.IsDaysFrom u n := by
  refine foldlM_related (R := fun t' t => t'.IsDaysFrom t n) (fun part hpart => ?_) h hu hu'
  intro t t' u u' h hu hu'
  rw [step_eq_ok_iff_of_isFixed (isFixed_iff.1 hd part hpart)] at hu hu'
  exact h.addMinutes? hu hu'

/-- What leads from a date to a date leads from any ordinary second of it to the same one. -/
theorem shift_of_shiftDate {time : TimeOfDay} (hsecond : time.second < 60)
    (h : d.shiftDate dir date = .ok e) : d.shift dir ⟨date, time⟩ = .ok ⟨e, time⟩ := by
  have hdaily : d.isSubDaily = false := by
    cases hsub : d.isSubDaily with
    | false => rfl
    | true =>
      rw [shiftDate, if_pos hsub] at h
      cases h
  rw [shift_eq_map_shiftDate hdaily (.inl hsecond), h]
  rfl

theorem shiftDate_isDaysFrom (hd : d.isFixed = true) (h : date'.IsDaysFrom date n)
    (he : d.shiftDate dir date = .ok e) (he' : d.shiftDate dir date' = .ok e') :
    e'.IsDaysFrom e n := by
  have hsecond : TimeOfDay.midnight.second < 60 := Nat.succ_pos 59
  have hmidnight : (⟨date', .midnight⟩ : Instant).IsDaysFrom ⟨date, .midnight⟩ n := ⟨h, rfl⟩
  have hdays := shift_isDaysFrom hd hmidnight (shift_of_shiftDate hsecond he)
    (shift_of_shiftDate hsecond he')
  exact hdays.date

end Duration

namespace DateExpr

variable {date date' u u' : Date} {n : Int}

/-- Whether the date is named by the current day, the weekday and days and weeks alone. -/
def isRelative : DateExpr → Bool
  | today | tomorrow | yesterday | weekday _ | relativeWeekday .. | unstated => true
  | relativeUnit _ unit => unit.isFixed
  | before d e | after d e => d.isFixed && e.isRelative
  | numericFull .. | monthDayYear .. | numeric .. | monthDay .. | monthYear .. | month _ => false

/-- How many days ahead the weekday is that the date is counted from, if there is one. -/
def lead (now : Weekday) : DateExpr → Int
  | weekday day => now.daysUntil day
  | relativeWeekday r day => weekdayOffset now r day
  | before _ e | after _ e => e.lead now
  | _ => 0

/-- Seen from another day, a relative date lies as many days on as that day, but for the weekday that
it is counted from. -/
theorem evaluate_isDaysFrom {e : DateExpr} (he : e.isRelative = true)
    (h : date'.IsDaysFrom date n) (hu : e.evaluate date = .ok u) (hu' : e.evaluate date' = .ok u') :
    u'.IsDaysFrom u (n + (e.lead date'.weekday - e.lead date.weekday)) := by
  induction e generalizing u u' with
  | today | unstated =>
    cases hu
    cases hu'
    simpa [lead] using h
  | yesterday | tomorrow =>
    rw [evaluate, orOffCalendar_eq_ok_iff] at hu hu'
    simpa [lead] using h.addDays? hu hu'
  | weekday day =>
    rw [evaluate, orOffCalendar_eq_ok_iff] at hu hu'
    exact h.addDays? hu hu'
  | relativeWeekday r day =>
    simp only [evaluate] at hu hu'
    split at hu
    · next v hv =>
      split at hu'
      · next v' hv' =>
        cases hu
        cases hu'
        exact h.addDays? hv hv'
      · cases hu'
    · cases hu
  | relativeUnit r unit =>
    have hd : (Duration.count 1 unit).isFixed = true := (Bool.and_true _).trans he
    cases r with
    | current => cases hu
    | following | previous =>
      rw [evaluate, orRefuse_eq_ok_iff] at hu hu'
      simpa [lead] using Duration.shiftDate_isDaysFrom hd h hu hu'
  | before d e ih | after d e ih =>
    rw [isRelative, Bool.and_eq_true] at he
    rw [evaluate, bind_eq_ok_iff] at hu hu'
    obtain ⟨v, hv, hu⟩ := hu
    obtain ⟨v', hv', hu'⟩ := hu'
    rw [orRefuse_eq_ok_iff] at hu hu'
    exact Duration.shiftDate_isDaysFrom he.1 (ih he.2 hv hv') hu hu'
  | numericFull | monthDayYear | numeric | monthDay | monthYear | month => cases he

end DateExpr

namespace TimeExpr

variable {t t' : Instant}

theorem evaluate_congr {e : TimeExpr} (h : e = .unstated → t'.time = t.time) :
    e.evaluate t' = e.evaluate t := by
  cases e with
  | unstated => exact congrArg Except.ok (h rfl)
  | bare | clock | halfDay => rfl

end TimeExpr

namespace MomentExpr

variable {reference reference' u u' : Instant} {k : Int}

/-- Whether the moment is named by the current instant, times of day, weekdays and units of one length
alone. -/
def isRelative : MomentExpr → Bool
  | now => true
  | dateTime date _ | timeDate _ date => date.isRelative
  | after d m | before d m => d.isFixed && m.isRelative

theorem evaluate_dateTime_eq_ok_iff {date : DateExpr} {time : TimeExpr} :
    (dateTime date time).evaluate reference = .ok u ↔
      date.evaluate reference.date = .ok u.date ∧ time.evaluate reference = .ok u.time := by
  rw [evaluate, bind_eq_ok_iff]
  constructor
  · rintro ⟨day, hday, hu⟩
    obtain ⟨timeOfDay, htime, hu⟩ := bind_eq_ok_iff.1 hu
    cases hu
    exact ⟨hday, orRefuse_eq_ok_iff.1 htime⟩
  · rintro ⟨hday, htime⟩
    exact ⟨u.date, hday, bind_eq_ok_iff.2 ⟨u.time, orRefuse_eq_ok_iff.2 htime, rfl⟩⟩

theorem evaluate_isDaysFrom {e : MomentExpr} (he : e.isRelative = true)
    (h : reference'.IsDaysFrom reference (7 * k)) (hu : e.evaluate reference = .ok u)
    (hu' : e.evaluate reference' = .ok u') : u'.IsDaysFrom u (7 * k) := by
  induction e generalizing u u' with
  | now =>
    cases hu
    cases hu'
    exact h
  | dateTime date time | timeDate time date =>
    obtain ⟨hday, htime⟩ := evaluate_dateTime_eq_ok_iff.1 hu
    obtain ⟨hday', htime'⟩ := evaluate_dateTime_eq_ok_iff.1 hu'
    rw [TimeExpr.evaluate_congr fun _ => h.time_eq, htime] at htime'
    refine ⟨?_, (Except.ok.inj htime').symm⟩
    simpa [h.date.weekday_eq] using date.evaluate_isDaysFrom he h.date hday hday'
  | after d m ih | before d m ih =>
    rw [isRelative, Bool.and_eq_true] at he
    rw [evaluate, bind_eq_ok_iff] at hu hu'
    obtain ⟨v, hv, hu⟩ := hu
    obtain ⟨v', hv', hu'⟩ := hu'
    rw [orRefuse_eq_ok_iff] at hu hu'
    exact Duration.shift_isDaysFrom he.1 (ih he.2 hv hv') hu hu'

theorem second_lt_of_evaluate {e : MomentExpr} (h : reference.time.second < 60)
    (hu : e.evaluate reference = .ok u) : u.time.second < 60 := by
  induction e generalizing u with
  | now =>
    cases hu
    exact h
  | dateTime date time | timeDate time date =>
    obtain ⟨-, htime⟩ := evaluate_dateTime_eq_ok_iff.1 hu
    by_cases hstated : time = .unstated
    · subst hstated
      rw [← Except.ok.inj htime]
      exact h
    · obtain ⟨hour, minute, hclock⟩ := TimeExpr.exists_ofClock?_of_evaluate hstated htime
      exact TimeOfDay.second_lt_of_ofClock? hclock
  | after d m ih | before d m ih =>
    rw [evaluate, bind_eq_ok_iff] at hu
    obtain ⟨v, hv, hu⟩ := hu
    rw [orRefuse_eq_ok_iff] at hu
    have hle := u.time.second_le
    have hsecond := ih hv
    have hleap := Duration.second_shift_eq_iff hu
    omega

end MomentExpr

end CasualDate
