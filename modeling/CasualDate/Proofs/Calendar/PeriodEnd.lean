import CasualDate.Proofs.Calendar.OnePeriodOn

/-!
# Ends of periods

From any day of a period to its end the days lie in that period, and the day after it begins the next
one, so all days of a period have one end (`endOf_isEndOf`). A month or a year is named by the
calendar, and its end is the last of its names; a week is known by the weekday that it begins with.
The end of a month need not be a day that can be converted itself: the last Persian month that has
such days goes on behind them. The end of a year is one whenever there is an end, since the first day
of its last month is asked for (`covers_of_lastDayOf_year`).
-/

namespace CasualDate.Calendar

open Reckoning

variable {c : Calendar} {p : Period} {d e x : Date} {now t u : Instant} {l : LocalDate}

/-- The month that the calendar counts at the day. -/
def monthAt (c : Calendar) (d : Date) : Nat :=
  (c.reckoning.localDate d.dayNumber).month

/-- The days lie in one period: no week begins after the earlier one of them, up to the later one, or
the calendar counts the same month or the same year at both. -/
def SamePeriod (c : Calendar) (d e : Date) : Period → Prop
  | .week => ∀ x : Date, min d.dayNumber e.dayNumber < x.dayNumber →
      x.dayNumber ≤ max d.dayNumber e.dayNumber → x.weekday ≠ c.weekStart
  | .month => c.yearAt e = c.yearAt d ∧ c.monthAt e = c.monthAt d
  | .year => c.yearAt e = c.yearAt d

/-- The day is the first one of the period after that of `d`. -/
def BeginsNext (c : Calendar) (d x : Date) : Period → Prop
  | .week => x.weekday = c.weekStart
  | .month => c.reckoning.localDate x.dayNumber = c.reckoning.nextMonth (c.yearAt d) (c.monthAt d)
  | .year => c.reckoning.localDate x.dayNumber = ⟨c.yearAt d + 1, 1, 1⟩

/-- `t` is the last millisecond of the last day of the period that holds `now`. -/
structure IsEndOf (c : Calendar) (p : Period) (now t : Instant) : Prop where
  clock : t.time.hour = 23 ∧ t.time.minute = 59 ∧ t.time.second = 59 ∧
    t.time.nanosecond = 999000000
  le : now.date.dayNumber ≤ t.date.dayNumber
  samePeriod : ∀ d : Date, now.date.dayNumber ≤ d.dayNumber → d.dayNumber ≤ t.date.dayNumber →
    c.SamePeriod now.date d p
  next : ∃ x, t.date.addDays? 1 = some x ∧ c.BeginsNext now.date x p

/-- The period of a day with this name begins with days that can be converted and ends with others:
it is the tenth month of the Persian year 9378. -/
def IsCutOff (c : Calendar) (l : LocalDate) (p : Period) : Prop :=
  p = .month ∧ c = persian ∧ l.year = 9378 ∧ l.month = 10

/-! ### Weeks -/

theorem index_weekStart_pred (c : Calendar) :
    c.weekStart.pred.index = (c.weekStart.index + 6) % 7 := by
  cases c <;> rfl

theorem weekday_ne_of_lastDayOf (h : c.lastDayOf d .week = .ok e) (hlow : d.dayNumber < x.dayNumber)
    (hhigh : x.dayNumber ≤ e.dayNumber) : x.weekday ≠ c.weekStart := by
  obtain ⟨-, hlt, hend⟩ := lastDayOf_week_eq_ok_iff.1 h
  have hpred := c.index_weekStart_pred
  rw [Date.weekday_eq_iff] at hend
  rw [Ne, Date.weekday_eq_iff]
  omega

/-- The day after the end of a week begins a week. No week ends with the range of dates. -/
theorem exists_next_week (h : c.lastDayOf d .week = .ok e) :
    ∃ x : Date, x.dayNumber = e.dayNumber + 1 ∧ x.weekday = c.weekStart := by
  obtain ⟨-, -, hend⟩ := lastDayOf_week_eq_ok_iff.1 h
  have hstart := c.weekStart.index_lt
  have hpred := c.index_weekStart_pred
  rw [Date.weekday_eq_iff] at hend
  have hlow := e.firstDay_le
  have hinside : e.dayNumber + 1 ≤ lastDay := by
    refine Int.add_one_le_of_lt (Int.lt_iff_le_and_ne.2 ⟨e.le_lastDay, fun hlast => ?_⟩)
    rw [hlast] at hend
    revert hend
    cases c <;> decide
  exact ⟨⟨e.dayNumber + 1, by omega, hinside⟩, rfl, Date.weekday_eq_iff.2 (by dsimp only; omega)⟩

theorem lastDayOf_week_congr (h : c.lastDayOf d .week = .ok e) (hsame : c.SamePeriod d x .week) :
    c.lastDayOf x .week = .ok e := by
  obtain ⟨hle, hlt, hend⟩ := lastDayOf_week_eq_ok_iff.1 h
  have hindex := c.weekStart.index_lt
  have hpred := c.index_weekStart_pred
  have hend' := Date.weekday_eq_iff.1 hend
  refine lastDayOf_week_eq_ok_iff.2 ⟨?_, ?_, hend⟩
  · -- Otherwise the week that begins on the day after the end would separate the days.
    obtain ⟨y, hy, hstart⟩ := exists_next_week h
    refine Int.not_lt.1 fun hbehind => hsame y ?_ ?_ hstart <;> omega
  · -- Otherwise the week that ends there would begin between the days.
    refine Int.not_le.1 fun hbefore => ?_
    have hlow := x.firstDay_le
    have hhigh := e.le_lastDay
    let y : Date := ⟨e.dayNumber - 6, by omega, by omega⟩
    have hy : y.dayNumber = e.dayNumber - 6 := rfl
    have hstart : y.weekday = c.weekStart := Date.weekday_eq_iff.2 (by omega)
    by_cases hd : y.dayNumber ≤ d.dayNumber
    · exact hsame y (by omega) (by omega) hstart
    · exact weekday_ne_of_lastDayOf h (by omega) (by omega) hstart

/-! ### Months and years -/

theorem localDate_of_lastDayOf (hp : p ≠ .week) (h : c.lastDayOf d p = .ok e) :
    c.reckoning.localDate e.dayNumber =
      ⟨c.yearAt d, lastMonth (c.reckoning.localDate d.dayNumber) p,
        c.reckoning.daysInMonth (c.yearAt d) (lastMonth (c.reckoning.localDate d.dayNumber) p)⟩ :=
  (of_lastDayOf hp h).2

theorem yearAt_lastDayOf (hp : p ≠ .week) (h : c.lastDayOf d p = .ok e) :
    c.yearAt e = c.yearAt d := by
  rw [yearAt, localDate_of_lastDayOf hp h]

theorem samePeriod_of_le (hp : p ≠ .week) (hde : c.SamePeriod d e p)
    (hlow : d.dayNumber ≤ x.dayNumber) (hhigh : x.dayNumber ≤ e.dayNumber) :
    c.SamePeriod d x p := by
  have hbefore := mt (c.lt_iff_precedes x d).2 (Int.not_lt.2 hlow)
  have hbehind := mt (c.lt_iff_precedes e x).2 (Int.not_lt.2 hhigh)
  unfold LocalDate.Precedes at hbefore hbehind
  cases p with
  | week => exact absurd rfl hp
  | month =>
    simp only [SamePeriod, yearAt, monthAt] at hde ⊢
    omega
  | year =>
    simp only [SamePeriod, yearAt] at hde ⊢
    omega

theorem samePeriod_lastDayOf (hp : p ≠ .week) (h : c.lastDayOf d p = .ok e) :
    c.SamePeriod d e p := by
  cases p with
  | week => exact absurd rfl hp
  | month =>
    refine ⟨yearAt_lastDayOf hp h, ?_⟩
    rw [monthAt, localDate_of_lastDayOf hp h]
    rfl
  | year => exact yearAt_lastDayOf hp h

theorem beginsNext_of_lastDayOf (hp : p ≠ .week) (h : c.lastDayOf d p = .ok e)
    (hx : x.dayNumber = e.dayNumber + 1) : c.BeginsNext d x p := by
  have hname : c.reckoning.localDate x.dayNumber =
      c.reckoning.nextMonth (c.yearAt d) (lastMonth (c.reckoning.localDate d.dayNumber) p) := by
    rw [hx, dayNumber_of_lastDayOf hp h, c.lawful.localDate_dayNumber (hasDate_nextMonth ..)]
    rfl
  cases p with
  | week => exact absurd rfl hp
  | month => exact hname
  | year =>
    rw [BeginsNext, hname, lastMonth, nextMonth, monthsInYear_eq, if_neg (Nat.lt_irrefl 12)]

/-- A month or a year that can be named at one of its days ends well within the range of dates. -/
theorem lt_lastDay_of_lastDayOf (hp : p ≠ .week) (h : c.lastDayOf d p = .ok e) :
    e.dayNumber < lastDay := by
  have hd := Date.isConvertible_iff.1 (of_lastDayOf hp h).1
  have hyear := yearAt_lastDayOf hp h
  have hbegin : c.reckoning.newYear (c.yearAt d) ≤ d.dayNumber := c.lawful.newYear_yearOf_le _
  have hend : e.dayNumber < c.reckoning.newYear (c.yearAt e + 1) := c.lawful.lt_newYear_yearOf _
  have hlength := c.newYear_succ_le (c.yearAt d)
  have hinside : CasualDate.gregorian.newYear 10000 + 366 ≤ lastDay := by decide
  rw [hyear] at hend
  omega

theorem isConvertible_iff_covers (c : Calendar) (d : Date) :
    d.IsConvertible ↔ c.Covers (c.reckoning.localDate d.dayNumber) := by
  rw [covers_iff (c.lawful.hasDate_localDate _), c.lawful.dayNumber_localDate,
    Date.isConvertible_iff]

/-- The last day of a month with a day that can be converted can be, too, unless the month is cut
off. -/
theorem covers_lastOfMonth_iff (hl : c.reckoning.HasDate l) (hcovers : c.Covers l) :
    c.Covers ⟨l.year, l.month, c.reckoning.daysInMonth l.year l.month⟩ ↔ ¬c.IsCutOff l .month := by
  obtain ⟨hm, hle, hday, hlast⟩ := hasDate_iff.1 hl
  unfold Covers LocalDate.Precedes at hcovers ⊢
  cases c with
  | gregorian =>
    have hcut : ¬gregorian.IsCutOff l .month := by simp [IsCutOff]
    have hdays := Gregorian.daysInMonth_le l.year l.month
    simp only [hcut, not_false_eq_true, iff_true, firstLocal, lastLocal, reckoning] at *
    omega
  | persian =>
    -- The tenth month of the year is the only one with days on both sides of the end.
    have hcut : l.year = 9378 ∧ l.month = 10 →
        persian.reckoning.daysInMonth l.year l.month = 30 := by
      rintro ⟨hyear, hmonth⟩
      rw [hyear, hmonth]
      decide
    simp only [firstLocal, lastLocal, IsCutOff, true_and] at hcovers ⊢
    omega

theorem covers_of_lastDayOf_year (h : c.lastDayOf d .year = .ok e) : c.Covers ⟨c.yearAt d, 12, 1⟩ := by
  obtain ⟨l, hl, h⟩ := bind_eq_ok_iff.1 (orRefuse_eq_ok_iff.1 h)
  obtain ⟨-, rfl⟩ := toLocal_eq_ok_iff.1 hl
  rw [monthsInYear_eq] at h
  obtain ⟨k, hk, -⟩ := bind_eq_ok_iff.1 h
  obtain ⟨first, hfirst, hk⟩ := bind_eq_ok_iff.1 hk
  obtain ⟨l, hl, -⟩ := bind_eq_ok_iff.1 hk
  have hcovers := (c.isConvertible_iff_covers first).1 (toLocal_eq_ok_iff.1 hl).1
  rwa [localDate_of_ofLocal hfirst] at hcovers

/-- The end of a month or a year can be converted unless the period is cut off. -/
theorem isConvertible_lastDayOf_iff (hp : p ≠ .week) (h : c.lastDayOf d p = .ok e) :
    e.IsConvertible ↔ ¬c.IsCutOff (c.reckoning.localDate d.dayNumber) p := by
  obtain ⟨hd, hname⟩ := of_lastDayOf hp h
  rw [c.isConvertible_iff_covers] at hd ⊢
  rw [hname]
  cases p with
  | week => exact absurd rfl hp
  | month => exact covers_lastOfMonth_iff (c.lawful.hasDate_localDate _) hd
  | year =>
    have hfirst : c.reckoning.HasDate ⟨c.yearAt d, 12, 1⟩ :=
      hasDate_iff.2 ⟨Nat.le_add_left 1 11, Nat.le_refl 12, Nat.le_refl 1,
        c.daysInMonth_pos _ (Nat.le_add_left 1 11) (Nat.le_refl 12)⟩
    have hmonth : ¬c.IsCutOff ⟨c.yearAt d, 12, 1⟩ .month := fun hcut => nomatch hcut.2.2.2
    refine iff_of_true ?_ fun hcut => nomatch hcut.1
    exact (covers_lastOfMonth_iff hfirst (covers_of_lastDayOf_year h)).2 hmonth

/-! ### The end as an instant -/

theorem samePeriod_of_le_lastDayOf (h : c.lastDayOf d p = .ok e) (hlow : d.dayNumber ≤ x.dayNumber)
    (hhigh : x.dayNumber ≤ e.dayNumber) : c.SamePeriod d x p := by
  by_cases hp : p = .week
  · subst hp
    intro y hdy hyx
    rw [Int.min_eq_left hlow] at hdy
    rw [Int.max_eq_right hlow] at hyx
    exact weekday_ne_of_lastDayOf h hdy (Int.le_trans hyx hhigh)
  · exact samePeriod_of_le hp (samePeriod_lastDayOf hp h) hlow hhigh

theorem exists_next (h : c.lastDayOf d p = .ok e) :
    ∃ x, e.addDays? 1 = some x ∧ c.BeginsNext d x p := by
  have hinside : ∃ x : Date, x.dayNumber = e.dayNumber + 1 ∧ c.BeginsNext d x p := by
    by_cases hp : p = .week
    · subst hp
      exact exists_next_week h
    · have hlow := e.firstDay_le
      have hlast := lt_lastDay_of_lastDayOf hp h
      exact ⟨⟨e.dayNumber + 1, by omega, by omega⟩, rfl, beginsNext_of_lastDayOf hp h rfl⟩
  obtain ⟨x, hx, hnext⟩ := hinside
  exact ⟨x, by rw [Date.addDays?, ← hx, x.ofDayNumber?_dayNumber], hnext⟩

theorem le_endOfPeriod (h : c.lastDayOf d p = .ok e) : d.dayNumber ≤ e.dayNumber := by
  by_cases hp : p = .week
  · subst hp
    exact (lastDayOf_week_eq_ok_iff.1 h).1
  · exact le_lastDayOf hp h

theorem isEndOf_of_lastDayOf (h : c.lastDayOf now.date p = .ok e) :
    c.IsEndOf p now ⟨e, .endOfDay⟩ where
  clock := ⟨rfl, rfl, rfl, rfl⟩
  le := le_endOfPeriod h
  samePeriod _ hlow hhigh := samePeriod_of_le_lastDayOf h hlow hhigh
  next := exists_next h

theorem lastDayOf_eq_of_samePeriod (h : c.lastDayOf d p = .ok e) (hsame : c.SamePeriod d x p)
    (hx : p = .week ∨ x.IsConvertible) : c.lastDayOf x p = .ok e := by
  by_cases hp : p = .week
  · subst hp
    exact lastDayOf_week_congr h hsame
  · rw [← h]
    refine lastDayOf_congr hp (hx.resolve_left hp) (of_lastDayOf hp h).1 ?_ ?_
    · cases p with
      | week => exact absurd rfl hp
      | month => exact hsame.1
      | year => exact hsame
    · rintro rfl
      exact hsame.2

/-- The end of a period is its own end unless the period is cut off. -/
theorem lastDayOf_self_iff (h : c.lastDayOf d p = .ok e) :
    c.lastDayOf e p = .ok e ↔ ¬c.IsCutOff (c.reckoning.localDate d.dayNumber) p := by
  have hsame := samePeriod_of_le_lastDayOf h (le_endOfPeriod h) (Int.le_refl _)
  by_cases hp : p = .week
  · subst hp
    exact iff_of_true (lastDayOf_week_congr h hsame) fun hcut => nomatch hcut.1
  · rw [← isConvertible_lastDayOf_iff hp h]
    constructor
    · intro hself
      exact (of_lastDayOf hp hself).1
    · intro he
      exact lastDayOf_eq_of_samePeriod h hsame (.inr he)

/-- The end of a period is its last millisecond. All instants of the period that have an end have
this one, and for a month or a year they do if their days can be converted. The end is its own end
unless the period is cut off. -/
theorem endOf_isEndOf (h : c.endOf now p = .ok t) :
    c.IsEndOf p now t ∧
      (∀ other : Instant, c.SamePeriod now.date other.date p →
        (∀ u, c.endOf other p = .ok u → u = t) ∧
          (p = .week ∨ other.date.IsConvertible → c.endOf other p = .ok t)) ∧
      (c.endOf t p = .ok t ↔ ¬c.IsCutOff (c.reckoning.localDate now.date.dayNumber) p) := by
  obtain ⟨e, hlast, rfl⟩ := endOf_eq_ok_iff.1 h
  have hcongr (other : Instant) (hsame : c.SamePeriod now.date other.date p)
      (hother : p = .week ∨ other.date.IsConvertible) : c.endOf other p = .ok ⟨e, .endOfDay⟩ :=
    endOf_eq_ok_iff.2 ⟨e, lastDayOf_eq_of_samePeriod hlast hsame hother, rfl⟩
  refine ⟨isEndOf_of_lastDayOf hlast, fun other hsame => ⟨fun u hu => ?_, hcongr other hsame⟩, ?_⟩
  · -- An instant that has an end has a day that can be converted.
    obtain ⟨e', hlast', -⟩ := endOf_eq_ok_iff.1 hu
    have hother : p = .week ∨ other.date.IsConvertible :=
      or_iff_not_imp_left.2 fun hp => (of_lastDayOf hp hlast').1
    rw [hcongr other hsame hother] at hu
    exact (Except.ok.inj hu).symm
  · rw [← lastDayOf_self_iff hlast, endOf_eq_ok_iff]
    constructor
    · rintro ⟨e', hself, heq⟩
      obtain rfl : e' = e := congrArg Instant.date heq
      exact hself
    · intro hself
      exact ⟨e, hself, rfl⟩

/-- The Persian year 9378 has no end, as its last month begins behind the days that can be
converted. -/
theorem yearAt_ne_of_endOf_year (h : persian.endOf now .year = .ok t) :
    persian.yearAt now.date ≠ 9378 := by
  obtain ⟨e, hlast, -⟩ := endOf_eq_ok_iff.1 h
  intro hyear
  have hcovers := (covers_of_lastDayOf_year hlast).2
  rw [hyear] at hcovers
  exact hcovers (by decide)

/-- The Persian month of 1 March 2025 ends on 30 Esfand 1403, a leap day. -/
theorem isEndOf_leapDay :
    let inMarch : Instant := ⟨⟨739311, by decide, by decide⟩, .midnight⟩
    let leapDay : Instant := ⟨⟨739330, by decide, by decide⟩, .endOfDay⟩
    persian.IsEndOf .month inMarch leapDay ∧ persian.endOf leapDay .month = .ok leapDay := by
  intro inMarch leapDay
  have hend : persian.endOf inMarch .month = .ok leapDay := by decide +kernel
  obtain ⟨hisEnd, -, hself⟩ := endOf_isEndOf hend
  have hyear : (persian.reckoning.localDate inMarch.date.dayNumber).year = 1403 := by decide +kernel
  refine ⟨hisEnd, hself.2 ?_⟩
  rintro ⟨-, -, hcut, -⟩
  rw [hyear] at hcut
  exact absurd hcut (by decide)

/-- 31 December 9999 lies in a Persian month that ends on 20 January 10000, a day that cannot be
converted and so has no end of its own. -/
theorem endOf_cutOff :
    let now : Instant := ⟨⟨3652059, by decide, by decide⟩, .midnight⟩
    let t : Instant := ⟨⟨3652079, by decide, by decide⟩, .endOfDay⟩
    persian.endOf now .month = .ok t ∧
      persian.endOf t .month = .error (.refused (.calendar (.outside t.date))) ∧
      persian.endOf t .month ≠ persian.endOf now .month := by
  intro now t
  have hnow : persian.endOf now .month = .ok t := by decide +kernel
  have hself : persian.endOf t .month = .error (.refused (.calendar (.outside t.date))) := by
    decide +kernel
  refine ⟨hnow, hself, ?_⟩
  rw [hnow, hself]
  nofun

end CasualDate.Calendar
