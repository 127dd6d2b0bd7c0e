import CasualDate.Proofs.Calendar.MonthEnd
import CasualDate.Proofs.Calendar.RoundTrip
import CasualDate.Calendar.Period
import CasualDate.Proofs.Error.Answers

/-!
# One period on

A step leads into the period that begins on the day after the end of the one before it
(`addOne_intoNext`). A step of a month or a year leads into a month that the calendar has, to the day
with the same number or the last one (`StepsInto`); all else follows from the order in which days
are named. A week is counted in days.
-/

namespace CasualDate.Calendar

open Reckoning

variable {c : Calendar} {d e d' e' x y : Date} {l l' first first' : LocalDate} {now n t : Instant}
  {p : Period} {k : Nat}

/-! ### Months that are stepped into -/

theorem daysInMonth_of_eq_ok {y : Int} {m : Nat} (h : c.daysInMonth y m = .ok k) :
    k = c.reckoning.daysInMonth y m := by
  unfold daysInMonth at h
  obtain ⟨d, hfirst, h⟩ := bind_eq_ok_iff.1 h
  obtain ⟨l, hlocal, h⟩ := bind_eq_ok_iff.1 h
  obtain rfl : l = ⟨y, m, 1⟩ := by
    rw [← (toLocal_eq_ok_iff.1 hlocal).2, localDate_of_ofLocal hfirst]
  cases h
  rfl

/-- The date is in the month that begins on `first`, on the day with the number of the day of `l`
or, if there is none, on the last one. -/
structure StepsInto (c : Calendar) (l first : LocalDate) (e : Date) : Prop where
  day_eq_one : first.day = 1
  localDate_eq : c.reckoning.localDate e.dayNumber =
    ⟨first.year, first.month, min l.day (c.reckoning.daysInMonth first.year first.month)⟩

theorem stepsInto_of_clamped (h : c.clamped ⟨first.year, first.month, l.day⟩ = .ok e)
    (hone : first.day = 1) : c.StepsInto l first e := by
  unfold clamped at h
  obtain ⟨k, hk, h⟩ := bind_eq_ok_iff.1 h
  obtain rfl := daysInMonth_of_eq_ok hk
  exact ⟨hone, localDate_of_ofLocal h⟩

/-- The first of the month that a step of a month or a year leads into. -/
def stepped (c : Calendar) (l : LocalDate) : Period → LocalDate
  | .week => l
  | .month => c.reckoning.nextMonth l.year l.month
  | .year => ⟨l.year + 1, l.month, 1⟩

theorem stepsInto_of_dateOneOn (hp : p ≠ .week) (h : c.dateOneOn d p = .ok e) :
    d.IsConvertible ∧
      c.StepsInto (c.reckoning.localDate d.dayNumber)
        (c.stepped (c.reckoning.localDate d.dayNumber) p) e := by
  cases p with
  | week => exact absurd rfl hp
  | month =>
    obtain ⟨l, hl, h⟩ := bind_eq_ok_iff.1 (orRefuse_eq_ok_iff.1 h)
    obtain ⟨hd, rfl⟩ := toLocal_eq_ok_iff.1 hl
    refine ⟨hd, ?_⟩
    unfold stepped nextMonth
    rw [monthsInYear_eq] at h ⊢
    split at h
    · next hle => rw [if_neg (by omega)]; exact stepsInto_of_clamped h rfl
    · next hlt => rw [if_pos (by omega)]; exact stepsInto_of_clamped h rfl
  | year =>
    obtain ⟨l, hl, h⟩ := bind_eq_ok_iff.1 (orRefuse_eq_ok_iff.1 h)
    obtain ⟨hd, rfl⟩ := toLocal_eq_ok_iff.1 hl
    refine ⟨hd, ?_⟩
    unfold stepped
    exact stepsInto_of_clamped h rfl

theorem StepsInto.dayNumber_le (h : c.StepsInto l first e) :
    c.reckoning.dayNumber first ≤ e.dayNumber := by
  rw [← c.lawful.dayNumber_localDate e.dayNumber, h.localDate_eq]
  have hone := h.day_eq_one
  unfold dayNumber
  dsimp only
  omega

/-- A step into a later month leads to a later day, and a step into the same month from a later day
of the month to no earlier one. -/
theorem StepsInto.mono (h : c.StepsInto l first e) (h' : c.StepsInto l' first' e')
    (hle : first.Precedes first' ∨ first = first' ∧ l.day ≤ l'.day) :
    e.dayNumber ≤ e'.dayNumber := by
  rw [← Int.not_lt, c.lt_iff_precedes, h.localDate_eq, h'.localDate_eq]
  have hone := h.day_eq_one
  have hone' := h'.day_eq_one
  rcases hle with hlt | ⟨rfl, hday⟩
  · unfold LocalDate.Precedes at hlt ⊢
    dsimp only
    omega
  · unfold LocalDate.Precedes
    dsimp only
    omega

theorem stepped_le (hp : p ≠ .week) (hl : l.month ≤ 12) (hpos : 1 ≤ l'.month)
    (hl' : l'.month ≤ 12) (hle : ¬l'.Precedes l) : (c.stepped l p).Precedes (c.stepped l' p) ∨
      c.stepped l p = c.stepped l' p ∧ l.day ≤ l'.day := by
  unfold LocalDate.Precedes at hle
  cases p with
  | week => exact absurd rfl hp
  | month =>
    simp only [stepped, nextMonth, monthsInYear_eq]
    split <;> split <;> simp only [LocalDate.Precedes, LocalDate.mk.injEq, true_and, and_true] <;> omega
  | year =>
    simp only [stepped, LocalDate.Precedes, LocalDate.mk.injEq, and_true]
    omega

/-! ### Ends of periods -/

/-- The last month of the period of a month or a year. -/
def lastMonth (l : LocalDate) : Period → Nat
  | .week | .month => l.month
  | .year => 12

theorem of_lastDayOf (hp : p ≠ .week) (h : c.lastDayOf d p = .ok e) :
    d.IsConvertible ∧ c.reckoning.localDate e.dayNumber =
      ⟨(c.reckoning.localDate d.dayNumber).year, lastMonth (c.reckoning.localDate d.dayNumber) p,
        c.reckoning.daysInMonth (c.reckoning.localDate d.dayNumber).year
          (lastMonth (c.reckoning.localDate d.dayNumber) p)⟩ := by
  cases p with
  | week => exact absurd rfl hp
  | month =>
    obtain ⟨l, hl, h⟩ := bind_eq_ok_iff.1 (orRefuse_eq_ok_iff.1 h)
    obtain ⟨hd, rfl⟩ := toLocal_eq_ok_iff.1 hl
    exact ⟨hd, localDate_of_ofLocal h⟩
  | year =>
    obtain ⟨l, hl, h⟩ := bind_eq_ok_iff.1 (orRefuse_eq_ok_iff.1 h)
    obtain ⟨hd, rfl⟩ := toLocal_eq_ok_iff.1 hl
    rw [monthsInYear_eq] at h
    obtain ⟨k, hk, h⟩ := bind_eq_ok_iff.1 h
    obtain rfl := daysInMonth_of_eq_ok hk
    exact ⟨hd, localDate_of_ofLocal h⟩

theorem le_lastDayOf (hp : p ≠ .week) (h : c.lastDayOf d p = .ok e) : d.dayNumber ≤ e.dayNumber := by
  obtain ⟨-, hle, -, hday⟩ := hasDate_iff.1 (c.lawful.hasDate_localDate d.dayNumber)
  rw [← Int.not_lt, c.lt_iff_precedes, (of_lastDayOf hp h).2]
  unfold LocalDate.Precedes
  cases p with
  | week => exact absurd rfl hp
  | month =>
    dsimp only [lastMonth]
    omega
  | year =>
    dsimp only [lastMonth]
    rintro (hyear | ⟨-, hmonth | ⟨hmonth, hlast⟩⟩)
    · exact Int.lt_irrefl _ hyear
    · omega
    · rw [hmonth] at hlast
      omega

/-- The period after a day's own begins on the day after its last one. -/
theorem dayNumber_of_lastDayOf (hp : p ≠ .week) (h : c.lastDayOf d p = .ok e) :
    e.dayNumber + 1 = c.reckoning.dayNumber (c.reckoning.nextMonth
      (c.reckoning.localDate d.dayNumber).year (lastMonth (c.reckoning.localDate d.dayNumber) p)) := by
  obtain ⟨hm, hle, -, -⟩ := hasDate_iff.1 (c.lawful.hasDate_localDate d.dayNumber)
  have hpos : 1 ≤ lastMonth (c.reckoning.localDate d.dayNumber) p := by
    cases p <;> first | exact hm | exact Nat.le_add_left 1 11
  have hlast : lastMonth (c.reckoning.localDate d.dayNumber) p ≤ 12 := by
    cases p <;> first | exact hle | exact Nat.le_refl 12
  rw [c.lawful.dayNumber_nextMonth hpos (by rwa [monthsInYear_eq]) (c.daysInMonth_pos _ hpos hlast),
    ← (of_lastDayOf hp h).2, c.lawful.dayNumber_localDate]

/-- The period that a step leads into does not end before the month stepped into. -/
theorem dayNumber_nextMonth_le_stepped (hp : p ≠ .week) : c.reckoning.dayNumber
      (c.reckoning.nextMonth l.year (lastMonth l p)) ≤ c.reckoning.dayNumber (c.stepped l p) := by
  cases p with
  | week => exact absurd rfl hp
  | month => exact Int.le_refl _
  | year =>
    simp only [lastMonth, nextMonth, monthsInYear_eq, Nat.lt_irrefl, if_false, stepped, dayNumber,
      Nat.sub_self, List.take_zero, totalDays]
    omega

theorem hasDate_nextMonth (c : Calendar) (y : Int) (m : Nat) :
    c.reckoning.HasDate (c.reckoning.nextMonth y m) := by
  rw [hasDate_iff]
  unfold nextMonth
  rw [monthsInYear_eq]
  split
  · next hlt =>
    have hpos := Nat.le_add_left 1 m
    exact ⟨hpos, hlt, Nat.le_refl 1, c.daysInMonth_pos y hpos hlt⟩
  · have hle := Nat.le_add_left 1 11
    exact ⟨Nat.le_refl 1, hle, Nat.le_refl 1, c.daysInMonth_pos (y + 1) (Nat.le_refl 1) hle⟩

theorem lastDayOf_congr (hp : p ≠ .week) (hd : d.IsConvertible) (he : e.IsConvertible)
    (hyear : (c.reckoning.localDate d.dayNumber).year = (c.reckoning.localDate e.dayNumber).year)
    (hmonth : p = .month →
      (c.reckoning.localDate d.dayNumber).month = (c.reckoning.localDate e.dayNumber).month) :
    c.lastDayOf d p = c.lastDayOf e p := by
  cases p with
  | week => exact absurd rfl hp
  | month =>
    simp only [lastDayOf, toLocal_eq hd, toLocal_eq he, bind, Except.bind, hyear, hmonth rfl]
  | year =>
    simp only [lastDayOf, toLocal_eq hd, toLocal_eq he, bind, Except.bind, hyear, monthsInYear_eq]

/-- The last day of a week is the only one of the day's own kind in the seven days from it on. -/
theorem lastDayOf_week_eq_ok_iff : c.lastDayOf d .week = .ok e ↔
    d.dayNumber ≤ e.dayNumber ∧ e.dayNumber < d.dayNumber + 7 ∧ e.weekday = c.weekStart.pred := by
  have hd := d.index_weekday
  have hlt := c.weekStart.pred.index_lt
  rw [lastDayOf, orOffCalendar_eq_ok_iff, Date.weekday_eq_iff, Date.addDays?, Weekday.daysUntil]
  constructor
  · intro h
    have := Date.dayNumber_ofDayNumber? h
    omega
  · rintro ⟨hlow, hhigh, hend⟩
    rw [← e.ofDayNumber?_dayNumber]
    congr 1
    omega

theorem dateOneOn_week_eq_ok_iff :
    c.dateOneOn d .week = .ok e ↔ e.dayNumber = d.dayNumber + 7 := by
  rw [dateOneOn, orOffCalendar_eq_ok_iff, Date.addDays?]
  constructor
  · exact Date.dayNumber_ofDayNumber?
  · intro h
    rw [← h, e.ofDayNumber?_dayNumber]

/-! ### A step and the end of the period -/

theorem endOf_eq_ok_iff :
    c.endOf now p = .ok t ↔ ∃ e, c.lastDayOf now.date p = .ok e ∧ ⟨e, .endOfDay⟩ = t := by
  rw [endOf, bind_eq_ok_iff]
  simp [pure, Except.pure]

theorem addOne_eq_ok_iff :
    c.addOne now p = .ok t ↔ ∃ e, c.dateOneOn now.date p = .ok e ∧ ⟨e, now.time⟩ = t := by
  rw [addOne, bind_eq_ok_iff]
  simp [pure, Except.pure]

theorem lastDayOf_lt (hend : c.lastDayOf d p = .ok e) (hstep : c.dateOneOn d p = .ok x) :
    e.dayNumber < x.dayNumber := by
  by_cases hp : p = .week
  · subst hp
    have := lastDayOf_week_eq_ok_iff.1 hend
    have := dateOneOn_week_eq_ok_iff.1 hstep
    omega
  · have := dayNumber_of_lastDayOf hp hend
    have := dayNumber_nextMonth_le_stepped (c := c) (l := c.reckoning.localDate d.dayNumber) hp
    have := (stepsInto_of_dateOneOn hp hstep).2.dayNumber_le
    omega

/-- The day after the end of a period ends with the day that a step leads to. -/
theorem lastDayOf_next (hend : c.lastDayOf d p = .ok e) (hstep : c.dateOneOn d p = .ok x)
    (hnext : y.dayNumber = e.dayNumber + 1) (hx : c.lastDayOf x p = .ok e') :
    c.lastDayOf y p = .ok e' := by
  have hlt := lastDayOf_lt hend hstep
  by_cases hp : p = .week
  · subst hp
    obtain ⟨hlow, hhigh, hkind⟩ := lastDayOf_week_eq_ok_iff.1 hend
    obtain ⟨hlow', hhigh', hkind'⟩ := lastDayOf_week_eq_ok_iff.1 hx
    have := dateOneOn_week_eq_ok_iff.1 hstep
    refine lastDayOf_week_eq_ok_iff.2 ⟨?_, ?_, hkind'⟩ <;>
    · rw [Date.weekday_eq_iff] at hkind hkind'
      omega
  · obtain ⟨hd, hstepped⟩ := stepsInto_of_dateOneOn hp hstep
    have hxconv := (of_lastDayOf hp hx).1
    have hle := le_lastDayOf hp hend
    have hyconv : y.IsConvertible := by
      rw [Date.isConvertible_iff] at hd hxconv ⊢
      omega
    have hname : c.reckoning.localDate y.dayNumber = c.reckoning.nextMonth
        (c.reckoning.localDate d.dayNumber).year
        (lastMonth (c.reckoning.localDate d.dayNumber) p) := by
      rw [hnext, dayNumber_of_lastDayOf hp hend, c.lawful.localDate_dayNumber (hasDate_nextMonth ..)]
    rw [← hx]
    refine lastDayOf_congr hp hyconv hxconv ?_ ?_
    · rw [hname, hstepped.localDate_eq]
      cases p with
      | week => exact absurd rfl hp
      | month => rfl
      | year => simp [lastMonth, stepped, nextMonth]
    · rintro rfl
      rw [hname, hstepped.localDate_eq]
      rfl

/-- The date is that day of its month which has the number of the day of `l`, or the month's last day
if there is none. -/
def KeepsDay (c : Calendar) (l m : LocalDate) : Prop :=
  m.day = if c.reckoning.HasDate ⟨m.year, m.month, l.day⟩ then l.day
    else c.reckoning.daysInMonth m.year m.month

theorem StepsInto.keepsDay (h : c.StepsInto l first e) (hl : c.reckoning.HasDate l)
    (hfirst : c.reckoning.HasDate first) :
    c.KeepsDay l (c.reckoning.localDate e.dayNumber) := by
  obtain ⟨-, -, hday, -⟩ := hasDate_iff.1 hl
  obtain ⟨hm, hle, -, -⟩ := hasDate_iff.1 hfirst
  unfold KeepsDay
  rw [h.localDate_eq]
  split
  · next hdate => exact Nat.min_eq_left (hasDate_iff.1 hdate).2.2.2
  · next hno =>
    refine Nat.min_eq_right (Nat.le_of_lt (Nat.not_le.1 fun hlast => hno ?_))
    exact hasDate_iff.2 ⟨hm, hle, hday, hlast⟩

theorem hasDate_stepped (hp : p ≠ .week) (hl : c.reckoning.HasDate l) :
    c.reckoning.HasDate (c.stepped l p) := by
  cases p with
  | week => exact absurd rfl hp
  | month => exact c.hasDate_nextMonth l.year l.month
  | year =>
    obtain ⟨hm, hle, -, -⟩ := hasDate_iff.1 hl
    exact hasDate_iff.2 ⟨hm, hle, Nat.le_refl 1, c.daysInMonth_pos _ hm hle⟩

theorem dateOneOn_mono (hle : d.dayNumber ≤ e.dayNumber) (hd : c.dateOneOn d p = .ok x)
    (he : c.dateOneOn e p = .ok y) : x.dayNumber ≤ y.dayNumber := by
  by_cases hp : p = .week
  · subst hp
    have := dateOneOn_week_eq_ok_iff.1 hd
    have := dateOneOn_week_eq_ok_iff.1 he
    omega
  · obtain ⟨-, hmonth, -, -⟩ := hasDate_iff.1 (c.lawful.hasDate_localDate d.dayNumber)
    obtain ⟨hpos, hmonth', -, -⟩ := hasDate_iff.1 (c.lawful.hasDate_localDate e.dayNumber)
    refine (stepsInto_of_dateOneOn hp hd).2.mono (stepsInto_of_dateOneOn hp he).2 ?_
    refine stepped_le hp hmonth hpos hmonth' ?_
    rw [← c.lt_iff_precedes]
    omega

/-- A step from `now` to `n` over a period that ends on `e` leads into the next one: into the
period of the day after `e`, at the same time of day, and over months and years to the same day of
the month if it has that day. -/
structure IntoNext (c : Calendar) (p : Period) (now e n : Instant) : Prop where
  time_eq : n.time = now.time
  after : e.date.dayNumber < n.date.dayNumber
  endOf_next : ∃ next, e.date.addDays? 1 = some next ∧
    ∀ t, c.endOf n p = .ok t → c.endOf ⟨next, .midnight⟩ p = .ok t
  year_eq : p ≠ .week → (c.reckoning.localDate n.date.dayNumber).year =
    (c.stepped (c.reckoning.localDate now.date.dayNumber) p).year
  month_eq : p ≠ .week → (c.reckoning.localDate n.date.dayNumber).month =
    (c.stepped (c.reckoning.localDate now.date.dayNumber) p).month
  keepsDay : p ≠ .week →
    c.KeepsDay (c.reckoning.localDate now.date.dayNumber) (c.reckoning.localDate n.date.dayNumber)

/-- A step leads into the period after the one that holds the instant, and a step from the same day
or a later one leads to no earlier day. -/
theorem addOne_intoNext (hend : c.endOf now p = .ok t) (hadd : c.addOne now p = .ok n) :
    c.IntoNext p now t n ∧ ∀ later m, now.date.dayNumber ≤ later.date.dayNumber →
      c.addOne later p = .ok m → n.date.dayNumber ≤ m.date.dayNumber := by
  obtain ⟨e, hlast, rfl⟩ := endOf_eq_ok_iff.1 hend
  obtain ⟨x, hstep, rfl⟩ := addOne_eq_ok_iff.1 hadd
  have hlt := lastDayOf_lt hlast hstep
  have hlow := e.firstDay_le
  have hhigh := x.le_lastDay
  obtain ⟨next, hnext⟩ : ∃ next : Date, next.dayNumber = e.dayNumber + 1 :=
    ⟨⟨e.dayNumber + 1, by omega, by omega⟩, rfl⟩
  refine ⟨⟨rfl, hlt, ⟨next, ?_, fun t ht => ?_⟩, fun hp => ?_, fun hp => ?_, fun hp => ?_⟩, ?_⟩
  · rw [Date.addDays?, ← hnext, next.ofDayNumber?_dayNumber]
  · obtain ⟨e', hx, rfl⟩ := endOf_eq_ok_iff.1 ht
    exact endOf_eq_ok_iff.2 ⟨e', lastDayOf_next hlast hstep hnext hx, rfl⟩
  · rw [(stepsInto_of_dateOneOn hp hstep).2.localDate_eq]
  · rw [(stepsInto_of_dateOneOn hp hstep).2.localDate_eq]
  · have hdate := c.lawful.hasDate_localDate now.date.dayNumber
    exact (stepsInto_of_dateOneOn hp hstep).2.keepsDay hdate (hasDate_stepped hp hdate)
  · intro later m hle hm
    obtain ⟨y, hy, rfl⟩ := addOne_eq_ok_iff.1 hm
    exact dateOneOn_mono hle hstep hy

/-- From 30 Esfand 1403, a leap day that ends its year, to 29 Esfand 1404. -/
theorem addOne_intoNext_leapDay :
    let leapDay : Date := ⟨739330, by decide, by decide⟩
    let yearOn : Date := ⟨739695, by decide, by decide⟩
    persian.IntoNext .year ⟨leapDay, .midnight⟩ ⟨leapDay, .endOfDay⟩ ⟨yearOn, .midnight⟩ :=
  (addOne_intoNext (by decide +kernel) (by decide +kernel)).1

end CasualDate.Calendar
