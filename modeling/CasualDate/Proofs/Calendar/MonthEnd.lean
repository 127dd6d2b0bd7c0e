import CasualDate.Proofs.Calendar.Local

/-!
# The last day of a Gregorian month

It is counted as the day before the first of the next month, which begins where the days of the
month end (`Lawful.dayNumber_nextMonth`). So it is the length of the month, for every month of
the range but the last, which no first of a month follows (`lastDayOfMonth_eq`). There alone the
count goes wrong: the month is refused, as if it were none (`measuresMonth_iff`).
-/

namespace CasualDate

namespace Reckoning

variable {r : Reckoning} {y : Int} {m : Nat}

theorem totalDays_take_succ (lengths : List Nat) (k : Nat) :
    totalDays (lengths.take (k + 1)) = totalDays (lengths.take k) + lengths.getD k 0 := by
  induction lengths generalizing k with
  | nil => simp [totalDays]
  | cons len lengths ih =>
    cases k with
    | zero => simp [totalDays]
    | succ k =>
      rw [List.take_succ_cons, List.take_succ_cons, totalDays, totalDays, ih, List.getD_cons_succ]
      omega

/-- The first of the month after a month of a year. -/
def nextMonth (r : Reckoning) (y : Int) (m : Nat) : LocalDate :=
  if m < r.monthsInYear y then ⟨y, m + 1, 1⟩ else ⟨y + 1, 1, 1⟩

theorem Lawful.dayNumber_nextMonth (h : r.Lawful) (hm : 1 ≤ m) (hle : m ≤ r.monthsInYear y)
    (hpos : 1 ≤ r.daysInMonth y m) :
    r.dayNumber (r.nextMonth y m) = r.dayNumber ⟨y, m, r.daysInMonth y m⟩ + 1 := by
  obtain ⟨k, rfl⟩ := Nat.exists_eq_add_of_le' hm
  have hdays : r.daysInMonth y (k + 1) = (r.monthLengths y).getD k 0 := by
    rw [daysInMonth, if_neg (Nat.succ_ne_zero k), Nat.add_sub_cancel]
  have htake := totalDays_take_succ (r.monthLengths y) k
  unfold nextMonth
  split
  · simp only [dayNumber, Nat.add_sub_cancel]
    omega
  · next hlast =>
    have hlength : (r.monthLengths y).length = k + 1 := by
      unfold monthsInYear at hle hlast
      omega
    rw [← hlength, List.take_length] at htake
    have := h.newYear_add_totalDays y
    simp only [dayNumber, Nat.add_sub_cancel, Nat.sub_self, List.take_zero, totalDays]
    omega

end Reckoning

namespace Gregorian

variable {y : Int} {m : Nat}

theorem daysInMonth_pos (y : Int) (hm : 1 ≤ m) (hle : m ≤ 12) : 1 ≤ gregorian.daysInMonth y m :=
  Calendar.gregorian.daysInMonth_pos y hm hle

theorem hasDate_nextMonth (y : Int) (m : Nat) : gregorian.HasDate (gregorian.nextMonth y m) := by
  unfold Reckoning.nextMonth
  split
  · next hlt =>
    exact ⟨Nat.le_add_left 1 m, hlt, Nat.le_refl 1, daysInMonth_pos y (Nat.le_add_left 1 m) hlt⟩
  · exact ⟨Nat.le_refl 1, Nat.le_add_left 1 11, Nat.le_refl 1,
      daysInMonth_pos (y + 1) (Nat.le_refl 1) (Nat.le_add_left 1 11)⟩

end Gregorian

/-- The number of days of the month in a year: February has 29 in every fourth year, except the
centuries that 400 does not divide. -/
def Month.days (m : Month) (y : Nat) : Nat :=
  match m with
  | february => if y % 4 = 0 ∧ (y % 100 ≠ 0 ∨ y % 400 = 0) then 29 else 28
  | april | june | september | november => 30
  | _ => 31

theorem Gregorian.daysInMonth_number (m : Month) (y : Nat) :
    gregorian.daysInMonth y m.number = m.days y := by
  cases m with
  | february =>
    have hleap : Gregorian.isLeap y = true ↔ y % 4 = 0 ∧ (y % 100 ≠ 0 ∨ y % 400 = 0) := by
      simp [Gregorian.isLeap]
      omega
    simp [Reckoning.daysInMonth, gregorian, Gregorian.monthLengths, Month.number, Month.days, hleap]
  | _ => rfl

namespace Month

variable {n : Nat}

theorem hasDate_of_le (m : Month) (y : Int) (hn : 1 ≤ n) (hle : n ≤ 28) :
    gregorian.HasDate ⟨y, m.number, n⟩ := by
  cases m with
  | february =>
    have hdays : n ≤ if Gregorian.isLeap y then 29 else 28 := by split <;> omega
    simpa [Reckoning.HasDate, Reckoning.monthsInYear, Reckoning.daysInMonth,
      gregorian, Gregorian.monthLengths, number, hn] using hdays
  | _ =>
    simp [Reckoning.HasDate, Reckoning.monthsInYear, Reckoning.daysInMonth,
      gregorian, Gregorian.monthLengths, number, hn]
    omega

theorem hasDate_days (m : Month) (y : Nat) : gregorian.HasDate ⟨y, m.number, m.days y⟩ := by
  obtain ⟨hm, hle, hone, hday⟩ := m.hasDate_of_le y (n := 1) (by decide) (by decide)
  rw [Gregorian.daysInMonth_number] at hday
  exact ⟨hm, hle, hday, (Gregorian.daysInMonth_number m y).ge⟩

end Month

namespace Date

variable {d : Date}

theorem ofCivil?_of_hasDate {l : LocalDate} (h : gregorian.HasDate l) :
    ofCivil? l.year l.month l.day = ofDayNumber? (gregorian.dayNumber l) :=
  if_pos h

theorem addMonths?_one (h : d.day = 1) : d.addMonths? 1 =
    ofDayNumber? (gregorian.dayNumber (gregorian.nextMonth d.year d.month)) := by
  have hpos := d.month_pos
  have hle := d.month_le
  rw [← ofCivil?_of_hasDate (Gregorian.hasDate_nextMonth d.year d.month)]
  rcases Nat.lt_or_ge d.month 12 with hlt | hge
  · have hnext : gregorian.nextMonth d.year d.month = ⟨d.year, d.month + 1, 1⟩ := if_pos hlt
    have hyear : (12 * d.year + (d.month - 1 : Nat) + 1) / 12 = d.year := by omega
    have hmonth : ((12 * d.year + (d.month - 1 : Nat) + 1) % 12).toNat + 1 = d.month + 1 := by omega
    simp only [addMonths?, hyear, hmonth, hnext, h]
    rw [Nat.min_eq_left (Gregorian.daysInMonth_pos d.year (Nat.le_add_left 1 d.month) hlt)]
  · have hnext : gregorian.nextMonth d.year d.month = ⟨d.year + 1, 1, 1⟩ :=
      if_neg (Nat.not_lt.2 hge)
    have hyear : (12 * d.year + (d.month - 1 : Nat) + 1) / 12 = d.year + 1 := by omega
    have hmonth : ((12 * d.year + (d.month - 1 : Nat) + 1) % 12).toNat + 1 = 1 := by omega
    simp only [addMonths?, hyear, hmonth, hnext, h]
    rw [Nat.min_eq_left (Gregorian.daysInMonth_pos (d.year + 1) (Nat.le_refl 1) (by decide))]

theorem exists_lastOfMonth (d : Date) : ∃ last,
    ofCivil? d.year d.month (gregorian.daysInMonth d.year d.month) = some last ∧
      last.dayNumber + 1 = gregorian.dayNumber (gregorian.nextMonth d.year d.month) := by
  have hdays := Gregorian.daysInMonth_pos d.year d.month_pos d.month_le
  obtain ⟨last, hlast⟩ : ∃ last,
      ofCivil? d.year d.month (gregorian.daysInMonth d.year d.month) = some last :=
    Option.isSome_iff_exists.1
      (d.isSome_ofCivil?_iff.2 ⟨d.month_pos, d.month_le, hdays, Nat.le_refl _⟩)
  have hcivil : last.civil = ⟨d.year, d.month, gregorian.daysInMonth d.year d.month⟩ :=
    civil_eq_iff.2 (ofCivil?_eq_some_iff.1 hlast)
  refine ⟨last, hlast, ?_⟩
  rw [gregorian_lawful.dayNumber_nextMonth d.month_pos d.month_le hdays, ← hcivil,
    last.dayNumber_civil]

/-- The first of the month after a month of the range lies in it, unless it was the last month. -/
theorem exists_firstOfNext {y : Int} {m : Nat} (hlow : -262143 ≤ y) (hhigh : y ≤ 262142)
    (h : y = 262142 → m < 12) :
    ∃ next, ofDayNumber? (gregorian.dayNumber (gregorian.nextMonth y m)) = some next := by
  have hbounds : -262143 ≤ (gregorian.nextMonth y m).year ∧
      (gregorian.nextMonth y m).year ≤ 262142 := by
    unfold Reckoning.nextMonth
    split
    · exact ⟨hlow, hhigh⟩
    · next hlast =>
      have hinside : y ≠ 262142 := fun hy => hlast (h hy)
      exact ⟨by dsimp only; omega, by dsimp only; omega⟩
  have hname := Gregorian.hasDate_nextMonth y m
  rw [← ofCivil?_of_hasDate hname]
  exact exists_ofCivil? hbounds.1 hbounds.2 hname

/-- The last day of the month of a date is the length of the month, unless no month follows it. -/
theorem lastDayOfMonth_eq (h : d.year = 262142 → d.month < 12) :
    lastDayOfMonth d.year d.month = .ok (gregorian.daysInMonth d.year d.month) := by
  have hdays := Gregorian.daysInMonth_pos d.year d.month_pos d.month_le
  obtain ⟨first, hfirst⟩ : ∃ first, ofCivil? d.year d.month 1 = some first :=
    Option.isSome_iff_exists.1
      (d.isSome_ofCivil?_iff.2 ⟨d.month_pos, d.month_le, Nat.le_refl 1, hdays⟩)
  obtain ⟨hyear, hmonth, hday⟩ := ofCivil?_eq_some_iff.1 hfirst
  obtain ⟨last, hlast, hnumber⟩ := d.exists_lastOfMonth
  obtain ⟨-, -, hlastDay⟩ := ofCivil?_eq_some_iff.1 hlast
  obtain ⟨next, hnext⟩ := exists_firstOfNext d.neg_le_year d.year_le h
  have hadd : first.addMonths? 1 = some next := by
    rw [addMonths?_one hday, hyear, hmonth, hnext]
  have hback : next.addDays? (-1) = some last := by
    rw [addDays?, dayNumber_ofDayNumber? hnext, ← hnumber, Int.add_neg_cancel_right,
      ofDayNumber?_dayNumber]
  simp only [lastDayOfMonth, hfirst, hadd, hback, Option.bind_eq_bind, Option.bind_some, hlastDay]

end Date

/-! ### Which months are measured -/

/-- The month has the day and not the one after it. -/
structure IsLastOfMonth (year : Int) (month day : Nat) : Prop where
  isSome : (Date.ofCivil? year month day).isSome = true
  eq_none : Date.ofCivil? year month (day + 1) = none

/-- The month is answered by the number of its last day if its first day is a date, and refused if
not. -/
structure MeasuresMonth (year : Int) (month : Nat) : Prop where
  answers : (Date.ofCivil? year month 1).isSome = true →
    ∃ day, lastDayOfMonth year month = .ok day ∧ IsLastOfMonth year month day
  refuses : Date.ofCivil? year month 1 = none →
    lastDayOfMonth year month = .error (.invalidDate (.yearMonth year month))

theorem Date.isLastOfMonth (d : Date) :
    IsLastOfMonth d.year d.month (gregorian.daysInMonth d.year d.month) := by
  obtain ⟨last, hlast, -⟩ := d.exists_lastOfMonth
  refine ⟨Option.isSome_iff_exists.2 ⟨last, hlast⟩, ?_⟩
  have hno : ¬gregorian.HasDate ⟨d.year, d.month, gregorian.daysInMonth d.year d.month + 1⟩ :=
    fun hdate => Nat.not_succ_le_self _ hdate.2.2.2
  rw [ofCivil?, if_neg hno]

/-- Every month is measured, whether there is one or not, but the last month of the range. -/
theorem measuresMonth_iff (year : Int) (month : Nat) :
    MeasuresMonth year month ↔ ¬(year = 262142 ∧ month = 12) := by
  constructor
  · rintro h ⟨rfl, rfl⟩
    obtain ⟨day, hday, -⟩ := h.answers (by decide +kernel)
    have hrefused : lastDayOfMonth 262142 12 = .error (.invalidDate (.yearMonth 262142 12)) := by
      decide +kernel
    rw [hrefused] at hday
    cases hday
  · intro hinside
    refine ⟨fun hfirst => ?_, fun hnone => by rw [lastDayOfMonth, hnone]; rfl⟩
    obtain ⟨first, hfirst⟩ := Option.isSome_iff_exists.1 hfirst
    obtain ⟨rfl, rfl, -⟩ := Date.ofCivil?_eq_some_iff.1 hfirst
    have hmonth := first.month_le
    exact ⟨_, Date.lastDayOfMonth_eq fun hyear => by omega, first.isLastOfMonth⟩

/-- The last day of the range is the last of its month, and the month is refused. -/
theorem lastDayOfMonth_lastMonth :
    (Date.ofCivil? 262142 12 1).isSome = true ∧ IsLastOfMonth 262142 12 31 ∧
      lastDayOfMonth 262142 12 = .error (.invalidDate (.yearMonth 262142 12)) :=
  ⟨by decide +kernel, ⟨by decide +kernel, by decide +kernel⟩, by decide +kernel⟩

end CasualDate
