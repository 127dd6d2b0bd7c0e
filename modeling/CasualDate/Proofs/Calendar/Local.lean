import CasualDate.Calendar.Local
import CasualDate.Proofs.Instant.Days
import CasualDate.Proofs.Reckoning.Persian

/-!
# Dates and their local names

In both calendars a year has twelve months and at most 366 days. Conversions fail at the ends of
their ranges only: a local date that the calendar has, in the year of a day or the year after it,
lies within two years of that day (`exists_ofLocal`). Around the days of the Gregorian years 1 to 9990
nothing fails.
-/

namespace CasualDate

/-- The date can be converted to the calendars. -/
def Date.IsConvertible (d : Date) : Prop :=
  -9999 ≤ d.year ∧ d.year ≤ 9999

/-- The date and all dates two years before it and after it can be converted. -/
def Date.IsCentral (d : Date) : Prop :=
  1 ≤ d.year ∧ d.year ≤ 9990

namespace Date

variable {d e : Date}

instance : Decidable d.IsConvertible :=
  inferInstanceAs (Decidable (_ ∧ _))

theorem isConvertible_iff :
    d.IsConvertible ↔
      gregorian.newYear (-9999) ≤ d.dayNumber ∧ d.dayNumber < gregorian.newYear 10000 := by
  rw [← le_year_iff, ← Int.not_le, ← le_year_iff, IsConvertible]
  omega

theorem IsCentral.bounds (h : d.IsCentral) :
    1 ≤ d.dayNumber ∧ d.dayNumber < gregorian.newYear 9991 :=
  ⟨le_year_iff.1 h.1, Int.not_le.1 fun hle => by
    have := le_year_iff.2 hle
    have := h.2
    omega⟩

theorem IsCentral.isConvertible_of_near (h : d.IsCentral) (hlow : d.dayNumber - 800 ≤ e.dayNumber)
    (hhigh : e.dayNumber ≤ d.dayNumber + 800) : e.IsConvertible := by
  obtain ⟨hone, hlast⟩ := h.bounds
  have hbegin : gregorian.newYear (-9999) ≤ -799 := by decide
  have hend : gregorian.newYear 9991 + 800 ≤ gregorian.newYear 10000 := by decide
  exact isConvertible_iff.2 ⟨by omega, by omega⟩

theorem IsCentral.isConvertible (h : d.IsCentral) : d.IsConvertible :=
  h.isConvertible_of_near (by omega) (by omega)

theorem IsCentral.exists_ofDayNumber? {n : Int} (h : d.IsCentral) (hlow : d.dayNumber - 800 ≤ n)
    (hhigh : n ≤ d.dayNumber + 800) : ∃ e, ofDayNumber? n = some e ∧ e.IsConvertible := by
  obtain ⟨hone, hlast⟩ := h.bounds
  have hend : gregorian.newYear 9991 + 800 ≤ lastDay := by decide
  exact ⟨_, ofDayNumber?_eq_some (by unfold firstDay; omega) (by omega),
    h.isConvertible_of_near hlow hhigh⟩

end Date

namespace Calendar

variable {c : Calendar} {d e : Date} {l : LocalDate} {y : Int} {m : Nat}

theorem lawful (c : Calendar) : c.reckoning.Lawful := by
  cases c with
  | gregorian => exact gregorian_lawful
  | persian => exact persian_lawful

@[simp] theorem monthsInYear_eq (c : Calendar) (y : Int) : c.reckoning.monthsInYear y = 12 := by
  cases c <;> rfl

theorem pos_of_mem_monthLengths {len : Nat} (h : len ∈ c.reckoning.monthLengths y) : 1 ≤ len := by
  cases c with
  | gregorian =>
    simp only [reckoning, CasualDate.gregorian, Gregorian.monthLengths, List.mem_cons,
      List.not_mem_nil, or_false] at h
    split at h <;> omega
  | persian =>
    simp only [reckoning, CasualDate.persian, Persian.monthLengths, List.mem_cons,
      List.not_mem_nil, or_false] at h
    split at h <;> omega

theorem le_of_mem_monthLengths {len : Nat} (h : len ∈ c.reckoning.monthLengths y) : len ≤ 31 := by
  cases c with
  | gregorian => exact Gregorian.length_le_of_mem_monthLengths h
  | persian =>
    simp only [reckoning, CasualDate.persian, Persian.monthLengths, List.mem_cons,
      List.not_mem_nil, or_false] at h
    split at h <;> omega

theorem daysInMonth_mem_monthLengths (c : Calendar) (y : Int) (hm : 1 ≤ m) (hle : m ≤ 12) :
    c.reckoning.daysInMonth y m ∈ c.reckoning.monthLengths y := by
  have hlt : m - 1 < (c.reckoning.monthLengths y).length := by
    have := c.monthsInYear_eq y
    unfold Reckoning.monthsInYear at this
    omega
  rw [Reckoning.daysInMonth, if_neg (by omega), List.getD_eq_getElem?_getD,
    List.getElem?_eq_getElem hlt, Option.getD_some]
  exact List.getElem_mem hlt

theorem daysInMonth_pos (c : Calendar) (y : Int) (hm : 1 ≤ m) (hle : m ≤ 12) :
    1 ≤ c.reckoning.daysInMonth y m :=
  pos_of_mem_monthLengths (c.daysInMonth_mem_monthLengths y hm hle)

theorem newYear_succ_le (c : Calendar) (y : Int) :
    c.reckoning.newYear (y + 1) ≤ c.reckoning.newYear y + 366 := by
  have htotal : Reckoning.totalDays (c.reckoning.monthLengths y) ≤ 366 := by
    cases c with
    | gregorian =>
      simp only [reckoning, CasualDate.gregorian, Gregorian.monthLengths, Reckoning.totalDays]
      split <;> decide
    | persian =>
      simp only [reckoning, CasualDate.persian, Persian.monthLengths, Reckoning.totalDays]
      split <;> decide
  have := c.lawful.newYear_add_totalDays y
  omega

theorem toLocal_eq (h : d.IsConvertible) :
    c.toLocal d = .ok (c.reckoning.localDate d.dayNumber) :=
  if_pos h

theorem toLocal_eq_error (h : ¬d.IsConvertible) : c.toLocal d = .error (.calendar (.outside d)) :=
  if_neg h

theorem ofLocal_eq_ok_iff : c.ofLocal l = .ok d ↔
    c.reckoning.HasDate l ∧ d.dayNumber = c.reckoning.dayNumber l := by
  by_cases hl : c.reckoning.HasDate l
  · have hnumber : Date.ofDayNumber? (c.reckoning.dayNumber l) = some d ↔
        d.dayNumber = c.reckoning.dayNumber l :=
      ⟨Date.dayNumber_ofDayNumber?, fun h => h ▸ d.ofDayNumber?_dayNumber⟩
    rw [← hnumber, ofLocal, if_pos hl]
    cases Date.ofDayNumber? (c.reckoning.dayNumber l) <;> simp [hl]
  · rw [ofLocal, if_neg hl]
    simp [hl]

/-- The local date of a day has its month, and another day of this month is a date, too. -/
theorem hasDate_iff : c.reckoning.HasDate l ↔
    1 ≤ l.month ∧ l.month ≤ 12 ∧ 1 ≤ l.day ∧ l.day ≤ c.reckoning.daysInMonth l.year l.month := by
  rw [Reckoning.HasDate, monthsInYear_eq]

/-- The year that the calendar counts at the day. -/
def yearAt (c : Calendar) (d : Date) : Int :=
  (c.reckoning.localDate d.dayNumber).year

theorem exists_ofLocal (hd : d.IsCentral) (hl : c.reckoning.HasDate l) (hyear : c.yearAt d ≤ l.year)
    (hnext : l.year ≤ c.yearAt d + 1) :
    ∃ e, c.ofLocal l = .ok e ∧ e.IsConvertible ∧ c.toLocal e = .ok l := by
  -- The day and the local date lie in two years that follow each other, of at most 366 days each.
  have hbegin : c.reckoning.newYear (c.yearAt d) ≤ d.dayNumber := c.lawful.newYear_yearOf_le _
  have hend : d.dayNumber < c.reckoning.newYear (c.yearAt d + 1) := c.lawful.lt_newYear_yearOf _
  have hyears := c.lawful.newYear_mono hyear
  have hnexts := c.lawful.newYear_mono (show l.year + 1 ≤ c.yearAt d + 1 + 1 by omega)
  have hfirst : c.reckoning.newYear l.year ≤ c.reckoning.dayNumber l := by
    unfold Reckoning.dayNumber
    omega
  have hlast := c.lawful.dayNumber_lt hl
  have := c.newYear_succ_le (c.yearAt d)
  have := c.newYear_succ_le (c.yearAt d + 1)
  obtain ⟨e, he, hconvertible⟩ :=
    hd.exists_ofDayNumber? (n := c.reckoning.dayNumber l) (by omega) (by omega)
  have hnumber := Date.dayNumber_ofDayNumber? he
  refine ⟨e, ofLocal_eq_ok_iff.2 ⟨hl, hnumber⟩, hconvertible, ?_⟩
  rw [toLocal_eq hconvertible, hnumber, c.lawful.localDate_dayNumber hl]

theorem daysInMonth_eq (hd : d.IsCentral) (hm : 1 ≤ m) (hle : m ≤ 12) (hyear : c.yearAt d ≤ y)
    (hnext : y ≤ c.yearAt d + 1) : c.daysInMonth y m = .ok (c.reckoning.daysInMonth y m) := by
  have hfirst : c.reckoning.HasDate ⟨y, m, 1⟩ :=
    hasDate_iff.2 ⟨hm, hle, Nat.le_refl 1, c.daysInMonth_pos y hm hle⟩
  obtain ⟨e, he, -, hlocal⟩ := exists_ofLocal hd hfirst hyear hnext
  rw [daysInMonth, he]
  simp only [bind, Except.bind, hlocal]
  rfl

end Calendar

end CasualDate
