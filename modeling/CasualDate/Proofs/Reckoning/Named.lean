import CasualDate.Proofs.Reckoning.Lawful
import Mathlib.Order.Monotone.Basic

/-!
# Names and their days

Each name that a lawful reckoning has is the name of one day (`Lawful.localDate_dayNumber`), so
year, month and day of a date are those that it was found by (`Date.ofCivil?_eq_some_iff`). Years do
not overlap: the year of a day is the only one that it lies in.
-/

namespace CasualDate

namespace Reckoning

theorem totalDays_take_add_lt {lengths : List Nat} {k n : Nat} (h : n < lengths.getD k 0) :
    totalDays (lengths.take k) + n < totalDays lengths := by
  induction lengths generalizing k with
  | nil => simp at h
  | cons len lengths ih =>
    cases k with
    | zero =>
      rw [List.getD_cons_zero] at h
      simp only [List.take_zero, totalDays]
      omega
    | succ k =>
      rw [List.getD_cons_succ] at h
      have := ih h
      simp only [List.take_succ_cons, totalDays]
      omega

theorem locate_totalDays {lengths : List Nat} {k n : Nat} (h : n < lengths.getD k 0) :
    locate lengths (totalDays (lengths.take k) + n) = (k + 1, n + 1) := by
  induction lengths generalizing k with
  | nil => simp at h
  | cons len lengths ih =>
    cases k with
    | zero =>
      rw [List.getD_cons_zero] at h
      simp [locate, totalDays, h]
    | succ k =>
      rw [List.getD_cons_succ] at h
      have hlt : ¬len + totalDays (lengths.take k) + n < len := by omega
      have hsub : len + totalDays (lengths.take k) + n - len = totalDays (lengths.take k) + n := by
        omega
      simp [locate, totalDays, hlt, hsub, ih h]

variable {r : Reckoning} {d : LocalDate} {n y : Int}

/-- Month and day of a name, counted from zero, as a place in the months of its year. -/
theorem HasDate.day_lt (h : r.HasDate d) : d.day - 1 < (r.monthLengths d.year).getD (d.month - 1) 0 := by
  obtain ⟨hm, -, hd, hle⟩ := h
  rw [daysInMonth, if_neg (by omega)] at hle
  omega

namespace Lawful

theorem newYear_mono {z : Int} (h : r.Lawful) (hle : y ≤ z) : r.newYear y ≤ r.newYear z := by
  have hsucc (x : Int) : r.newYear x ≤ r.newYear (x + 1) := by
    have := h.newYear_add_totalDays x
    omega
  exact monotone_int_of_le_succ hsucc hle

theorem yearOf_eq (h : r.Lawful) (hle : r.newYear y ≤ n) (hlt : n < r.newYear (y + 1)) :
    r.yearOf n = y := by
  rcases Int.lt_trichotomy (r.yearOf n) y with hless | heq | hmore
  · have := h.lt_newYear_yearOf n
    have := h.newYear_mono (show r.yearOf n + 1 ≤ y by omega)
    omega
  · exact heq
  · have := h.newYear_yearOf_le n
    have := h.newYear_mono (show y + 1 ≤ r.yearOf n by omega)
    omega

theorem dayNumber_lt (h : r.Lawful) (hd : r.HasDate d) :
    r.dayNumber d < r.newYear (d.year + 1) := by
  have := totalDays_take_add_lt hd.day_lt
  have := h.newYear_add_totalDays d.year
  simp only [dayNumber]
  omega

theorem localDate_dayNumber (h : r.Lawful) (hd : r.HasDate d) :
    r.localDate (r.dayNumber d) = d := by
  have hyear : r.yearOf (r.dayNumber d) = d.year :=
    h.yearOf_eq (by simp only [dayNumber]; omega) (h.dayNumber_lt hd)
  have hoffset : (r.dayNumber d - r.newYear d.year).toNat =
      totalDays ((r.monthLengths d.year).take (d.month - 1)) + (d.day - 1) := by
    simp only [dayNumber]
    omega
  obtain ⟨hm, -, hday, -⟩ := id hd
  simp only [localDate, hyear, hoffset, locate_totalDays hd.day_lt]
  rw [Nat.sub_add_cancel hm, Nat.sub_add_cancel hday]

end Lawful

end Reckoning

namespace Gregorian

/-- A year later, a day with a name lies at least 365 days later. Up to February the first year has
them; behind it the 29th of February, if there is one, is that of the later year. -/
theorem dayNumber_next_year (y : Int) (m d : Nat) :
    gregorian.dayNumber ⟨y, m, d⟩ + 365 ≤ gregorian.dayNumber ⟨y + 1, m, d⟩ := by
  have hyear : newYear y + Reckoning.totalDays (monthLengths y) = newYear (y + 1) :=
    newYear_add_totalDays y
  simp only [Reckoning.dayNumber, gregorian]
  rcases m - 1 with _ | _ | k
  · simp only [monthLengths, Reckoning.totalDays, List.take_zero] at *
    split at hyear <;> omega
  · simp only [monthLengths, Reckoning.totalDays, List.take_zero, List.take_succ_cons] at *
    split at hyear <;> omega
  · have hfebruary : 28 ≤ if isLeap (y + 1) then 29 else 28 := by split <;> decide
    simp only [monthLengths, Reckoning.totalDays, List.take_succ_cons] at *
    omega

theorem dayNumber_next_year_le (y : Int) (m d : Nat) :
    gregorian.dayNumber ⟨y + 1, m, d⟩ ≤ gregorian.dayNumber ⟨y, m, d⟩ + 366 := by
  have hyear : newYear y + Reckoning.totalDays (monthLengths y) = newYear (y + 1) :=
    newYear_add_totalDays y
  simp only [Reckoning.dayNumber, gregorian]
  rcases m - 1 with _ | _ | k
  · simp only [monthLengths, Reckoning.totalDays, List.take_zero] at *
    split at hyear <;> omega
  · simp only [monthLengths, Reckoning.totalDays, List.take_zero, List.take_succ_cons] at *
    split at hyear <;> omega
  · have hfebruary : (if isLeap (y + 1) then 29 else 28) ≤ 29 := by split <;> decide
    simp only [monthLengths, Reckoning.totalDays, List.take_succ_cons] at *
    omega

end Gregorian

namespace Date

variable {x z : Date} {y : Int} {m d : Nat}

theorem ofCivil?_eq_some_iff : ofCivil? y m d = some x ↔ x.year = y ∧ x.month = m ∧ x.day = d := by
  constructor
  · intro h
    unfold ofCivil? at h
    split at h
    · next hd =>
      have hname : x.civil = ⟨y, m, d⟩ := by
        rw [civil, dayNumber_ofDayNumber? h, gregorian_lawful.localDate_dayNumber hd]
      simp [year, month, day, hname]
    · cases h
  · rintro ⟨rfl, rfl, rfl⟩
    exact x.ofCivil?_civil

theorem newYear_le_dayNumber (x : Date) : gregorian.newYear x.year ≤ x.dayNumber :=
  gregorian_lawful.newYear_yearOf_le x.dayNumber

theorem dayNumber_lt_newYear (x : Date) : x.dayNumber < gregorian.newYear (x.year + 1) :=
  gregorian_lawful.lt_newYear_yearOf x.dayNumber

theorem dayNumber_lt_of_year_lt (h : x.year < z.year) : x.dayNumber < z.dayNumber := by
  have := x.dayNumber_lt_newYear
  have := z.newYear_le_dayNumber
  have := gregorian_lawful.newYear_mono (show x.year + 1 ≤ z.year by omega)
  omega

theorem le_year_iff : y ≤ x.year ↔ gregorian.newYear y ≤ x.dayNumber := by
  constructor
  · exact fun h => Int.le_trans (gregorian_lawful.newYear_mono h) x.newYear_le_dayNumber
  · refine fun h => Int.not_lt.1 fun hlt => ?_
    have := x.dayNumber_lt_newYear
    have := gregorian_lawful.newYear_mono (show x.year + 1 ≤ y by omega)
    omega

theorem neg_le_year (x : Date) : -262143 ≤ x.year :=
  le_year_iff.2 (firstDay_eq ▸ x.firstDay_le)

theorem year_le (x : Date) : x.year ≤ 262142 := by
  refine Int.not_lt.1 fun hlt => ?_
  have := le_year_iff.1 (show 262143 ≤ x.year by omega)
  have := x.le_lastDay
  have := lastDay_eq
  omega

theorem civil_eq_iff : x.civil = ⟨y, m, d⟩ ↔ x.year = y ∧ x.month = m ∧ x.day = d := by
  show (⟨x.year, x.month, x.day⟩ : LocalDate) = _ ↔ _
  rw [LocalDate.mk.injEq]

theorem dayNumber_civil (x : Date) : gregorian.dayNumber x.civil = x.dayNumber :=
  gregorian_lawful.dayNumber_localDate x.dayNumber

theorem civil_eq_next_year (hyear : z.year = x.year + 1) (hmonth : z.month = x.month)
    (hday : z.day = x.day) : z.civil = ⟨x.year + 1, x.month, x.day⟩ :=
  civil_eq_iff.2 ⟨hyear, hmonth, hday⟩

theorem dayNumber_add_le (hyear : z.year = x.year + 1) (hmonth : z.month = x.month)
    (hday : z.day = x.day) : x.dayNumber + 365 ≤ z.dayNumber := by
  rw [← dayNumber_civil x, ← dayNumber_civil z, civil_eq_next_year hyear hmonth hday]
  exact Gregorian.dayNumber_next_year _ _ _

theorem dayNumber_le_add (hyear : z.year = x.year + 1) (hmonth : z.month = x.month)
    (hday : z.day = x.day) : z.dayNumber ≤ x.dayNumber + 366 := by
  rw [← dayNumber_civil x, ← dayNumber_civil z, civil_eq_next_year hyear hmonth hday]
  exact Gregorian.dayNumber_next_year_le _ _ _

theorem firstDay_le_newYear (x : Date) : firstDay ≤ gregorian.newYear x.year :=
  firstDay_eq ▸ gregorian_lawful.newYear_mono x.neg_le_year

theorem newYear_le_lastDay (x : Date) : gregorian.newYear (x.year + 1) ≤ lastDay + 1 := by
  have := x.year_le
  exact lastDay_eq ▸ gregorian_lawful.newYear_mono (by omega)

/-- A year with a day in the range has all its days there. -/
theorem isSome_ofCivil?_iff (x : Date) :
    (ofCivil? x.year m d).isSome = true ↔ gregorian.HasDate ⟨x.year, m, d⟩ := by
  rw [ofCivil?]
  split
  · next hdate =>
    have hlow : firstDay ≤ gregorian.dayNumber ⟨x.year, m, d⟩ := by
      have := x.firstDay_le_newYear
      simp only [Reckoning.dayNumber]
      omega
    have hhigh : gregorian.dayNumber ⟨x.year, m, d⟩ ≤ lastDay := by
      have := gregorian_lawful.dayNumber_lt hdate
      exact Int.le_of_lt_add_one (Int.lt_of_lt_of_le this x.newYear_le_lastDay)
    rw [ofDayNumber?, dif_pos ⟨hlow, hhigh⟩]
    exact iff_of_true rfl hdate
  · next hno => exact iff_of_false (by simp) hno

theorem exists_ofCivil? (hlow : -262143 ≤ y) (hhigh : y ≤ 262142)
    (h : gregorian.HasDate ⟨y, m, d⟩) : ∃ z, ofCivil? y m d = some z := by
  have hbegin : firstDay ≤ gregorian.newYear y :=
    firstDay_eq ▸ gregorian_lawful.newYear_mono hlow
  have hend : gregorian.newYear (y + 1) ≤ lastDay + 1 :=
    lastDay_eq ▸ gregorian_lawful.newYear_mono (by omega)
  have hfirst : gregorian.newYear y ≤ gregorian.dayNumber ⟨y, m, d⟩ := by
    simp only [Reckoning.dayNumber]
    omega
  have hlast : gregorian.dayNumber ⟨y, m, d⟩ < gregorian.newYear (y + 1) :=
    gregorian_lawful.dayNumber_lt h
  refine ⟨⟨gregorian.dayNumber ⟨y, m, d⟩, by omega, by omega⟩, ?_⟩
  rw [ofCivil?, if_pos h, ofDayNumber?, dif_pos ⟨by omega, by omega⟩]

theorem month_eq_one (h : x.dayNumber < gregorian.newYear x.year + 31) : x.month = 1 := by
  have hnumber := x.dayNumber_civil
  have hpos := x.month_pos
  have hname : x.civil = ⟨x.year, x.month, x.day⟩ := rfl
  rw [hname] at hnumber
  refine Nat.le_antisymm (Nat.not_lt.1 fun hlt => ?_) hpos
  obtain ⟨k, hk⟩ := Nat.exists_eq_add_of_le hlt
  have hmonth : x.month - 1 = k + 1 := by omega
  simp only [Reckoning.dayNumber, hmonth] at hnumber
  have hjanuary : 31 ≤ Reckoning.totalDays ((gregorian.monthLengths x.year).take (k + 1)) := by
    simp [gregorian, Gregorian.monthLengths, Reckoning.totalDays]
  omega

end Date

end CasualDate
