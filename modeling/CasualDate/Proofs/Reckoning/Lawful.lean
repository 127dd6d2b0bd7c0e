import CasualDate.Date

/-!
# Days and their names

A reckoning is lawful if each year begins where the lengths of the months before it end, and
`yearOf` finds the year that a day lies in. Every day then has its name: `localDate` answers a date
that the reckoning has, and `dayNumber` leads back (`Lawful.dayNumber_localDate`). The months are
found by walking along their lengths, so the induction is on `locate`.
-/

namespace CasualDate

namespace Reckoning

/-- The years follow each other without gaps, and `yearOf` finds them. -/
structure Lawful (r : Reckoning) : Prop where
  newYear_yearOf_le : ∀ n, r.newYear (r.yearOf n) ≤ n
  lt_newYear_yearOf : ∀ n, n < r.newYear (r.yearOf n + 1)
  newYear_add_totalDays : ∀ y, r.newYear y + totalDays (r.monthLengths y) = r.newYear (y + 1)

/-- The day that `locate` finds is one of the month, and the right number of days in. -/
theorem locate_spec (lengths : List Nat) (n : Nat) (h : n < totalDays lengths) :
    1 ≤ (locate lengths n).1 ∧ (locate lengths n).1 ≤ lengths.length ∧
      1 ≤ (locate lengths n).2 ∧
      (locate lengths n).2 ≤ lengths.getD ((locate lengths n).1 - 1) 0 ∧
      totalDays (lengths.take ((locate lengths n).1 - 1)) + ((locate lengths n).2 - 1) = n := by
  induction lengths generalizing n with
  | nil => simp [totalDays] at h
  | cons len lengths ih =>
    by_cases hlt : n < len
    · simp only [locate, hlt, if_true]
      refine ⟨by simp, by simp, by simp, ?_, by simp [totalDays]⟩
      simp only [Nat.sub_self, List.getD_cons_zero]
      omega
    · obtain ⟨hm, hm', hd, hd', hsum⟩ := ih (n - len) (by rw [totalDays] at h; omega)
      simp only [locate, hlt, if_false]
      obtain ⟨k, hk⟩ := Nat.exists_eq_add_of_le hm
      rw [hk, Nat.add_sub_cancel_left] at hd' hsum
      rw [hk] at hm'
      refine ⟨by omega, by simp only [List.length_cons]; omega, hd, ?_, ?_⟩
      · rw [hk, show 1 + k + 1 - 1 = k + 1 by omega, List.getD_cons_succ]
        exact hd'
      · rw [hk, show 1 + k + 1 - 1 = k + 1 by omega, List.take_succ_cons, totalDays]
        omega

namespace Lawful

variable {r : Reckoning}

theorem offset_lt (h : r.Lawful) (n : Int) :
    (n - r.newYear (r.yearOf n)).toNat < totalDays (r.monthLengths (r.yearOf n)) := by
  have hle := h.newYear_yearOf_le n
  have hlt := h.lt_newYear_yearOf n
  have hsum := h.newYear_add_totalDays (r.yearOf n)
  omega

theorem hasDate_localDate (h : r.Lawful) (n : Int) : r.HasDate (r.localDate n) := by
  obtain ⟨hm, hm', hd, hd', -⟩ := locate_spec _ _ (h.offset_lt n)
  refine ⟨hm, hm', hd, ?_⟩
  have hne : (r.localDate n).month ≠ 0 := Nat.ne_of_gt hm
  rw [daysInMonth, if_neg hne]
  exact hd'

theorem dayNumber_localDate (h : r.Lawful) (n : Int) : r.dayNumber (r.localDate n) = n := by
  obtain ⟨-, -, -, -, hsum⟩ := locate_spec _ _ (h.offset_lt n)
  have hle := h.newYear_yearOf_le n
  simp only [dayNumber, localDate]
  omega

end Lawful

/-- A guess that is off by at most one is settled to the year of the day. -/
theorem settle_spec {newYear : Int → Int} {guess n : Int} (hge : newYear (guess - 1) ≤ n)
    (hlt : n < newYear (guess + 2)) :
    newYear (settle newYear guess n) ≤ n ∧ n < newYear (settle newYear guess n + 1) := by
  unfold settle
  split
  · next h => exact ⟨hge, by rwa [Int.sub_add_cancel]⟩
  · next h =>
    split
    · next h' => exact ⟨h', by rwa [Int.add_assoc]⟩
    · next h' => exact ⟨by omega, by omega⟩

end Reckoning

namespace Gregorian

theorem newYear_add_totalDays (y : Int) :
    newYear y + Reckoning.totalDays (monthLengths y) = newYear (y + 1) := by
  simp only [newYear, monthLengths, isLeap]
  by_cases h4 : y % 4 = 0 <;> by_cases h100 : y % 100 = 0 <;> by_cases h400 : y % 400 = 0 <;>
    simp [h4, h100, h400, Reckoning.totalDays] <;> omega

theorem length_le_of_mem_monthLengths {y : Int} {len : Nat} (h : len ∈ monthLengths y) :
    len ≤ 31 := by
  simp only [monthLengths, List.mem_cons, List.not_mem_nil, or_false] at h
  split at h <;> omega

theorem daysInMonth_le (y : Int) (m : Nat) : gregorian.daysInMonth y m ≤ 31 := by
  unfold Reckoning.daysInMonth
  split
  · exact Nat.zero_le _
  · rw [List.getD_eq_getElem?_getD]
    cases hlen : (gregorian.monthLengths y)[m - 1]? with
    | none => exact Nat.zero_le _
    | some len => exact length_le_of_mem_monthLengths (List.mem_of_getElem? hlen)

end Gregorian

theorem gregorian_lawful : gregorian.Lawful := by
  have hspec : ∀ n, Gregorian.newYear (Gregorian.yearOf n) ≤ n ∧
      n < Gregorian.newYear (Gregorian.yearOf n + 1) := fun n =>
    Reckoning.settle_spec (by simp only [Gregorian.newYear]; omega)
      (by simp only [Gregorian.newYear]; omega)
  exact ⟨fun n => (hspec n).1, fun n => (hspec n).2, Gregorian.newYear_add_totalDays⟩

namespace Date

variable (d : Date)

theorem ofDayNumber?_dayNumber : ofDayNumber? d.dayNumber = some d := by
  rw [ofDayNumber?, dif_pos ⟨d.firstDay_le, d.le_lastDay⟩]

theorem ofCivil?_eq_none {year : Int} {month day : Nat} (h : 12 < month) :
    ofCivil? year month day = none := by
  have hno : ¬gregorian.HasDate ⟨year, month, day⟩ := by
    rintro ⟨-, hle, -⟩
    exact Nat.lt_irrefl 12 (Nat.lt_of_lt_of_le h hle)
  rw [ofCivil?, if_neg hno]

theorem ofCivil?_civil : ofCivil? d.year d.month d.day = some d := by
  have hdate : (⟨d.year, d.month, d.day⟩ : LocalDate) = gregorian.localDate d.dayNumber := rfl
  rw [ofCivil?, hdate, if_pos (gregorian_lawful.hasDate_localDate _),
    gregorian_lawful.dayNumber_localDate, ofDayNumber?_dayNumber]

theorem month_pos : 1 ≤ d.month :=
  (gregorian_lawful.hasDate_localDate d.dayNumber).1

theorem month_le : d.month ≤ 12 :=
  (gregorian_lawful.hasDate_localDate d.dayNumber).2.1

theorem day_le : d.day ≤ 31 :=
  Nat.le_trans (gregorian_lawful.hasDate_localDate d.dayNumber).2.2.2
    (Gregorian.daysInMonth_le _ _)

end Date

end CasualDate
