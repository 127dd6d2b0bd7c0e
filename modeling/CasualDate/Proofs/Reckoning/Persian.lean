import CasualDate.Proofs.Reckoning.Named
import CasualDate.Reckoning

/-!
# The Persian reckoning is lawful

The rule of 33 years adds a day to a year exactly where `newYear` counts one more (`newYear_rule`).
A correction moves this day from one year to the next. It is needed only in years that the rule
makes leap, and no two corrected years follow each other, so every year still ends where the next
begins (`persian_lawful`).
-/

namespace CasualDate

namespace Persian

variable {y : Int}

/-- The rule makes the year a leap year. -/
def RuleLeap (y : Int) : Prop :=
  (25 * y + 11) % 33 < 8

instance : Decidable (RuleLeap y) :=
  inferInstanceAs (Decidable (_ < _))

/-- The leap day of a corrected year is taken from it, and the next year has none to begin with. -/
theorem of_mem_corrections (h : y ∈ corrections) :
    RuleLeap y ∧ ¬RuleLeap (y + 1) ∧ y + 1 ∉ corrections := by
  revert y
  decide +kernel

theorem isLeap_eq : isLeap y = true ↔
    y - 1 ∈ corrections ∨ RuleLeap y ∧ y ∉ corrections := by
  unfold isLeap
  by_cases hbefore : y - 1 ∈ corrections
  · simp [hbefore]
  · by_cases hself : y ∈ corrections <;> simp [hbefore, hself, RuleLeap]

/-- The days that the rule puts before a year. -/
theorem newYear_rule (y : Int) :
    (8 * (y + 1) + 21) / 33 = (8 * y + 21) / 33 + if RuleLeap y then 1 else 0 := by
  have hremainder : (25 * y + 11) % 33 = 32 - (8 * y + 21) % 33 := by omega
  by_cases h : RuleLeap y
  · rw [if_pos h]
    unfold RuleLeap at h
    omega
  · rw [if_neg h]
    unfold RuleLeap at h
    omega

/-- A correction puts the beginning of a year forward by one day at most. -/
theorem newYear_bounds (y : Int) :
    epoch - 1 + 365 * (y - 1) + (8 * y + 21) / 33 - 1 ≤ newYear y ∧
      newYear y ≤ epoch - 1 + 365 * (y - 1) + (8 * y + 21) / 33 := by
  by_cases h : corrections.contains (y - 1) = true
  · rw [newYear, if_pos h]
    omega
  · rw [newYear, if_neg h]
    omega

theorem newYear_add_totalDays (y : Int) :
    newYear y + Reckoning.totalDays (monthLengths y) = newYear (y + 1) := by
  have hrule := newYear_rule y
  have htotal : (Reckoning.totalDays (monthLengths y) : Int) = 365 + if isLeap y then 1 else 0 := by
    simp only [monthLengths, Reckoning.totalDays]
    split <;> rfl
  have hcontains (z : Int) : corrections.contains z = true ↔ z ∈ corrections :=
    List.contains_iff_mem
  simp only [newYear, htotal, hrule, isLeap_eq, hcontains, Int.add_sub_cancel]
  by_cases hbefore : y - 1 ∈ corrections
  -- The year begins a day early.
  · obtain ⟨-, hrule, hself⟩ := of_mem_corrections hbefore
    rw [Int.sub_add_cancel] at hrule hself
    simp only [hbefore, hself, hrule, true_or, if_true, if_false]
    omega
  · by_cases hself : y ∈ corrections
    -- The year after begins a day early.
    · simp only [hbefore, hself, (of_mem_corrections hself).1, not_true, and_false, or_false, if_true,
        if_false]
      omega
    · by_cases hleap : RuleLeap y <;>
        simp only [hbefore, hself, hleap, not_false_eq_true, and_true, or_false, false_or,
          if_true, if_false] <;> omega

end Persian

theorem persian_lawful : persian.Lawful := by
  have hspec (n : Int) : Persian.newYear (Persian.yearOf n) ≤ n ∧
      n < Persian.newYear (Persian.yearOf n + 1) := by
    refine Reckoning.settle_spec ?_ ?_
    · have := (Persian.newYear_bounds (33 * (n - Persian.epoch) / 12053 + 1 - 1)).2
      unfold Persian.epoch at *
      omega
    · have := (Persian.newYear_bounds (33 * (n - Persian.epoch) / 12053 + 1 + 2)).1
      unfold Persian.epoch at *
      omega
  exact ⟨fun n => (hspec n).1, fun n => (hspec n).2, Persian.newYear_add_totalDays⟩

end CasualDate
