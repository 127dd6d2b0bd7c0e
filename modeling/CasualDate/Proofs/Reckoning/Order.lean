import CasualDate.Proofs.Reckoning.Named

/-!
# Days in the order of their names

Names come one before the other by year, then month, then day. A lawful reckoning counts its days
in the same order (`Lawful.dayNumber_lt_iff`): a day lies before the new year that ends its year,
and before the first of every later month of it.
-/

namespace CasualDate

/-- The name comes before the other by year, then month, then day. -/
def LocalDate.Precedes (a b : LocalDate) : Prop :=
  a.year < b.year ∨ a.year = b.year ∧ (a.month < b.month ∨ a.month = b.month ∧ a.day < b.day)

instance (a b : LocalDate) : Decidable (a.Precedes b) :=
  inferInstanceAs (Decidable (_ ∨ _))

namespace LocalDate

variable {a b : LocalDate}

theorem precedes_trichotomy (a b : LocalDate) : a.Precedes b ∨ a = b ∨ b.Precedes a := by
  obtain ⟨y, m, d⟩ := a
  obtain ⟨z, n, e⟩ := b
  simp only [Precedes, mk.injEq]
  omega

end LocalDate

namespace Reckoning.Lawful

variable {r : Reckoning} {a b : LocalDate}

theorem dayNumber_lt_of_precedes (h : r.Lawful) (ha : r.HasDate a) (hab : a.Precedes b) :
    r.dayNumber a < r.dayNumber b := by
  rcases hab with hyear | ⟨hyear, hmonth | ⟨hmonth, hday⟩⟩
  · have hend := h.dayNumber_lt ha
    have hbegin := h.newYear_mono (show a.year + 1 ≤ b.year by omega)
    have hle : r.newYear b.year ≤ r.dayNumber b := by
      unfold dayNumber
      omega
    omega
  · -- The months of the year up to that of `b` have the day of `a` among them.
    have hlt : a.day - 1 < ((r.monthLengths a.year).take (b.month - 1)).getD (a.month - 1) 0 := by
      have hpos := ha.1
      rw [List.getD_eq_getElem?_getD, List.getElem?_take_of_lt (by omega),
        ← List.getD_eq_getElem?_getD]
      exact ha.day_lt
    have hsum := totalDays_take_add_lt hlt
    rw [List.take_take, Nat.min_eq_left (by omega)] at hsum
    unfold dayNumber
    rw [← hyear]
    omega
  · have hpos := ha.2.2.1
    unfold dayNumber
    rw [← hyear, ← hmonth]
    omega

theorem dayNumber_lt_iff (h : r.Lawful) (ha : r.HasDate a) (hb : r.HasDate b) :
    r.dayNumber a < r.dayNumber b ↔ a.Precedes b := by
  refine ⟨fun hlt => ?_, h.dayNumber_lt_of_precedes ha⟩
  rcases a.precedes_trichotomy b with hab | rfl | hba
  · exact hab
  · exact absurd hlt (Int.lt_irrefl _)
  · exact absurd hlt (Int.lt_asymm (h.dayNumber_lt_of_precedes hb hba))

theorem dayNumber_le_iff (h : r.Lawful) (ha : r.HasDate a) (hb : r.HasDate b) :
    r.dayNumber a ≤ r.dayNumber b ↔ ¬b.Precedes a := by
  rw [← h.dayNumber_lt_iff hb ha, Int.not_lt]

end Reckoning.Lawful

end CasualDate
