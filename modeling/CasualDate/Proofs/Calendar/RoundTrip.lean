import CasualDate.Proofs.Calendar.Local
import CasualDate.Proofs.Reckoning.Order

/-!
# Conversions are inverse to each other

A date that can be converted is found again by the name that it has in the calendar, and a name that
leads to such a date is the one that it has there (`toLocal_inverse`). The names that do so are those
of the months and days that the calendar has, from the name of the first day that can be converted to
that of the last one: none of them is refused, and no other name is bent into one of them.
-/

namespace CasualDate.Calendar

variable {c : Calendar} {d : Date} {l : LocalDate}

/-- The name of 1 January of the Gregorian year -9999. -/
def firstLocal : Calendar → LocalDate
  | gregorian => ⟨-9999, 1, 1⟩
  | persian => ⟨-10621, 10, 11⟩

/-- The name of 31 December of the Gregorian year 9999. -/
def lastLocal : Calendar → LocalDate
  | gregorian => ⟨9999, 12, 31⟩
  | persian => ⟨9378, 10, 10⟩

/-- The name is not before the first one of the days that can be converted and not behind the
last one. -/
def Covers (c : Calendar) (l : LocalDate) : Prop :=
  ¬l.Precedes c.firstLocal ∧ ¬c.lastLocal.Precedes l

theorem hasDate_firstLocal (c : Calendar) : c.reckoning.HasDate c.firstLocal := by
  cases c <;> decide

theorem hasDate_lastLocal (c : Calendar) : c.reckoning.HasDate c.lastLocal := by
  cases c <;> decide

theorem dayNumber_firstLocal (c : Calendar) :
    c.reckoning.dayNumber c.firstLocal = CasualDate.gregorian.newYear (-9999) := by
  cases c <;> decide

theorem dayNumber_lastLocal (c : Calendar) :
    c.reckoning.dayNumber c.lastLocal + 1 = CasualDate.gregorian.newYear 10000 := by
  cases c <;> decide

/-- The calendar covers the names of the days that can be converted. -/
theorem covers_iff (h : c.reckoning.HasDate l) :
    c.Covers l ↔ CasualDate.gregorian.newYear (-9999) ≤ c.reckoning.dayNumber l ∧
      c.reckoning.dayNumber l < CasualDate.gregorian.newYear 10000 := by
  rw [Covers, ← c.lawful.dayNumber_le_iff c.hasDate_firstLocal h,
    ← c.lawful.dayNumber_le_iff h c.hasDate_lastLocal, dayNumber_firstLocal,
    ← dayNumber_lastLocal, Int.lt_add_one_iff]

theorem toLocal_eq_ok_iff :
    c.toLocal d = .ok l ↔ d.IsConvertible ∧ c.reckoning.localDate d.dayNumber = l := by
  by_cases h : d.IsConvertible
  · simp [toLocal_eq h, h]
  · simp [toLocal_eq_error h, h]

theorem lt_iff_precedes (c : Calendar) (d e : Date) : d.dayNumber < e.dayNumber ↔
    (c.reckoning.localDate d.dayNumber).Precedes (c.reckoning.localDate e.dayNumber) := by
  rw [← c.lawful.dayNumber_lt_iff (c.lawful.hasDate_localDate _) (c.lawful.hasDate_localDate _),
    c.lawful.dayNumber_localDate, c.lawful.dayNumber_localDate]

theorem localDate_of_ofLocal (h : c.ofLocal l = .ok d) :
    c.reckoning.localDate d.dayNumber = l := by
  obtain ⟨hl, hnumber⟩ := ofLocal_eq_ok_iff.1 h
  rw [hnumber, c.lawful.localDate_dayNumber hl]

theorem ofLocal_localDate (c : Calendar) (d : Date) :
    c.ofLocal (c.reckoning.localDate d.dayNumber) = .ok d :=
  ofLocal_eq_ok_iff.2 ⟨c.lawful.hasDate_localDate _, (c.lawful.dayNumber_localDate _).symm⟩

theorem exists_ofLocal_of_covers (hl : c.reckoning.HasDate l) (hcovers : c.Covers l) :
    ∃ d, d.IsConvertible ∧ c.ofLocal l = .ok d := by
  obtain ⟨hlow, hhigh⟩ := (covers_iff hl).1 hcovers
  have hfirst : firstDay ≤ CasualDate.gregorian.newYear (-9999) := by decide
  have hlast : CasualDate.gregorian.newYear 10000 ≤ lastDay := by decide
  refine ⟨⟨c.reckoning.dayNumber l, by omega, by omega⟩, ?_, ofLocal_eq_ok_iff.2 ⟨hl, rfl⟩⟩
  exact Date.isConvertible_iff.2 ⟨hlow, hhigh⟩

/-- Conversion to the calendar and conversion from it are inverse to each other on the dates that can
be converted and the names that the calendar has and covers. -/
theorem toLocal_inverse (c : Calendar) :
    (∀ d l, c.toLocal d = .ok l ↔ d.IsConvertible ∧ c.ofLocal l = .ok d) ∧
      (∀ d, (∃ l, c.toLocal d = .ok l) ↔ d.IsConvertible) ∧
      ∀ l, (∃ d, d.IsConvertible ∧ c.ofLocal l = .ok d) ↔ c.reckoning.HasDate l ∧ c.Covers l := by
  refine ⟨fun d l => ?_, fun d => ?_, fun l => ⟨?_, ?_⟩⟩
  · rw [toLocal_eq_ok_iff]
    refine and_congr_right fun _ => ⟨?_, localDate_of_ofLocal⟩
    rintro rfl
    exact c.ofLocal_localDate d
  · constructor
    · rintro ⟨l, hl⟩
      exact (toLocal_eq_ok_iff.1 hl).1
    · intro hd
      exact ⟨_, toLocal_eq hd⟩
  · rintro ⟨d, hd, hl⟩
    obtain ⟨hdate, hnumber⟩ := ofLocal_eq_ok_iff.1 hl
    refine ⟨hdate, (covers_iff hdate).2 ?_⟩
    rw [← hnumber]
    exact Date.isConvertible_iff.1 hd
  · rintro ⟨hdate, hcovers⟩
    exact exists_ofLocal_of_covers hdate hcovers

end CasualDate.Calendar
