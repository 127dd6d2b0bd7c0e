import CasualDate.Expr.Date

/-!
# Counting days and weekdays

Days are counted on the day number, of which the weekday is the remainder by seven. An instant keeps
its time when days are counted from it (`addDays?_eq`), unless it is a leap second: counting back
from one leads to the full minute after it (`addDays?_leap`).
-/

namespace CasualDate

namespace Weekday

theorem index_inj {a b : Weekday} : a.index = b.index ↔ a = b := by
  refine ⟨fun h => ?_, fun h => h ▸ rfl⟩
  rw [← ofIndex_index a, h, ofIndex_index]

theorem daysUntil_lt (a b : Weekday) : a.daysUntil b < 7 :=
  Nat.mod_lt _ (by decide)

@[simp] theorem daysUntil_self (a : Weekday) : a.daysUntil a = 0 := by
  cases a <;> rfl

theorem daysUntil_eq_zero_iff {a b : Weekday} : a.daysUntil b = 0 ↔ a = b := by
  have ha := a.index_lt
  have hb := b.index_lt
  rw [← index_inj, daysUntil]
  omega

end Weekday

namespace Date

variable {d : Date} {n : Int}

theorem ofDayNumber?_eq_some (hlow : firstDay ≤ n) (hhigh : n ≤ lastDay) :
    ofDayNumber? n = some ⟨n, hlow, hhigh⟩ := by
  rw [ofDayNumber?, dif_pos ⟨hlow, hhigh⟩]

theorem index_weekday (d : Date) : (d.weekday.index : Int) = d.dayNumber % 7 := by
  rw [weekday, Weekday.index_ofIndex]
  omega

theorem weekday_eq_iff {a : Weekday} : d.weekday = a ↔ d.dayNumber % 7 = a.index := by
  rw [← Weekday.index_inj, ← index_weekday]
  omega

end Date

/-- How many weeks the word looks ahead. -/
def Relative.weeks : Relative → Int
  | current => 0
  | following => 1
  | previous => -1

namespace DateExpr

/-- "last" counts from the coming weekday like the others: the day itself is no special case. -/
theorem weekdayOffset_eq (r : Relative) (a d : Weekday) :
    weekdayOffset a r d = a.daysUntil d + 7 * r.weeks := by
  have := a.daysUntil_lt d
  cases r with
  | current => simp [weekdayOffset, Relative.weeks]
  | following => simp [weekdayOffset, Relative.weeks]
  | previous =>
    simp only [weekdayOffset, Relative.weeks]
    split <;> omega

theorem weekdayOffset_bounds (r : Relative) (a d : Weekday) :
    -7 ≤ weekdayOffset a r d ∧ weekdayOffset a r d ≤ 14 := by
  have := a.daysUntil_lt d
  rw [weekdayOffset_eq]
  cases r <;> simp only [Relative.weeks] <;> omega

end DateExpr

namespace Instant

variable {t : Instant} {n : Int}

theorem addDays?_eq (h : t.time.second < 60 ∨ n = 0) :
    t.addDays? n = (t.date.addDays? n).map (⟨·, t.time⟩) := by
  have hhour := t.time.hour_lt
  have hminute := t.time.minute_lt
  have hday : (t.minutes + n * 1440) / 1440 = t.date.dayNumber + n := by
    unfold minutes
    omega
  have hofDay : ((t.minutes + n * 1440) % 1440).toNat = t.time.hour * 60 + t.time.minute := by
    unfold minutes
    omega
  have hhour' : (t.time.hour * 60 + t.time.minute) / 60 = t.time.hour := by omega
  have hminute' : (t.time.hour * 60 + t.time.minute) % 60 = t.time.minute := by omega
  have hcond : t.time.second < 60 ∨ n * 1440 = 0 := by omega
  simp only [addDays?, addMinutes?, hcond, if_true, inMinute?, hday, hofDay, hhour', hminute',
    Date.addDays?]

theorem addDays?_leap (h : t.time.second = 60) (hn : n < 0)
    (hlow : firstDay ≤ t.date.dayNumber + n) (hhigh : t.date.dayNumber + n < lastDay) :
    ∃ u, t.addDays? n = some u ∧ u.time.second = 0 ∧
      t.date.dayNumber + n ≤ u.date.dayNumber ∧ u.date.dayNumber ≤ t.date.dayNumber + n + 1 := by
  have hhour := t.time.hour_lt
  have hminute := t.time.minute_lt
  have hday : t.date.dayNumber + n ≤ (t.minutes + 1 + n * 1440) / 1440 ∧
      (t.minutes + 1 + n * 1440) / 1440 ≤ t.date.dayNumber + n + 1 := by
    unfold minutes
    omega
  have hcond : ¬(t.time.second < 60 ∨ n * 1440 = 0) := by omega
  have hpos : ¬0 < n * 1440 := by omega
  simp only [addDays?, addMinutes?, hcond, hpos, if_false, inMinute?,
    Date.ofDayNumber?_eq_some (Int.le_trans hlow hday.1) (by omega), Option.map_some]
  exact ⟨_, rfl, rfl, hday⟩

theorem dayNumber_of_addDays? {u : Instant} (hn : n ≤ 0) (h : t.addDays? n = some u) :
    t.date.dayNumber + n ≤ u.date.dayNumber ∧ u.date.dayNumber ≤ t.date.dayNumber := by
  have hhour := t.time.hour_lt
  have hminute := t.time.minute_lt
  have hminutes : t.minutes = t.date.dayNumber * 1440 + (t.time.hour * 60 + t.time.minute : Nat) := rfl
  simp only [addDays?, addMinutes?, inMinute?] at h
  split at h
  · obtain ⟨date, hdate, rfl⟩ := Option.map_eq_some_iff.1 h
    have := Date.dayNumber_ofDayNumber? hdate
    constructor <;> dsimp only <;> omega
  · next hleap =>
    split at h
    · omega
    · obtain ⟨date, hdate, rfl⟩ := Option.map_eq_some_iff.1 h
      have := Date.dayNumber_ofDayNumber? hdate
      constructor <;> dsimp only <;> omega

end Instant

end CasualDate
