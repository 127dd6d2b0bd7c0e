import CasualDate.Components
import CasualDate.Proofs.Reckoning.Lawful

/-!
# What components keep of an instant

Year, month and day name the date of an instant again. Of its time they keep what a clock without
leap seconds shows, so an instant comes back from its components without its nanoseconds and with
second 59 in place of a leap second (`date?_ofStated`).
-/

namespace CasualDate

/-- The time that a clock without leap seconds shows, by whole seconds. -/
def TimeOfDay.onClock (t : TimeOfDay) : TimeOfDay :=
  ⟨t.hour, t.minute, t.clockSecond, 0, t.hour_lt, t.minute_lt, t.clockSecond_le,
    midnight.nanosecond_lt⟩

/-- The instant that a calendar and a clock without leap seconds show, by whole seconds. -/
def Instant.onClock (t : Instant) : Instant :=
  ⟨t.date, t.time.onClock⟩

theorem TimeOfDay.onClock_eq_self {t : TimeOfDay} (hsharp : t.nanosecond = 0)
    (hsecond : t.second < 60) : t.onClock = t := by
  have hclock : t.clockSecond = t.second := Nat.min_eq_left (Nat.le_of_lt_succ hsecond)
  unfold onClock
  congr 1
  exact hsharp.symm

theorem TimeOfDay.ofClock?_onClock (t : TimeOfDay) :
    ofClock? t.hour t.minute t.clockSecond = some t.onClock := by
  have hsecond : t.clockSecond < 60 := by unfold clockSecond; omega
  have hparts : t.hour < 24 ∧ t.minute < 60 ∧ t.clockSecond ≤ 60 ∧ 0 < 1000000000 :=
    ⟨t.hour_lt, t.minute_lt, by omega, by decide⟩
  rw [ofClock?, if_pos hsecond, of?, dif_pos hparts]
  rfl

namespace Components

variable {c : Components} {t : Instant}

theorem exists_of_date? (h : c.date? = some t) : c.day? = some t.date ∧
    ∃ hour minute second, TimeOfDay.ofClock? hour minute second = some t.time := by
  simp only [date?, Option.bind_eq_bind, Option.bind_eq_some_iff, Option.pure_def,
    Option.some.injEq] at h
  obtain ⟨date, hdate, hour, -, minute, -, second, -, time, htime, rfl⟩ := h
  exact ⟨hdate, hour, minute, second, htime⟩

/-- Components with the time of an instant denote the day that they name, at that time. -/
theorem date?_eq_map_day? (hhour : c.hour.value = t.time.hour)
    (hminute : c.minute.value = t.time.minute) (hsecond : c.second.value = t.time.clockSecond) :
    c.date? = c.day?.map (⟨·, t.time.onClock⟩) := by
  rw [date?, hhour, hminute, hsecond]
  cases c.day? with
  | none => rfl
  | some date =>
    exact congrArg (·.bind fun time => some (Instant.mk date time)) t.time.ofClock?_onClock

theorem date?_eq_onClock (hyear : c.year.value = t.date.year) (hmonth : c.month.value = t.date.month)
    (hday : c.day.value = t.date.day) (hhour : c.hour.value = t.time.hour)
    (hminute : c.minute.value = t.time.minute) (hsecond : c.second.value = t.time.clockSecond) :
    c.date? = some t.onClock := by
  have hdate : c.day? = some t.date := by
    rw [day?, hyear, hmonth, hday]
    exact t.date.ofCivil?_civil
  rw [date?_eq_map_day? hhour hminute hsecond, hdate]
  rfl

@[simp] theorem date?_ofStated (s : Stated) : (ofStated t s).date? = some t.onClock :=
  date?_eq_onClock rfl rfl rfl rfl rfl rfl

@[simp] theorem isCertain_weekday_ofStated (s : Stated) :
    (ofStated t s).isCertain .weekday = s.weekday := by
  cases h : s.weekday <;> simp [isCertain, ofStated, h]

end Components

end CasualDate
