import CasualDate.Proofs.Expr.Clock
import CasualDate.Proofs.Expr.WholeSecond
import CasualDate.Proofs.Instant.Days

/-!
# Whole days on dates and on instants

A duration without hours and minutes can be counted from today, at the current time of day, or from
now. Each of its amounts leads to the same date both ways and leaves the time alone
(`Duration.step_eq_map_stepDate`), or is refused for the same cause. Only days and weeks that are
counted from a leap second do not leave it alone, so the two ways mean the same instant exactly where
there are none (`MomentExpr.evaluate_wholeDays_iff`).
-/

namespace CasualDate

namespace Duration

variable {dir : Direction} {t u : Instant} {part : Nat × TimeUnit} {parts : List (Nat × TimeUnit)}
  {d : Duration}

theorem Direction.apply_mul (n k : Nat) : dir.apply (n * k) = dir.apply n * k := by
  cases dir with
  | forward => exact Int.natCast_mul n k
  | backward => exact (congrArg Neg.neg (Int.natCast_mul n k)).trans (Int.neg_mul ..).symm

/-- Days and weeks are counted on the date if they leave the time alone. -/
theorem step_eq_of_minutes {n k : Nat} {unit : TimeUnit} (hunit : unit.length = .minutes (k * 1440))
    (h : t.time.second < 60 ∨ n * (k * 1440) = 0) :
    step dir t (n, unit) = (stepDate dir t.date (n, unit)).map (⟨·, t.time⟩) := by
  rw [← Nat.mul_assoc] at h
  have hordinary : t.time.second < 60 ∨ dir.apply (n * k) = 0 :=
    h.imp_right fun hzero => Direction.apply_eq_zero_iff.2 (by omega)
  have hadd : t.addMinutes? (dir.apply (n * (k * 1440))) =
      (t.date.addDays? (dir.apply (n * k))).map (⟨·, t.time⟩) := by
    rw [← Nat.mul_assoc, Direction.apply_mul]
    exact Instant.addDays?_eq hordinary
  have hdays : k * 1440 / 1440 = k := by omega
  simp only [step, stepDate, hunit, hadd, hdays]
  cases t.date.addDays? (dir.apply (n * k)) <;> rfl

theorem step_eq_map_stepDate (hday : part.2.isSubDaily = false)
    (h : t.time.second < 60 ∨ minutesOf part = 0) :
    step dir t part = (stepDate dir t.date part).map (⟨·, t.time⟩) := by
  obtain ⟨n, unit⟩ := part
  cases unit with
  | hour | minute => cases hday
  | day => exact step_eq_of_minutes (k := 1) rfl h
  | week => exact step_eq_of_minutes (k := 7) rfl h
  | month | year => rfl

theorem foldlM_step_eq_map (hdays : ∀ part ∈ parts, part.2.isSubDaily = false)
    (h : t.time.second < 60 ∨ ∀ part ∈ parts, minutesOf part = 0) :
    parts.foldlM (step dir) t = (parts.foldlM (stepDate dir) t.date).map (⟨·, t.time⟩) := by
  induction parts generalizing t with
  | nil => rfl
  | cons part parts ih =>
    rw [List.forall_mem_cons] at hdays h
    rw [List.foldlM_cons, List.foldlM_cons, step_eq_map_stepDate hdays.1 (h.imp_right And.left)]
    exact bind_map_eq fun e => ih (t := ⟨e, t.time⟩) hdays.2 (h.imp_right And.right)

/-- A duration without hours and minutes leads to the same date, at the time it is counted from, where
its days and weeks are not counted from a leap second. -/
theorem shift_eq_map_shiftDate (hd : d.isSubDaily = false)
    (h : t.time.second < 60 ∨ ∀ part ∈ d.parts, minutesOf part = 0) :
    d.shift dir t = (d.shiftDate dir t.date).map (⟨·, t.time⟩) := by
  have hdays : ∀ part ∈ d.parts, part.2.isSubDaily = false := by
    simpa [isSubDaily] using hd
  rw [shiftDate, hd, if_neg Bool.false_ne_true]
  exact foldlM_step_eq_map hdays h

theorem second_lt_of_shift (h : d.shift dir t = .ok u)
    (hminutes : ¬ ∀ part ∈ d.parts, minutesOf part = 0) : u.time.second < 60 := by
  have hle := u.time.second_le
  exact Nat.lt_of_le_of_ne hle fun hleap => hminutes ((second_shift_eq_iff h).1 hleap).2

/-- Nothing is counted from a leap second but months and years, or it is refused for the same cause on
the date and on the instant. -/
def CountsAlike (d : Duration) (dir : Direction) (t : Instant) : Prop :=
  t.time.second < 60 ∨ (∀ part ∈ d.parts, minutesOf part = 0) ∨
    ∃ e, d.shiftDate dir t.date = .error e ∧ d.shift dir t = .error e

theorem map_shiftDate_eq_shift_iff (hd : d.isSubDaily = false) (dir : Direction) (t : Instant) :
    (d.shiftDate dir t.date).map (⟨·, t.time⟩) = d.shift dir t ↔ d.CountsAlike dir t := by
  constructor
  · intro heq
    cases hdate : d.shiftDate dir t.date with
    | error e => exact .inr (.inr ⟨e, hdate, by rw [← heq, hdate]; rfl⟩)
    | ok date =>
      have hshift : d.shift dir t = .ok ⟨date, t.time⟩ := by rw [← heq, hdate]; rfl
      by_cases hminutes : ∀ part ∈ d.parts, minutesOf part = 0
      · exact .inr (.inl hminutes)
      · have hsecond := second_lt_of_shift hshift hminutes
        exact .inl hsecond
  · rintro (hsecond | hminutes | ⟨e, hdate, hshift⟩)
    · exact (shift_eq_map_shiftDate hd (.inl hsecond)).symm
    · exact (shift_eq_map_shiftDate hd (.inr hminutes)).symm
    · rw [hdate, hshift]
      rfl

end Duration

namespace MomentExpr

variable {now : Instant}

theorem evaluate_dateTime_unstated (date : DateExpr) :
    (dateTime date .unstated).evaluate now = (date.evaluate now.date).map (⟨·, now.time⟩) := by
  simp only [evaluate]
  cases date.evaluate now.date <;> rfl

/-- Days, weeks, months and years mean the same instant before and after today, at no stated time,
and before and after now, or are refused for the same cause, exactly if they count alike. -/
theorem evaluate_wholeDays_iff (d : Duration) (hd : d.isSubDaily = false) (now : Instant) :
    ((dateTime (.before d .today) .unstated).evaluate now = (before d .now).evaluate now ↔
      d.CountsAlike .backward now) ∧
    ((dateTime (.after d .today) .unstated).evaluate now = (after d .now).evaluate now ↔
      d.CountsAlike .forward now) := by
  have hiff (dir : Duration.Direction) :
      (orRefuse (d.shiftDate dir now.date)).map (⟨·, now.time⟩) = orRefuse (d.shift dir now) ↔
        d.CountsAlike dir now := by
    rw [← orRefuse_map, orRefuse_inj]
    exact Duration.map_shiftDate_eq_shift_iff hd dir now
  rw [evaluate_dateTime_unstated, evaluate_dateTime_unstated]
  exact ⟨hiff .backward, hiff .forward⟩

/-- "a month and two weeks", counted from the last day of March in a leap year -/
theorem evaluate_monthTwoWeeks :
    let d : Duration := .both (.one .month) (.count 2 .week)
    let now : Instant := ⟨⟨738976, by decide, by decide⟩, ⟨10, 30, 0, 0, by decide, by decide,
      by decide, by decide⟩⟩
    d.isSubDaily = false ∧
      ((dateTime (.before d .today) .unstated).evaluate now = (before d .now).evaluate now ↔
        d.CountsAlike .backward now) ∧
      ((dateTime (.after d .today) .unstated).evaluate now = (after d .now).evaluate now ↔
        d.CountsAlike .forward now) ∧
      d.CountsAlike .backward now ∧ d.CountsAlike .forward now := by
  intro d now
  obtain ⟨hbefore, hafter⟩ := evaluate_wholeDays_iff d rfl now
  have hsecond : now.time.second < 60 := by decide
  exact ⟨rfl, hbefore, hafter, .inl hsecond, .inl hsecond⟩

/-- A day before a leap second is in another minute than a day ago from it. -/
theorem evaluate_dayBefore_leap :
    let d : Duration := .count 1 .day
    let now : Instant := ⟨⟨738993, by decide, by decide⟩, ⟨10, 30, 60, 500000000, by decide,
      by decide, by decide, by decide⟩⟩
    d.isSubDaily = false ∧
      (dateTime (.before d .today) .unstated).evaluate now ≠ (before d .now).evaluate now ∧
      ((dateTime (.before d .today) .unstated).evaluate now).map Instant.iso =
        .ok "2024-04-16 10:30:60.500" ∧
      ((before d .now).evaluate now).map Instant.iso = .ok "2024-04-16 10:31:00.500" := by
  decide +kernel

end MomentExpr

end CasualDate
