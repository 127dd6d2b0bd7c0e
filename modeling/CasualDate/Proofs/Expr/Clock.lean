import CasualDate.Expr.Moment
import CasualDate.Proofs.Error.Answers
import CasualDate.Proofs.Instant.Clock

/-!
# The time of day of an expression

An expression that states no time means the time of day of the reference, moved by the minutes of
its durations in the order in which they are counted; dates, months and years have no part in it
(`MomentExpr.time_of_evaluate`). So it keeps what the clock shows at the reference exactly if those
minutes do (`MomentExpr.showsSame_evaluate_iff`).
-/

namespace CasualDate

namespace Duration

variable {dir : Direction} {t u : Instant} {part : Nat × TimeUnit} {parts : List (Nat × TimeUnit)}
  {d : Duration}

/-- The minutes of an amount. Months and years are counted on the calendar and have none. -/
def minutesOf (part : Nat × TimeUnit) : Nat :=
  match part.2.length with
  | .minutes per => part.1 * per
  | .months _ => 0

def minuteSteps (dir : Direction) (d : Duration) : List Int :=
  d.parts.map fun part => dir.apply (minutesOf part)

theorem Direction.apply_eq_zero_iff {n : Nat} : dir.apply n = 0 ↔ n = 0 := by
  cases dir <;> simp [Direction.apply]

theorem time_of_step (h : step dir t part = .ok u) :
    u.time = t.time.addMinutes (dir.apply (minutesOf part)) := by
  unfold step at h
  unfold minutesOf
  cases hlength : part.2.length with
  | minutes per =>
    simp only [hlength] at h
    split at h
    · next hu =>
      cases h
      exact Instant.time_of_addMinutes? hu
    · cases h
  | months per =>
    simp only [hlength] at h
    have hzero : dir.apply 0 = 0 := Direction.apply_eq_zero_iff.2 rfl
    cases hd : shiftMonths dir t.date part.1 per part.2 with
    | error e =>
      rw [hd] at h
      cases h
    | ok d =>
      rw [hd] at h
      cases h
      simp [hzero]

theorem time_of_foldlM_step (h : parts.foldlM (step dir) t = .ok u) :
    u.time = (parts.map fun part => dir.apply (minutesOf part)).foldl TimeOfDay.addMinutes t.time := by
  induction parts generalizing t with
  | nil =>
    cases h
    rfl
  | cons part parts ih =>
    rw [List.foldlM_cons] at h
    obtain ⟨v, hv, h⟩ := bind_eq_ok_iff.1 h
    rw [List.map_cons, List.foldl_cons, ← time_of_step hv]
    exact ih h

theorem time_of_shift (h : d.shift dir t = .ok u) :
    u.time = (d.minuteSteps dir).foldl TimeOfDay.addMinutes t.time :=
  time_of_foldlM_step h

theorem second_shift_eq_iff (h : d.shift dir t = .ok u) :
    u.time.second = 60 ↔ t.time.second = 60 ∧ ∀ part ∈ d.parts, minutesOf part = 0 := by
  rw [time_of_shift h, TimeOfDay.second_foldl_addMinutes_eq_iff, minuteSteps, List.forall_mem_map]
  simp only [Direction.apply_eq_zero_iff]

end Duration

namespace MomentExpr

variable {reference u : Instant} {e : MomentExpr}

/-- The minutes that are counted from the moment at the bottom of the expression, those counted
back being negative. -/
def minuteSteps : MomentExpr → List Int
  | now | dateTime .. | timeDate .. => []
  | after d m => m.minuteSteps ++ d.minuteSteps .forward
  | before d m => m.minuteSteps ++ d.minuteSteps .backward

theorem time_of_evaluate (hstated : e.stated.time = false) (h : e.evaluate reference = .ok u) :
    u.time = e.minuteSteps.foldl TimeOfDay.addMinutes reference.time := by
  induction e generalizing u with
  | now => cases hstated
  | dateTime date time | timeDate time date =>
    obtain ⟨day, -, h⟩ := bind_eq_ok_iff.1 h
    obtain ⟨timeOfDay, htime, h⟩ := bind_eq_ok_iff.1 h
    have hunstated : time = .unstated := by simpa [stated] using hstated
    subst hunstated
    cases htime
    cases h
    rfl
  | after d m ih | before d m ih =>
    obtain ⟨v, hv, h⟩ := bind_eq_ok_iff.1 h
    rw [minuteSteps, List.foldl_append, ← ih hstated hv]
    exact Duration.time_of_shift (orRefuse_eq_ok_iff.1 h)

/-- An expression without a time keeps what the clock shows exactly if its minutes make whole days,
and do not first lead back from a leap second. -/
theorem showsSame_evaluate_iff (hstated : e.stated.time = false) (h : e.evaluate reference = .ok u) :
    u.time.ShowsSame reference.time ↔
      e.minuteSteps.sum % 1440 = 0 ∧ reference.time.LeadsOn e.minuteSteps := by
  rw [time_of_evaluate hstated h]
  exact TimeOfDay.showsSame_foldl_addMinutes

end MomentExpr

end CasualDate
