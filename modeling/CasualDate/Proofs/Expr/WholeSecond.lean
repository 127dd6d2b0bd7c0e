import CasualDate.Expr.Moment

/-!
# Instants by whole seconds

Evaluation carries the fraction of a second along and never looks at it: from an instant without its
fraction every expression means the same instant, without its fraction, and is refused or breaks
down for the same cause (`MomentExpr.evaluate_wholeSecond`).
-/

namespace CasualDate

/-- The time without its fraction of a second. -/
def TimeOfDay.wholeSecond (t : TimeOfDay) : TimeOfDay :=
  { t with nanosecond := 0, nanosecond_lt := midnight.nanosecond_lt }

/-- The instant without its fraction of a second. -/
def Instant.wholeSecond (t : Instant) : Instant :=
  ⟨t.date, t.time.wholeSecond⟩

section Answers

variable {ε α α' β β' : Type} {g : α → α'} {k : β → β'}

theorem bind_map_eq {x : Except ε α} {f : α → Except ε β} {f' : α' → Except ε β'}
    (h : ∀ a, f' (g a) = (f a).map k) : x.map g >>= f' = (x >>= f).map k := by
  cases x with
  | error => rfl
  | ok a => exact h a

theorem orRefuse_map (x : Except Error α) : orRefuse (x.map g) = (orRefuse x).map g := by
  cases x <;> rfl

theorem orOffCalendar_map (x : Option α) : orOffCalendar (x.map g) = (orOffCalendar x).map g := by
  cases x <;> rfl

end Answers

theorem TimeOfDay.wholeSecond_of_ofClock? {hour minute second : Nat} {t : TimeOfDay}
    (h : ofClock? hour minute second = some t) : t.wholeSecond = t := by
  unfold ofClock? of? at h
  split at h
  · split at h
    · cases h
      rfl
    · cases h
  · cases h

theorem TimeOfDay.second_lt_of_ofClock? {hour minute second : Nat} {t : TimeOfDay}
    (h : ofClock? hour minute second = some t) : t.second < 60 := by
  unfold ofClock? of? at h
  split at h
  · next hsecond =>
    split at h
    · cases h
      exact hsecond
    · cases h
  · cases h

namespace Instant

variable {t : Instant}

@[simp] theorem date_wholeSecond : t.wholeSecond.date = t.date := rfl

theorem addMinutes?_wholeSecond (t : Instant) (n : Int) :
    t.wholeSecond.addMinutes? n = (t.addMinutes? n).map wholeSecond := by
  have hinMinute (minutes : Int) (second : Nat) (h : second ≤ 60) :
      inMinute? minutes second 0 h (by decide) =
        (inMinute? minutes second t.time.nanosecond h t.time.nanosecond_lt).map wholeSecond := by
    rw [inMinute?, inMinute?, Option.map_map]
    rfl
  unfold addMinutes?
  simp only [show t.wholeSecond.time.second = t.time.second from rfl]
  split
  · exact hinMinute ..
  · split
    · exact hinMinute ..
    · exact hinMinute ..

end Instant

namespace Duration

variable {dir : Direction} {t : Instant}

theorem step_wholeSecond (part : Nat × TimeUnit) :
    step dir t.wholeSecond part = (step dir t part).map Instant.wholeSecond := by
  rw [step, step]
  cases part.2.length with
  | minutes per =>
    simp only [Instant.addMinutes?_wholeSecond]
    cases t.addMinutes? (dir.apply (part.1 * per)) <;> rfl
  | months per =>
    simp only [Instant.date_wholeSecond]
    cases shiftMonths dir t.date part.1 per part.2 <;> rfl

theorem shift_wholeSecond (d : Duration) :
    d.shift dir t.wholeSecond = (d.shift dir t).map Instant.wholeSecond := by
  simp only [shift]
  induction d.parts generalizing t with
  | nil => rfl
  | cons part parts ih =>
    rw [List.foldlM_cons, List.foldlM_cons, step_wholeSecond]
    exact bind_map_eq fun _ => ih

end Duration

namespace TimeExpr

variable {now : Instant} {time : TimeOfDay} {e : TimeExpr}

theorem exists_ofClock?_of_evaluate (hstated : e ≠ unstated) (h : e.evaluate now = .ok time) :
    ∃ hour minute, TimeOfDay.ofClock? hour minute 0 = some time := by
  cases e with
  | unstated => exact absurd rfl hstated
  | bare | clock =>
    simp only [evaluate] at h
    split at h
    · next hclock =>
      cases h
      exact ⟨_, _, hclock⟩
    · cases h
  | halfDay half hour minute =>
    simp only [evaluate] at h
    split at h
    · cases h
    · cases half with
      | am | pm =>
        simp only at h
        split at h
        · next hclock =>
          cases h
          exact ⟨_, _, hclock⟩
        · cases h

theorem wholeSecond_of_evaluate (hstated : e ≠ unstated) (h : e.evaluate now = .ok time) :
    time.wholeSecond = time := by
  obtain ⟨hour, minute, hclock⟩ := exists_ofClock?_of_evaluate hstated h
  exact TimeOfDay.wholeSecond_of_ofClock? hclock

theorem evaluate_wholeSecond (now : Instant) (e : TimeExpr) :
    e.evaluate now.wholeSecond = (e.evaluate now).map TimeOfDay.wholeSecond := by
  by_cases hstated : e = unstated
  · subst hstated
    rfl
  · have hsame : e.evaluate now.wholeSecond = e.evaluate now := by
      cases e with
      | unstated => exact absurd rfl hstated
      | bare | clock | halfDay => rfl
    rw [hsame]
    cases h : e.evaluate now with
    | error => rfl
    | ok time => exact congrArg Except.ok (wholeSecond_of_evaluate hstated h).symm

end TimeExpr

namespace MomentExpr

theorem evaluate_wholeSecond (t : Instant) (e : MomentExpr) :
    e.evaluate t.wholeSecond = (e.evaluate t).map Instant.wholeSecond := by
  induction e with
  | now => rfl
  | dateTime date time | timeDate time date =>
    simp only [evaluate, Instant.date_wholeSecond, TimeExpr.evaluate_wholeSecond, orRefuse_map]
    cases date.evaluate t.date with
    | error => rfl
    | ok day => exact bind_map_eq fun _ => rfl
  | after d m ih | before d m ih =>
    simp only [evaluate, ih]
    refine bind_map_eq fun u => ?_
    rw [Duration.shift_wholeSecond, orRefuse_map]

end MomentExpr

end CasualDate
