import CasualDate.Expr.Moment
import CasualDate.Proofs.Instant.Days

/-!
# Expressions evaluated alike

Apart from those that count units of time, expressions depend on the instant they start from by its
year and by two weeks at most. From two instants of one year they are evaluated alike
(`MomentExpr.alike_evaluate`), unless an end of the range is near or the year is one of those from
which a two-digit year has no century.
-/

namespace CasualDate

/-- Both evaluations have a value, or both are refused. -/
inductive Alike {α : Type} : Except Failure α → Except Failure α → Prop
  | ok (a b : α) : Alike (.ok a) (.ok b)
  | refused (x y : Error) : Alike (.error (.refused x)) (.error (.refused y))

namespace Alike

variable {α β : Type} {x y : Except Failure α} {f g : α → Except Failure β}

theorem isOk_eq (h : Alike x y) : x.isOk = y.isOk := by
  cases h <;> rfl

theorem ne_broken (h : Alike x y) (cause : Breakdown) : x ≠ .error (.broken cause) := by
  cases h with
  | ok => simp
  | refused => simp

theorem orRefuse (x : Except Error α) : Alike (orRefuse x) (orRefuse x) := by
  cases x with
  | ok a => exact .ok a a
  | error e => exact .refused e e

theorem bind (h : Alike x y) (hf : ∀ a b, Alike (f a) (g b)) : Alike (x >>= f) (y >>= g) := by
  cases h with
  | ok a b => exact hf a b
  | refused e e' => exact .refused e e'

end Alike

namespace Date

/-- The week before the day and the two weeks after it lie in the range, and a two-digit year has a
century from there. -/
structure IsOrdinary (d : Date) : Prop where
  low : firstDay + 7 ≤ d.dayNumber
  high : d.dayNumber + 14 ≤ lastDay
  century : ¬(-10 ≤ d.year ∧ d.year < 0)

variable {d : Date} {n : Int}

instance : Decidable d.IsOrdinary :=
  decidable_of_iff (firstDay + 7 ≤ d.dayNumber ∧ d.dayNumber + 14 ≤ lastDay ∧
    ¬(-10 ≤ d.year ∧ d.year < 0)) ⟨fun ⟨hlow, hhigh, hcentury⟩ => ⟨hlow, hhigh, hcentury⟩,
      fun h => ⟨h.low, h.high, h.century⟩⟩

theorem IsOrdinary.exists_addDays? (h : d.IsOrdinary) (hlow : -7 ≤ n) (hhigh : n ≤ 14) :
    ∃ e, d.addDays? n = some e := by
  have := h.low
  have := h.high
  exact ⟨_, ofDayNumber?_eq_some (n := d.dayNumber + n) (by omega) (by omega)⟩

end Date

namespace DateExpr

variable {a b : Date} {e : DateExpr}

/-- Whether the date is counted in units of time. -/
def countsUnits : DateExpr → Bool
  | before .. | after .. | relativeUnit .. => true
  | _ => false

theorem exists_fullYear {reference : Int} (year : Nat) (h : ¬(-10 ≤ reference ∧ reference < 0)) :
    ∃ full, fullYear reference year = .ok full := by
  unfold fullYear
  split
  · exact ⟨_, rfl⟩
  · split <;> exact ⟨_, rfl⟩

theorem alike_evaluate (ha : a.IsOrdinary) (hb : b.IsOrdinary) (hyear : a.year = b.year)
    (he : e.countsUnits = false) : Alike (e.evaluate a) (e.evaluate b) := by
  have hdays (n n' : Int) (hn : -7 ≤ n ∧ n ≤ 14) (hn' : -7 ≤ n' ∧ n' ≤ 14) :
      ∃ x y, a.addDays? n = some x ∧ b.addDays? n' = some y := by
    obtain ⟨x, hx⟩ := ha.exists_addDays? hn.1 hn.2
    obtain ⟨y, hy⟩ := hb.exists_addDays? hn'.1 hn'.2
    exact ⟨x, y, hx, hy⟩
  cases e with
  | before | after | relativeUnit => cases he
  | today | unstated => exact .ok a b
  | yesterday =>
    obtain ⟨x, y, hx, hy⟩ := hdays (-1) (-1) (by decide) (by decide)
    simp only [evaluate, hx, hy]
    exact .ok x y
  | tomorrow =>
    obtain ⟨x, y, hx, hy⟩ := hdays 1 1 (by decide) (by decide)
    simp only [evaluate, hx, hy]
    exact .ok x y
  | weekday day =>
    have := a.weekday.daysUntil_lt day
    have := b.weekday.daysUntil_lt day
    obtain ⟨x, y, hx, hy⟩ := hdays (a.weekday.daysUntil day) (b.weekday.daysUntil day) (by omega)
      (by omega)
    simp only [evaluate, hx, hy]
    exact .ok x y
  | relativeWeekday r day =>
    obtain ⟨x, y, hx, hy⟩ := hdays _ _ (weekdayOffset_bounds r a.weekday day)
      (weekdayOffset_bounds r b.weekday day)
    simp only [evaluate, hx, hy]
    exact .ok x y
  | numeric | monthDay | month =>
    simp only [evaluate, inYearOf, hyear]
    exact .orRefuse _
  | monthDayYear | monthYear => exact .orRefuse _
  | numericFull m d y =>
    obtain ⟨full, hfull⟩ := exists_fullYear y hb.century
    simp only [evaluate, hyear, hfull]
    exact .orRefuse _

end DateExpr

theorem TimeExpr.alike_evaluate (e : TimeExpr) (t u : Instant) :
    Alike (orRefuse (e.evaluate t)) (orRefuse (e.evaluate u)) := by
  cases e with
  | unstated => exact .ok t.time u.time
  | bare | clock | halfDay => exact .orRefuse _

namespace MomentExpr

variable {t u : Instant} {e : MomentExpr}

/-- Whether the moment is counted in units of time. -/
def countsUnits : MomentExpr → Bool
  | now => false
  | dateTime date _ | timeDate _ date => date.countsUnits
  | after .. | before .. => true

theorem alike_evaluate (ht : t.date.IsOrdinary) (hu : u.date.IsOrdinary)
    (hyear : t.date.year = u.date.year) (he : e.countsUnits = false) :
    Alike (e.evaluate t) (e.evaluate u) := by
  cases e with
  | now => exact .ok t u
  | after | before => cases he
  | dateTime date time =>
    exact .bind (DateExpr.alike_evaluate ht hu hyear he) fun _ _ =>
      .bind (TimeExpr.alike_evaluate time t u) fun _ _ => .ok _ _
  | timeDate time date =>
    exact .bind (DateExpr.alike_evaluate ht hu hyear he) fun _ _ =>
      .bind (TimeExpr.alike_evaluate time t u) fun _ _ => .ok _ _

end MomentExpr

end CasualDate
