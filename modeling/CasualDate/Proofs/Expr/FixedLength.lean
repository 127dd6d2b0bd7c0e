import CasualDate.Proofs.Expr.Ahead
import CasualDate.Proofs.Expr.Clock
import CasualDate.Proofs.Instant.Days

/-!
# Units of one length

Days, weeks, hours and minutes always have the same length, so an amount of them is a number of
minutes that does not depend on where it is counted from (`Duration.step_eq_ok_iff_of_isFixed`). From
an ordinary second the amounts of a duration add up: it leads to the instant that lies all their
minutes away, at the same second, and is refused exactly if there is none in the range
(`Duration.shift_eq_ok_iff_of_isFixed`). That the instants in between lie in the range as well is no
condition, as all of them are on the way.
-/

namespace CasualDate

/-- Whether the unit always has the same length. -/
def TimeUnit.isFixed : TimeUnit → Bool
  | month | year => false
  | _ => true

namespace Instant

variable {t u v : Instant} {n k : Int}

/-- The first instant lies so many minutes from the second one, before it if they are negative, at the
same second and fraction. -/
structure IsMinutesFrom (u t : Instant) (n : Int) : Prop where
  minutes_eq : u.minutes = t.minutes + n
  second_eq : u.time.second = t.time.second
  nanosecond_eq : u.time.nanosecond = t.time.nanosecond

theorem isMinutesFrom_zero_iff : u.IsMinutesFrom t 0 ↔ u = t := by
  constructor
  · intro h
    have hminutes : u.minutes = t.minutes := by simpa using h.minutes_eq
    have hu : inMinute? t.minutes t.time.second t.time.nanosecond t.time.second_le
        t.time.nanosecond_lt = some u :=
      inMinute?_eq_some_iff.2 ⟨hminutes, h.second_eq, h.nanosecond_eq⟩
    have ht : inMinute? t.minutes t.time.second t.time.nanosecond t.time.second_le
        t.time.nanosecond_lt = some t := inMinute?_eq_some_iff.2 ⟨rfl, rfl, rfl⟩
    exact Option.some.inj (hu.symm.trans ht)
  · rintro rfl
    exact ⟨(Int.add_zero _).symm, rfl, rfl⟩

namespace IsMinutesFrom

theorem symm (h : u.IsMinutesFrom t n) : t.IsMinutesFrom u (-n) := by
  have hminutes := h.minutes_eq
  exact ⟨by omega, h.second_eq.symm, h.nanosecond_eq.symm⟩

theorem trans (h : u.IsMinutesFrom t n) (h' : v.IsMinutesFrom u k) : v.IsMinutesFrom t (n + k) := by
  have hminutes := h.minutes_eq
  have hminutes' := h'.minutes_eq
  exact ⟨by omega, h'.second_eq.trans h.second_eq, h'.nanosecond_eq.trans h.nanosecond_eq⟩

theorem exists_between (h : u.IsMinutesFrom t n) (hk : 0 ≤ k ∧ k ≤ n ∨ n ≤ k ∧ k ≤ 0) :
    ∃ v : Instant, v.IsMinutesFrom t k := by
  have hminutes := h.minutes_eq
  have ht := t.minutes_eq
  have hu := u.minutes_eq
  have hlow := t.date.firstDay_le
  have hhigh := t.date.le_lastDay
  have hlow' := u.date.firstDay_le
  have hhigh' := u.date.le_lastDay
  have hhour := t.time.hour_lt
  have hminute := t.time.minute_lt
  have hhour' := u.time.hour_lt
  have hminute' := u.time.minute_lt
  obtain ⟨date, hdate⟩ : ∃ date, Date.ofDayNumber? ((t.minutes + k) / 1440) = some date :=
    ⟨_, Date.ofDayNumber?_eq_some (by omega) (by omega)⟩
  have hv : ∃ v, inMinute? (t.minutes + k) t.time.second t.time.nanosecond t.time.second_le
      t.time.nanosecond_lt = some v := by
    rw [inMinute?, hdate]
    exact ⟨_, rfl⟩
  obtain ⟨v, hv⟩ := hv
  obtain ⟨hvminutes, hvsecond, hvnano⟩ := inMinute?_eq_some_iff.1 hv
  exact ⟨v, hvminutes, hvsecond, hvnano⟩

end IsMinutesFrom

theorem addMinutes?_eq_some_iff_of_lt (h : t.time.second < 60) :
    t.addMinutes? n = some u ↔ u.IsMinutesFrom t n := by
  have hcond : t.time.second < 60 ∨ n = 0 := .inl h
  simp only [addMinutes?, hcond, if_true, inMinute?_eq_some_iff]
  constructor
  · rintro ⟨hminutes, hsecond, hnano⟩
    exact ⟨hminutes, hsecond, hnano⟩
  · intro hu
    exact ⟨hu.minutes_eq, hu.second_eq, hu.nanosecond_eq⟩

end Instant

namespace Duration

variable {dir : Direction} {t u : Instant} {part : Nat × TimeUnit} {parts : List (Nat × TimeUnit)}
  {d : Duration}

/-- Whether all amounts are of units that always have the same length. -/
def isFixed (d : Duration) : Bool :=
  d.parts.all fun part => part.2.isFixed

theorem isFixed_iff : d.isFixed = true ↔ ∀ part ∈ d.parts, part.2.isFixed = true :=
  List.all_eq_true

theorem Direction.apply_add (n k : Nat) : dir.apply (n + k) = dir.apply n + dir.apply k := by
  cases dir <;> simp only [Direction.apply] <;> omega

theorem Direction.apply_between (n k : Nat) :
    0 ≤ dir.apply n ∧ dir.apply n ≤ dir.apply (n + k) ∨
      dir.apply (n + k) ≤ dir.apply n ∧ dir.apply n ≤ 0 := by
  cases dir <;> simp only [Direction.apply] <;> omega

theorem minutesOf_eq_zero_iff (h : part.2.isFixed = true) : minutesOf part = 0 ↔ part.1 = 0 := by
  obtain ⟨n, unit⟩ := part
  cases unit with
  | month | year => cases h
  | day | week | hour | minute =>
    simp only [minutesOf, TimeUnit.length]
    omega

theorem step_eq_ok_iff_of_isFixed (h : part.2.isFixed = true) :
    step dir t part = .ok u ↔ t.addMinutes? (dir.apply (minutesOf part)) = some u := by
  obtain ⟨n, unit⟩ := part
  cases unit with
  | month | year => cases h
  | day | week | hour | minute => exact step_of_minutes rfl

/-- The minutes of all amounts together. -/
def totalMinutes : List (Nat × TimeUnit) → Nat
  | [] => 0
  | part :: parts => minutesOf part + totalMinutes parts

/-- Amounts of fixed length add up from an ordinary second. -/
theorem foldlM_step_eq_ok_iff_of_isFixed (hfixed : ∀ part ∈ parts, part.2.isFixed = true)
    (h : t.time.second < 60) :
    parts.foldlM (step dir) t = .ok u ↔ u.IsMinutesFrom t (dir.apply (totalMinutes parts)) := by
  induction parts generalizing t with
  | nil =>
    have hzero : dir.apply (totalMinutes []) = 0 := Direction.apply_eq_zero_iff.2 rfl
    rw [hzero, Instant.isMinutesFrom_zero_iff]
    exact ⟨fun hu => (Except.ok.inj hu).symm, fun hu => congrArg Except.ok hu.symm⟩
  | cons part parts ih =>
    rw [List.forall_mem_cons] at hfixed
    rw [List.foldlM_cons, bind_eq_ok_iff, totalMinutes]
    constructor
    · rintro ⟨v, hv, hu⟩
      rw [step_eq_ok_iff_of_isFixed hfixed.1, Instant.addMinutes?_eq_some_iff_of_lt h] at hv
      have hsecond : v.time.second < 60 := hv.second_eq ▸ h
      rw [Direction.apply_add]
      exact hv.trans ((ih hfixed.2 hsecond).1 hu)
    · intro hu
      -- The first amount leads to an instant on the way, so the range has it.
      obtain ⟨v, hv⟩ := hu.exists_between (Direction.apply_between _ _)
      have hsecond : v.time.second < 60 := hv.second_eq ▸ h
      refine ⟨v, ?_, (ih hfixed.2 hsecond).2 ?_⟩
      · rw [step_eq_ok_iff_of_isFixed hfixed.1, Instant.addMinutes?_eq_some_iff_of_lt h]
        exact hv
      · have hback := hv.symm.trans hu
        rwa [Direction.apply_add, Int.neg_add_cancel_left] at hback

theorem shift_eq_ok_iff_of_isFixed (hd : d.isFixed = true) (h : t.time.second < 60) :
    d.shift dir t = .ok u ↔ u.IsMinutesFrom t (dir.apply (totalMinutes d.parts)) :=
  foldlM_step_eq_ok_iff_of_isFixed (isFixed_iff.1 hd) h

end Duration

end CasualDate
