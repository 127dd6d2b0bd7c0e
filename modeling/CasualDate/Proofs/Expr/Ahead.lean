import CasualDate.Expr.Duration
import CasualDate.Proofs.Error.Answers
import CasualDate.Proofs.Reckoning.Named

/-!
# Instants ahead

Where the parts of a duration lead to is said without the means of getting there: days and shorter
units by the time that passes, months by the name of the day (`Instant.IsAfter`). A step forward ends
there, and it is refused exactly if no instant of the range is there (`Duration.step_forward_eq_ok_iff`);
so is a list of steps, one taken from where the one before it ended
(`Duration.foldlM_step_forward_eq_ok_iff`).
-/

namespace CasualDate

namespace Instant

variable {t u v : Instant} {n : Nat} {part : Nat × TimeUnit} {parts : List (Nat × TimeUnit)}

/-- Nanoseconds since the midnight of day 0, as a clock counts them that stands still in a leap
second. -/
def nanoseconds (t : Instant) : Int :=
  (t.minutes * 60 + t.time.clockSecond) * 1000000000 + t.time.nanosecond

/-- The first instant is so many minutes after the second one. Only an instant itself is no minutes
after it, and no leap second is any minutes after anything. -/
structure IsMinutesAfter (u t : Instant) (n : Nat) : Prop where
  nanoseconds_eq : u.nanoseconds = t.nanoseconds + n * 60 * 1000000000
  eq_of_eq_zero : n = 0 → u = t
  second_lt : n ≠ 0 → u.time.second < 60

/-- The first instant is so many months after the second one, at the same time of the day with the
same number or, if its month does not have that day, of the last one. -/
structure IsMonthsAfter (u t : Instant) (n : Nat) : Prop where
  months_eq : 12 * u.date.year + u.date.month = 12 * t.date.year + t.date.month + n
  day_eq : u.date.day = min t.date.day (gregorian.daysInMonth u.date.year u.date.month)
  time_eq : u.time = t.time

/-- The first instant is so many of a unit after the second one. -/
def IsAfter (u t : Instant) : Nat × TimeUnit → Prop
  | (n, .minute) => u.IsMinutesAfter t n
  | (n, .hour) => u.IsMinutesAfter t (n * 60)
  | (n, .day) => u.IsMinutesAfter t (n * 1440)
  | (n, .week) => u.IsMinutesAfter t (n * 10080)
  | (n, .month) => u.IsMonthsAfter t n
  | (n, .year) => u.IsMonthsAfter t (n * 12)

/-- Each amount in its turn leads to another instant, and the last of them to `u`. -/
inductive LeadsTo : Instant → List (Nat × TimeUnit) → Instant → Prop where
  | nil {t : Instant} : LeadsTo t [] t
  | cons {t u v : Instant} {part : Nat × TimeUnit} {parts : List (Nat × TimeUnit)}
      (first : u.IsAfter t part) (rest : LeadsTo u parts v) : LeadsTo t (part :: parts) v

theorem leadsTo_nil_iff : LeadsTo t [] u ↔ u = t := by
  constructor
  · rintro ⟨⟩
    rfl
  · rintro rfl
    exact .nil

theorem leadsTo_cons_iff : LeadsTo t (part :: parts) v ↔ ∃ u, u.IsAfter t part ∧ LeadsTo u parts v := by
  constructor
  · intro h
    cases h with
    | cons first rest => exact ⟨_, first, rest⟩
  · rintro ⟨u, first, rest⟩
    exact .cons first rest

/-! ### Minutes -/

theorem minutes_eq (t : Instant) :
    t.minutes = t.date.dayNumber * 1440 + (t.time.hour * 60 + t.time.minute : Nat) := rfl

theorem inMinute?_eq_some_iff {minutes : Int} {second nanosecond : Nat} {hs : second ≤ 60}
    {hn : nanosecond < 1000000000} : inMinute? minutes second nanosecond hs hn = some u ↔
      u.minutes = minutes ∧ u.time.second = second ∧ u.time.nanosecond = nanosecond := by
  obtain ⟨d, hour, minute, s, k, hhour, hminute, hsecond, hnano⟩ := u
  rw [inMinute?, Option.map_eq_some_iff]
  simp only [minutes_eq, mk.injEq, TimeOfDay.mk.injEq]
  constructor
  · rintro ⟨e, he, rfl, hhours, hminutes, rfl, rfl⟩
    have := Date.dayNumber_ofDayNumber? he
    omega
  · rintro ⟨hmin, rfl, rfl⟩
    refine ⟨d, ?_, rfl, ?_, ?_, rfl, rfl⟩
    · rw [← d.ofDayNumber?_dayNumber]
      congr 1
      omega
    · omega
    · omega

theorem nanoseconds_eq (t : Instant) :
    t.nanoseconds = (t.minutes * 60 + min t.time.second 59) * 1000000000 + t.time.nanosecond := by
  unfold nanoseconds TimeOfDay.clockSecond
  omega

theorem addMinutes?_zero (t : Instant) : t.addMinutes? 0 = some t := by
  simp [addMinutes?, inMinute?_eq_some_iff]

theorem nanoseconds_add_eq_iff (hu : u.time.second < 60) :
    u.nanoseconds = t.nanoseconds + n * 60 * 1000000000 ↔ u.minutes = t.minutes + n ∧
      u.time.second = min t.time.second 59 ∧ u.time.nanosecond = t.time.nanosecond := by
  have hnano := t.time.nanosecond_lt
  have hnano' := u.time.nanosecond_lt
  rw [nanoseconds_eq, nanoseconds_eq]
  omega

/-- The second of an ordinary minute is kept, and a leap second counts as the one before it. -/
theorem addMinutes?_of_pos (t : Instant) (hpos : 0 < n) : t.addMinutes? n =
    inMinute? (t.minutes + n) (min t.time.second 59) t.time.nanosecond
      (Nat.le_trans (Nat.min_le_left ..) t.time.second_le) t.time.nanosecond_lt := by
  have hle := t.time.second_le
  unfold addMinutes?
  by_cases hleap : t.time.second < 60
  · have hsecond : min t.time.second 59 = t.time.second := by omega
    simp only [hleap, true_or, if_true, hsecond]
  · have hsecond : min t.time.second 59 = 59 := by omega
    have hcond : ¬(t.time.second < 60 ∨ (n : Int) = 0) := by omega
    have hforward : 0 < (n : Int) := by omega
    simp only [hcond, if_false, hforward, if_true, hsecond]

theorem addMinutes?_eq_some_iff : t.addMinutes? n = some u ↔ u.IsMinutesAfter t n := by
  rcases Nat.eq_zero_or_pos n with rfl | hpos
  · rw [Int.natCast_zero, addMinutes?_zero, Option.some.injEq]
    constructor
    · rintro rfl
      exact ⟨by omega, fun _ => rfl, fun h => absurd rfl h⟩
    · intro h
      exact (h.eq_of_eq_zero rfl).symm
  · rw [addMinutes?_of_pos t hpos, inMinute?_eq_some_iff]
    constructor
    · intro h
      have hsecond : u.time.second < 60 := by omega
      exact ⟨(nanoseconds_add_eq_iff hsecond).2 h, by omega, fun _ => hsecond⟩
    · intro h
      exact (nanoseconds_add_eq_iff (h.second_lt (by omega))).1 h.nanoseconds_eq

end Instant

/-! ### Months -/

namespace Date

variable {d e : Date} {n : Nat}

theorem addMonths?_eq_some_iff : d.addMonths? n = some e ↔
    12 * e.year + e.month = 12 * d.year + d.month + n ∧
      e.day = min d.day (gregorian.daysInMonth e.year e.month) := by
  have hpos := d.month_pos
  have hpos' := e.month_pos
  have hle := e.month_le
  rw [addMonths?, ofCivil?_eq_some_iff]
  constructor
  · rintro ⟨hyear, hmonth, hday⟩
    rw [← hyear, ← hmonth] at hday
    exact ⟨by omega, hday⟩
  · rintro ⟨hmonths, hday⟩
    have hyear : e.year = (12 * d.year + (d.month - 1 : Nat) + n) / 12 := by omega
    have hmonth : e.month = ((12 * d.year + (d.month - 1 : Nat) + n) % 12).toNat + 1 := by omega
    rw [← hyear, ← hmonth]
    exact ⟨rfl, rfl, hday⟩

end Date

namespace Duration

variable {dir : Direction} {t u v : Instant} {n per : Nat} {unit : TimeUnit} {part : Nat × TimeUnit}
  {parts : List (Nat × TimeUnit)} {d : Date}

/-- No date is so many months after another one that they could not be counted. -/
theorem shiftMonths_forward_eq_ok_iff :
    shiftMonths .forward t.date n per unit = .ok d ↔
      (⟨d, t.time⟩ : Instant).IsMonthsAfter t (n * per) := by
  have hafter : (⟨d, t.time⟩ : Instant).IsMonthsAfter t (n * per) ↔
      t.date.addMonths? (n * per : Nat) = some d := by
    rw [Date.addMonths?_eq_some_iff]
    exact ⟨fun h => ⟨h.months_eq, h.day_eq⟩, fun h => ⟨h.1, h.2, rfl⟩⟩
  rw [hafter, shiftMonths]
  split
  · next hmax =>
    refine iff_of_false (by rintro ⟨⟩) fun h => ?_
    have hmonths := (Date.addMonths?_eq_some_iff.1 h).1
    have := t.date.neg_le_year
    have := d.year_le
    have := d.month_le
    unfold maxMonths at hmax
    omega
  · simp only [Direction.apply]
    cases t.date.addMonths? (n * per : Nat) <;> simp

theorem step_of_minutes (h : part.2.length = .minutes per) :
    step dir t part = .ok u ↔ t.addMinutes? (dir.apply (part.1 * per)) = some u := by
  rw [step, h]
  dsimp only
  cases t.addMinutes? (dir.apply (part.1 * per)) <;> simp

theorem step_forward_of_minutes (h : part.2.length = .minutes per) :
    step .forward t part = .ok u ↔ u.IsMinutesAfter t (part.1 * per) :=
  (step_of_minutes h).trans Instant.addMinutes?_eq_some_iff

theorem step_forward_of_months (h : part.2.length = .months per) :
    step .forward t part = .ok u ↔ u.IsMonthsAfter t (part.1 * per) := by
  rw [step, h]
  dsimp only
  constructor
  · intro hu
    cases hd : shiftMonths .forward t.date part.1 per part.2 with
    | error => rw [hd] at hu; cases hu
    | ok d =>
      rw [hd] at hu
      cases hu
      exact shiftMonths_forward_eq_ok_iff.1 hd
  · intro hu
    have hd : u = ⟨u.date, t.time⟩ := by rw [← hu.time_eq]
    rw [hd] at hu ⊢
    rw [shiftMonths_forward_eq_ok_iff.2 hu]
    rfl

/-- A step forward leads to the instant that is ahead, if there is one in the range. -/
theorem step_forward_eq_ok_iff : step .forward t part = .ok u ↔ u.IsAfter t part := by
  obtain ⟨n, unit⟩ := part
  cases unit with
  | minute => exact (step_forward_of_minutes rfl).trans (by rw [Nat.mul_one]; rfl)
  | hour | day | week => exact step_forward_of_minutes rfl
  | month => exact (step_forward_of_months rfl).trans (by rw [Nat.mul_one]; rfl)
  | year => exact step_forward_of_months rfl

theorem foldlM_step_forward_eq_ok_iff :
    parts.foldlM (step .forward) t = .ok v ↔ t.LeadsTo parts v := by
  induction parts generalizing t with
  | nil =>
    rw [List.foldlM_nil, Instant.leadsTo_nil_iff]
    exact ⟨fun h => (Except.ok.inj h).symm, fun h => congrArg Except.ok h.symm⟩
  | cons part parts ih =>
    rw [List.foldlM_cons, bind_eq_ok_iff, Instant.leadsTo_cons_iff]
    exact exists_congr fun u => and_congr step_forward_eq_ok_iff ih

end Duration

theorem Instant.LeadsTo.unique {t u v : Instant} {parts : List (Nat × TimeUnit)}
    (hu : t.LeadsTo parts u) (hv : t.LeadsTo parts v) : u = v :=
  Except.ok.inj ((Duration.foldlM_step_forward_eq_ok_iff.2 hu).symm.trans
    (Duration.foldlM_step_forward_eq_ok_iff.2 hv))

end CasualDate
