import CasualDate.Proofs.Finder.Breakdown
import CasualDate.Proofs.Reading.InBounds
import CasualDate.Proofs.Resolver.ByShape
import CasualDate.Proofs.Resolver.TwoPasses
import CasualDate.Proofs.Resolver.WholeSecond

/-!
# When resolving breaks down

From a current instant in year 0 or later, and more than a week before the end of the range, the
first search of a text answers, a week is counted back or forward within the range, and calendars at
most refuse. Only the second search can break down: in the first week of year 0 it starts in year
-1, and from there a two-digit year has no century (`Resolver.resolveAt_eq_broken_iff`).
-/

namespace CasualDate

namespace Date

variable {d x : Date}

theorem neg_le_dayNumber (h : 0 ≤ d.year) : -365 ≤ d.dayNumber :=
  le_year_iff.1 h

theorem hasRoom_of_week (hyear : 0 ≤ d.year) (hend : d.dayNumber + 6 ≤ lastDay)
    (hle : x.dayNumber ≤ d.dayNumber) (hsix : d.dayNumber ≤ x.dayNumber + 6) : x.HasRoom := by
  have hlow := neg_le_dayNumber hyear
  unfold lastDay at hend
  exact ⟨by unfold firstDay; omega, by unfold lastDay; omega⟩

theorem hasRoom (hyear : 0 ≤ d.year) (hend : d.dayNumber + 7 ≤ lastDay) : d.HasRoom :=
  hasRoom_of_week hyear (by omega) (Int.le_refl _) (by omega)

theorem neg_one_le_year (hyear : 0 ≤ d.year) (hsix : d.dayNumber ≤ x.dayNumber + 6) :
    -1 ≤ x.year := by
  have hlow := neg_le_dayNumber hyear
  have hbegin : gregorian.newYear (-1) = -730 := by decide
  exact le_year_iff.2 (by omega)

end Date

namespace Calendar

variable {c : Calendar} {now : Instant} {p : Period} {cause : Breakdown}

theorem endOf_ne_broken (h : now.date.HasRoom) : c.endOf now p ≠ .error (.broken cause) := by
  have hlast : c.lastDayOf now.date p ≠ .error (.broken cause) := by
    cases p with
    | week =>
      have := now.date.weekday.daysUntil_lt c.weekStart.pred
      exact h.orOffCalendar_ne_broken (by omega) (by omega)
    | month | year => exact orRefuse_ne_broken _
  rwa [endOf, Ne, bind_pure_eq_error_iff]

theorem addOne_ne_broken (h : now.date.dayNumber + 7 ≤ lastDay) :
    c.addOne now p ≠ .error (.broken cause) := by
  have hdate : c.dateOneOn now.date p ≠ .error (.broken cause) := by
    cases p with
    | week =>
      have hlow : firstDay ≤ now.date.dayNumber + 7 :=
        Int.le_trans now.date.firstDay_le (Int.le_add_of_nonneg_right (by decide))
      simp [dateOneOn, Date.addDays?, Date.ofDayNumber?_eq_some hlow h, orOffCalendar]
    | month | year => exact orRefuse_ne_broken _
  rwa [addOne, Ne, bind_pure_eq_error_iff]

end Calendar

namespace Resolver

variable {r : Resolver} {text pattern remainder : String} {weekStart : Weekday} {now : Instant}
  {cause : Breakdown} {answer : Bool × Instant}

/-- Six days behind the first day of the range every week has begun in it. -/
theorem exists_startOfWeek (weekStart : Weekday) (hlow : firstDay + 6 ≤ now.date.dayNumber) :
    ∃ reference, startOfWeek now weekStart = .ok reference := by
  have hdays := weekStart.daysUntil_lt now.date.weekday
  have hhigh := now.date.le_lastDay
  have hback : ∃ reference,
      now.addDays? (-(weekStart.daysUntil now.date.weekday)) = some reference := by
    by_cases h : now.time.second < 60 ∨ -(weekStart.daysUntil now.date.weekday : Int) = 0
    · rw [Instant.addDays?_eq h, Date.addDays?, Date.ofDayNumber?_eq_some (by omega) (by omega)]
      exact ⟨_, rfl⟩
    · have := now.time.second_le
      obtain ⟨reference, hreference, -⟩ := Instant.addDays?_leap (t := now)
        (n := -(weekStart.daysUntil now.date.weekday)) (by omega) (by omega) (by omega) (by omega)
      exact ⟨reference, hreference⟩
  obtain ⟨reference, hreference⟩ := hback
  exact ⟨reference, by rw [startOfWeek, hreference]; rfl⟩

theorem exists_anchor (r : Resolver) (text : String) (weekStart : Weekday)
    (hyear : 0 ≤ now.date.year) (hend : now.date.dayNumber + 7 ≤ lastDay) :
    ∃ certain reference, r.anchor text weekStart now = .ok (certain, reference) ∧
      reference.date.dayNumber ≤ now.date.dayNumber ∧
      now.date.dayNumber ≤ reference.date.dayNumber + 6 ∧ (certain = true ∨ reference = now) := by
  have hnow : now.date.HasRoom := Date.hasRoom hyear hend
  obtain ⟨cs, hfind⟩ : ∃ cs, r.finder.find { text, reference := now, now } = .ok cs :=
    Finder.exists_find hnow hyear
  rw [anchor_of_find hfind]
  cases namesWeekday cs with
  | false => exact ⟨false, now, rfl, Int.le_refl _, by omega, .inr rfl⟩
  | true =>
    have hlow := Date.neg_le_dayNumber hyear
    obtain ⟨reference, hstart⟩ := exists_startOfWeek weekStart
      (show firstDay + 6 ≤ now.date.dayNumber by unfold firstDay; omega)
    obtain ⟨hle, hsix⟩ := dayNumber_of_startOfWeek hstart
    exact ⟨true, reference, by rw [if_pos rfl, hstart]; rfl, hle, hsix, .inl rfl⟩

theorem monthEnd_ne_broken (hyear : 0 ≤ now.date.year) (hend : now.date.dayNumber + 7 ≤ lastDay) :
    r.monthEnd remainder now ≠ .error (.broken cause) := by
  have hnow : now.date.HasRoom := Date.hasRoom hyear hend
  obtain ⟨cs, hfind⟩ : ∃ cs, r.finder.find { text := remainder, reference := now, now } = .ok cs :=
    Finder.exists_find hnow hyear
  rw [monthEnd, hfind]
  cases cs with
  | nil => simp [bind, Except.bind]
  | cons c cs =>
    refine fun hcause => orRefuse_ne_broken _ ((bind_eq_broken_iff fun day => ?_).1 hcause)
    split
    · simp
    · exact orRefuse_ne_broken _

theorem rendered_eq_broken_iff {x : Except Failure Instant} :
    r.rendered pattern x = .error (.broken cause) ↔ x = .error (.broken cause) :=
  bind_eq_broken_iff fun _ => mt map_eq_error_iff.1 (orRefuse_ne_broken _)

theorem resolveAt_eq_broken_iff (hyear : 0 ≤ now.date.year)
    (hend : now.date.dayNumber + 7 ≤ lastDay) :
    r.resolveAt text weekStart pattern now = .error (.broken cause) ↔
      cause = .noCentury ∧ Shape.ofText text = .other ∧
        ∃ reference, r.anchor text weekStart now = .ok (true, reference) ∧
          reference.date.year < 0 ∧
          Step.Meets (fun e => e.asksCentury = true) reference (Token.lex text.toList) := by
  have hnow : now.date.HasRoom := Date.hasRoom hyear hend
  obtain ⟨certain, reference, hanchor, hle, hsix, hcertain⟩ :=
    r.exists_anchor text weekStart hyear hend
  have hroom : reference.date.HasRoom := Date.hasRoom_of_week hyear (by omega) hle hsix
  have hlow : -1 ≤ reference.date.year := Date.neg_one_le_year hyear hsix
  rw [hanchor]
  cases hshape : Shape.ofText text with
  | endOfPeriod p =>
    rw [resolveAt_endOfPeriod hshape hanchor, rendered_eq_broken_iff]
    simpa using r.calendar.endOf_ne_broken hnow
  | onePeriodOn p =>
    rw [resolveAt_onePeriodOn hshape hanchor, rendered_eq_broken_iff]
    simpa using r.calendar.addOne_ne_broken hend
  | monthEnd remainder =>
    rw [resolveAt_monthEnd hshape hanchor, map_eq_error_iff]
    simpa using r.monthEnd_ne_broken hyear hend
  | midMonth word =>
    rw [resolveAt_midMonth hshape hanchor, map_eq_error_iff, Finder.findDate, map_eq_error_iff,
      Finder.find_eq_broken_iff hnow]
    simp
    omega
  | other =>
    -- The search starts from the current instant, or from the beginning of its week. Only this one
    -- can lie before year 0.
    rw [resolveAt_other hshape hanchor, map_eq_error_iff, Finder.findDate, map_eq_error_iff,
      Finder.find_eq_broken_iff hroom]
    simp only [true_and, Except.ok.injEq, Prod.mk.injEq]
    constructor
    · rintro ⟨rfl, -, hneg, hmeets⟩
      have hnot : reference ≠ now := fun heq => by
        rw [heq] at hneg
        omega
      exact ⟨rfl, reference, ⟨hcertain.resolve_right hnot, rfl⟩, hneg, hmeets⟩
    · rintro ⟨rfl, _, ⟨-, rfl⟩, hneg, hmeets⟩
      exact ⟨rfl, by omega, hneg, hmeets⟩

/-- A text is answered or refused, unless it is searched from a week that began before year 0 and
this search comes to a date with a two-digit year. Nothing is cut out of it, or of the pattern, out
of bounds. -/
theorem resolveAt_breaksDown_iff (hyear : 0 ≤ now.date.year)
    (hend : now.date.dayNumber + 7 ≤ lastDay) :
    ((∃ cause, r.resolveAt text weekStart pattern now = .error (.broken cause)) ↔
      Shape.ofText text = .other ∧
        ∃ reference, r.anchor text weekStart now = .ok (true, reference) ∧
          reference.date.year < 0 ∧
          Step.Meets (fun e => e.asksCentury = true) reference (Token.lex text.toList)) ∧
      ReadsInBounds text pattern := by
  refine ⟨?_, readsInBounds text pattern⟩
  simp only [resolveAt_eq_broken_iff hyear hend, exists_eq_left]

/-- On 17 April 2024 no week began before year 0. -/
theorem resolveAt_breaksDown_iff_april17 :
    let now : Instant := ⟨⟨738993, by decide, by decide⟩, .midnight⟩
    let r : Resolver := ⟨⟨Recognizer.builtin⟩, .gregorian, now⟩
    let text := "friday or 1/2/3"
    0 ≤ now.date.year ∧ now.date.dayNumber + 7 ≤ lastDay ∧
      ((∃ cause, r.resolveAt text .sunday "" now = .error (.broken cause)) ↔
        Shape.ofText text = .other ∧
          ∃ reference, r.anchor text .sunday now = .ok (true, reference) ∧
            reference.date.year < 0 ∧
            Step.Meets (fun e => e.asksCentury = true) reference (Token.lex text.toList)) ∧
      ReadsInBounds text "" := by
  intro now r text
  have hyear : 0 ≤ now.date.year := by decide +kernel
  have hend : now.date.dayNumber + 7 ≤ lastDay := by decide
  exact ⟨hyear, hend, resolveAt_breaksDown_iff hyear hend⟩

/-- On 1 January of year 0, a Saturday, the week began on 26 December of year -1. From there "1/2/3"
has no century, though "friday" is what the text is about. -/
theorem resolveAt_newYearZero :
    let time : TimeOfDay := ⟨10, 30, 0, 0, by decide, by decide, by decide, by decide⟩
    let now : Instant := ⟨⟨-365, by decide, by decide⟩, time⟩
    let r : Resolver := ⟨⟨Recognizer.builtin⟩, .gregorian, now⟩
    0 ≤ now.date.year ∧ now.date.dayNumber + 7 ≤ lastDay ∧
      r.resolveAt "friday or 1/2/3" .sunday "" now = .error (.broken .noCentury) := by
  intro time now r
  let text := "friday or 1/2/3"
  let sunday : Instant := ⟨⟨-371, by decide, by decide⟩, time⟩
  have hshape : Shape.ofText text = .other := by decide +kernel
  have hanchor : r.anchor text .sunday now = .ok (true, sunday) := by
    rw [anchor, Finder.find_of_isEmpty_attempts (by decide +kernel), Finder.find_unaided]
    decide +kernel
  have hfind : r.finder.find { text, reference := sunday, now } = .error (.broken .noCentury) := by
    rw [Finder.find_of_isEmpty_attempts (by decide +kernel), Finder.find_unaided]
    decide +kernel
  refine ⟨by decide +kernel, by decide, ?_⟩
  rw [resolveAt_other hshape hanchor, Finder.findDate, hfind]
  rfl

end Resolver

end CasualDate
