import CasualDate.Proofs.Calendar.MonthEnd
import CasualDate.Proofs.Reading.MonthPhrase
import CasualDate.Proofs.Resolver.Weekless
import CasualDate.Proofs.Resolver.WholeSecond

/-!
# The middle of a month

"mid april" means the next 15th of April at the current time of day: this one if it has not passed,
else that of the year after (`resolveAt_mid`). The phrase is searched for once as it stands and finds
the name of the month only; what is then searched for, the name with "15th" behind it, is one
expression.
-/

namespace CasualDate

namespace Instant

/-- The instant is in a 15th of the month, and a clock without leap seconds shows the same hour, minute
and second as at `now`. -/
structure IsMiddle (u : Instant) (m : Month) (now : Instant) : Prop where
  month : u.date.month = m.number
  day : u.date.day = 15
  hour : u.time.hour = now.time.hour
  minute : u.time.minute = now.time.minute
  second : u.time.clockSecond = now.time.clockSecond

/-- `t` is the first middle of the month that is not before `now`. -/
structure IsNextMiddle (t : Instant) (m : Month) (now : Instant) : Prop where
  isMiddle : t.IsMiddle m now
  notBefore : t.isBefore now = false
  earliest : ∀ u : Instant, u.IsMiddle m now → u.isBefore now = false → u.isBefore t = false

variable {m : Month} {now t u : Instant}

theorem isBefore_of_year_lt (h : t.date.year < u.date.year) : t.isBefore u = true :=
  decide_eq_true (rank_lt_rank (Date.dayNumber_lt_of_year_lt h))

theorem IsMiddle.date_eq (ht : t.IsMiddle m now) (hu : u.IsMiddle m now)
    (h : u.date.year = t.date.year) : u.date = t.date := by
  have hname : Date.ofCivil? t.date.year t.date.month t.date.day = some u.date :=
    Date.ofCivil?_eq_some_iff.2 ⟨h, hu.month.trans ht.month.symm, hu.day.trans ht.day.symm⟩
  exact Option.some.inj (hname.symm.trans t.date.ofCivil?_civil)

/-- Of the middles of one year the one at the whole second is the first. -/
theorem IsMiddle.isBefore_eq_false (ht : t.IsMiddle m now) (hu : u.IsMiddle m now)
    (hsharp : now.time.nanosecond = 0) (hsecond : now.time.second < 60) (htime : t.time = now.time)
    (hyear : t.date.year ≤ u.date.year) : u.isBefore t = false := by
  rcases Int.lt_or_eq_of_le hyear with hlt | heq
  · have := rank_lt_rank (Date.dayNumber_lt_of_year_lt hlt)
    exact decide_eq_false (by omega)
  · have hdate := ht.date_eq hu heq.symm
    have hhour := hu.hour
    have hminute := hu.minute
    have hclock := hu.second
    unfold TimeOfDay.clockSecond at hclock
    simp only [isBefore, rank, hdate, htime, TimeOfDay.rank, decide_eq_false_iff_not]
    omega

theorem IsMiddle.isNextMiddle (ht : t.IsMiddle m now) (hsharp : now.time.nanosecond = 0)
    (hsecond : now.time.second < 60) (htime : t.time = now.time) (hnot : t.isBefore now = false)
    (hyear : ∀ u : Instant, u.IsMiddle m now → u.isBefore now = false →
      t.date.year ≤ u.date.year) : t.IsNextMiddle m now :=
  ⟨ht, hnot, fun u hu hnotBefore =>
    ht.isBefore_eq_false hu hsharp hsecond htime (hyear u hu hnotBefore)⟩

theorem IsNextMiddle.unique (ht : t.IsNextMiddle m now) (hu : u.IsNextMiddle m now) : t = u := by
  have htu := hu.earliest t ht.isMiddle ht.notBefore
  have hut := ht.earliest u hu.isMiddle hu.notBefore
  simp only [isBefore, decide_eq_false_iff_not] at htu hut
  exact rank_inj.1 (by omega)

theorem le_year_of_not_isBefore (h : u.isBefore now = false) : now.date.year ≤ u.date.year := by
  refine Int.not_lt.1 fun hlt => ?_
  rw [isBefore_of_year_lt hlt] at h
  cases h

theorem IsMiddle.isNextMiddle_of_year_eq (ht : t.IsMiddle m now) (hsharp : now.time.nanosecond = 0)
    (hsecond : now.time.second < 60) (htime : t.time = now.time)
    (hyear : t.date.year = now.date.year) (hnot : t.isBefore now = false) :
    t.IsNextMiddle m now :=
  ht.isNextMiddle hsharp hsecond htime hnot fun _ _ hu => hyear ▸ le_year_of_not_isBefore hu

theorem IsMiddle.isNextMiddle_of_isYearAfter (ht : t.IsMiddle m now) (hu : u.IsYearAfter t)
    (hsharp : now.time.nanosecond = 0) (hsecond : now.time.second < 60) (htime : t.time = now.time)
    (hyear : t.date.year = now.date.year) (hbefore : t.isBefore now = true) :
    u.IsNextMiddle m now := by
  have hmiddle : u.IsMiddle m now :=
    ⟨hu.month.trans ht.month, hu.day.trans ht.day, hu.time ▸ ht.hour, hu.time ▸ ht.minute,
      hu.time ▸ ht.second⟩
  have hnot : u.isBefore now = false := hu.isBefore_eq_false (.inl hyear)
  refine hmiddle.isNextMiddle hsharp hsecond (hu.time.trans htime) hnot fun v hv hvnot => ?_
  have hle := le_year_of_not_isBefore hvnot
  rcases Int.lt_or_eq_of_le hle with hlt | heq
  · have := hu.year
    omega
  · -- The day of the middle that has passed is over, and with it all middles of this year.
    have hdate := ht.date_eq hv (heq.symm.trans hyear.symm)
    have hover : v.isBefore now = true := by
      simp only [isBefore, rank, htime, decide_eq_true_eq] at hbefore
      exact decide_eq_true (rank_lt_rank (by rw [hdate]; omega))
    rw [hvnot] at hover
    cases hover

end Instant

namespace DateExpr

variable {m : Month} {today d : Date}

theorem evaluate_monthDay {n : Nat} (h : Date.ofCivil? today.year m.number n = some d) :
    (monthDay m n).evaluate today = .ok d := by
  simp [evaluate, inYearOf, h, orRefuse_ok]

end DateExpr

namespace Resolver

variable {r : Resolver} {m : Month} {names : List String} {name pattern : String}
  {weekStart : Weekday} {now : Instant}

theorem mid_spec (hspelled : (.month m, names) ∈ Word.spellings) (hname : name ∈ names) :
    Shape.ofText ("mid " ++ name) = .midMonth name ∧
      Token.words ("mid " ++ name).toList = [.unknown, .month m] := by
  have hall : ∀ m, ∀ entry ∈ Word.spellings, entry.1 = .month m → ∀ name ∈ entry.2,
      Shape.ofText ("mid " ++ name) = .midMonth name ∧
        Token.words ("mid " ++ name).toList = [.unknown, .month m] := by
    intro m
    cases m <;> decide +kernel
  exact hall m _ hspelled rfl name hname

/-- The phrase itself names no weekday: what is found in it is the name of the month. -/
theorem anchor_mid (hfinder : r.finder = ⟨Recognizer.builtin⟩)
    (hspelled : (.month m, names) ∈ Word.spellings) (hname : name ∈ names) :
    r.anchor ("mid " ++ name) weekStart now = .ok (false, now) := by
  obtain ⟨-, hwords⟩ := mid_spec hspelled hname
  refine anchor_of_isWeekless hfinder ?_
  rw [hwords]
  exact .cons (MomentExpr.parse?_eq_none rfl) (.of_reads_date rfl
    (DateExpr.reads_month Number.parse?_nil) MomentExpr.timeAfter_nil rfl (fun _ => orRefuse_ne_broken _) .nil .nil)

/-- The name of a month with "15th" behind it is found as a whole, in the current year. -/
theorem findDate_fifteenth (hspelled : (.month m, names) ∈ Word.spellings) (hname : name ∈ names)
    {day : Date} (hday : Date.ofCivil? now.date.year m.number 15 = some day) :
    ∃ c : Candidate, c.fields.isCertain .year = false ∧
      c.date? = some (Instant.onClock ⟨day, now.time⟩) ∧
      (Finder.mk Recognizer.builtin).findDate
        { text := midMonthPhrase name, reference := now, now, forward := true } =
          .ok (c.forward now).date? := by
  have hvalue : (MomentExpr.dateTime (.monthDay m 15) .unstated).evaluate now =
      .ok ⟨day, now.time⟩ := by
    rw [MomentExpr.evaluate, DateExpr.evaluate_monthDay hday]
    rfl
  let c : Candidate := ⟨0, midMonthPhrase name,
    .ofStated ⟨day, now.time⟩ { month := true, day := true }, .grammar⟩
  obtain ⟨cs, hfind, hhead⟩ : ∃ cs, (Finder.mk Recognizer.builtin).find
      { text := midMonthPhrase name, reference := now, now } = .ok cs ∧ cs.head? = some c := by
    refine Finder.head?_find (e := .dateTime (.monthDay m 15) .unstated) ?_ hvalue rfl
    exact MomentExpr.fills_monthDay hspelled hname
  refine ⟨c, rfl, Components.date?_ofStated _, ?_⟩
  rw [Finder.findDate_ahead, hfind]
  simp only [Except.map, hhead, Option.bind_some]

/-- "mid april" means the next 15th of April, at the current hour, minute and second. There is no
fraction of a second, so no leap second either, which clocks count as a fraction past second 59. -/
theorem resolveAt_mid (hfinder : r.finder = ⟨Recognizer.builtin⟩)
    (hspelled : (.month m, names) ∈ Word.spellings) (hname : name ∈ names)
    (hsharp : now.time.nanosecond = 0) (hsecond : now.time.second < 60)
    (hyear : now.date.year ≤ 262141) :
    ∃ t, r.resolveAt ("mid " ++ name) weekStart pattern now = .ok (.date t) ∧
      t.IsNextMiddle m now := by
  obtain ⟨day, hday⟩ := Option.isSome_iff_exists.1
    (now.date.isSome_ofCivil?_iff.2 (m.hasDate_of_le now.date.year (n := 15) (by decide) (by decide)))
  obtain ⟨hdayYear, hdayMonth, hdayDay⟩ := Date.ofCivil?_eq_some_iff.1 hday
  obtain ⟨c, huncertain, hdate, hfind⟩ := findDate_fifteenth hspelled hname hday
  rw [Instant.onClock, TimeOfDay.onClock_eq_self hsharp hsecond] at hdate
  have hmiddle : Instant.IsMiddle ⟨day, now.time⟩ m now := ⟨hdayMonth, hdayDay, rfl, rfl, rfl⟩
  rw [resolveAt_midMonth (mid_spec hspelled hname).1 (anchor_mid hfinder hspelled hname), hfinder,
    hfind]
  cases hbefore : Instant.isBefore ⟨day, now.time⟩ now with
  | false =>
    have hstays : ¬c.IsLeftBehind now ⟨day, now.time⟩ := fun hleft => by
      rw [hleft.isBefore] at hbefore
      cases hbefore
    rw [Candidate.forward_eq_self hstays hdate, hdate]
    exact ⟨_, rfl, hmiddle.isNextMiddle_of_year_eq hsharp hsecond rfl hdayYear hbefore⟩
  | true =>
    have hlow : -262143 ≤ now.date.year :=
      Date.le_year_iff.2 (firstDay_eq ▸ now.date.firstDay_le)
    obtain ⟨next, hnext⟩ := Date.exists_ofCivil? (y := now.date.year + 1) (by omega) (by omega)
      (m.hasDate_of_le (now.date.year + 1) (n := 15) (by decide) (by decide))
    obtain ⟨hnextYear, hnextMonth, hnextDay⟩ := Date.ofCivil?_eq_some_iff.1 hnext
    have hafter : Instant.IsYearAfter ⟨next, now.time⟩ ⟨day, now.time⟩ :=
      ⟨hnextYear.trans (by rw [hdayYear]), hnextMonth.trans hdayMonth.symm,
        hnextDay.trans hdayDay.symm, rfl⟩
    have hleft : c.IsLeftBehind now ⟨day, now.time⟩ := ⟨huncertain, hbefore, _, hafter⟩
    rw [hleft.forward_eq hdate, (Candidate.date?_nextYear huncertain hdate).2 hafter]
    exact ⟨_, rfl, hmiddle.isNextMiddle_of_isYearAfter hafter hsharp hsecond rfl hdayYear hbefore⟩

/-- On 15 April 2024 the middle of April is that moment. -/
theorem isNextMiddle_april :
    let now : Instant := ⟨⟨738991, by decide, by decide⟩,
      ⟨10, 30, 0, 0, by decide, by decide, by decide, by decide⟩⟩
    now.IsNextMiddle .april now ∧
      (Resolver.mk ⟨Recognizer.builtin⟩ .gregorian now).resolveAt "mid apr" .sunday "" now =
        .ok (.date now) := by
  intro now
  have hname : "apr" ∈ ["april", "apr"] := by decide
  have hnow : now.IsMiddle .april now := ⟨by decide +kernel, by decide +kernel, rfl, rfl, rfl⟩
  have hmiddle : now.IsNextMiddle .april now :=
    hnow.isNextMiddle_of_year_eq rfl (by decide) rfl rfl (by decide)
  obtain ⟨t, hanswer, hnext⟩ := @resolveAt_mid ⟨⟨Recognizer.builtin⟩, .gregorian, now⟩ .april
    ["april", "apr"] "apr" "" .sunday now rfl (by decide) hname rfl (by decide) (by decide +kernel)
  obtain rfl : t = now := hnext.unique hmiddle
  exact ⟨hmiddle, hanswer⟩

end Resolver

end CasualDate
