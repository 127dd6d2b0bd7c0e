import CasualDate.Proofs.Instant.Days
import CasualDate.Proofs.Reading.Moment
import CasualDate.Proofs.Resolver.WholeText

/-!
# Weekdays of the current week

A weekday, alone or after "this", "next" or "last", is counted from the beginning of the current
week, so the four phrases name days of that week, the week after it and the week before. From a leap
second this holds only on the first day of the week: on the others, counting back to that day leaves
the minute (`Instant.addDays?_leap`), and both date and time come out wrong.
-/

namespace CasualDate

namespace Date

/-- `w` is the last day up to `d` that falls on the weekday. -/
structure IsLatest (w : Date) (a : Weekday) (d : Date) : Prop where
  weekday : w.weekday = a
  le : w.dayNumber ≤ d.dayNumber
  latest : ∀ x : Date, x.weekday = a → x.dayNumber ≤ d.dayNumber → x.dayNumber ≤ w.dayNumber

/-- `t` is the one of the seven days from `w` on that falls on the weekday. -/
structure IsInWeek (t : Date) (a : Weekday) (w : Date) : Prop where
  weekday : t.weekday = a
  le : w.dayNumber ≤ t.dayNumber
  le_six : t.dayNumber ≤ w.dayNumber + 6

variable {a : Weekday} {d w t : Date}

theorem isLatest_of_eq (h : w.dayNumber = d.dayNumber - a.daysUntil d.weekday) :
    w.IsLatest a d := by
  have ha := a.index_lt
  have hd := d.index_weekday
  have huntil : a.daysUntil d.weekday = (7 + d.weekday.index - a.index) % 7 := rfl
  refine ⟨weekday_eq_iff.2 (by omega), by omega, fun x hx hle => ?_⟩
  rw [weekday_eq_iff] at hx
  omega

theorem isInWeek_of_eq (h : t.dayNumber = w.dayNumber + w.weekday.daysUntil a) :
    t.IsInWeek a w := by
  have ha := a.index_lt
  have hw := w.index_weekday
  have huntil : w.weekday.daysUntil a = (7 + a.index - w.weekday.index) % 7 := rfl
  exact ⟨weekday_eq_iff.2 (by omega), by omega, by omega⟩

end Date

namespace DateExpr

variable {q : Option Relative} {d : Weekday} {today x : Date}

def weekdayOf (d : Weekday) : Option Relative → DateExpr
  | none => weekday d
  | some r => relativeWeekday r d

theorem exists_weekdayOf (q : Option Relative) (d : Weekday) (hlow : firstDay + 7 ≤ today.dayNumber)
    (hhigh : today.dayNumber + 14 ≤ lastDay) :
    ∃ x : Date, x.dayNumber =
      today.dayNumber + today.weekday.daysUntil d + 7 * (q.map Relative.weeks).getD 0 := by
  have hdays := today.weekday.daysUntil_lt d
  have hweeks : -1 ≤ (q.map Relative.weeks).getD 0 ∧ (q.map Relative.weeks).getD 0 ≤ 1 := by
    rcases q with _ | _ | _ | _ <;> decide
  exact ⟨⟨_, by omega, by omega⟩, rfl⟩

theorem evaluate_weekdayOf
    (h : x.dayNumber =
      today.dayNumber + today.weekday.daysUntil d + 7 * (q.map Relative.weeks).getD 0) :
    (weekdayOf d q).evaluate today = .ok x := by
  have hx : Date.ofDayNumber? x.dayNumber = some x := x.ofDayNumber?_dayNumber
  cases q with
  | none =>
    rw [show x.dayNumber = today.dayNumber + today.weekday.daysUntil d by simpa using h] at hx
    simp [weekdayOf, evaluate, Date.addDays?, hx, orOffCalendar]
  | some r =>
    rw [show x.dayNumber = today.dayNumber + weekdayOffset today.weekday r d by
      rw [weekdayOffset_eq]; simp at h; omega] at hx
    simp [weekdayOf, evaluate, Date.addDays?, hx]

end DateExpr

/-- A weekday as a phrase, alone or after the word for the week that is meant. -/
def weekdayPhrase (name : String) : Option Relative → String
  | none => name
  | some .current => "this " ++ name
  | some .following => "next " ++ name
  | some .previous => "last " ++ name

namespace Resolver

variable {q : Option Relative} {d weekStart : Weekday} {names : List String} {name : String}
  {now : Instant}

def weekdayWords (d : Weekday) : Option Relative → List Word
  | none => [.weekday d]
  | some r => [.relative r, .weekday d]

/-- None of the phrases has a special shape, although one of them begins with "this" and another
with "next". -/
theorem weekdayPhrase_spec (hspelled : (.weekday d, names) ∈ Word.spellings) (hname : name ∈ names) :
    Token.Tight (weekdayPhrase name q).toList ∧
      Token.words (weekdayPhrase name q).toList = weekdayWords d q ∧
      Shape.ofText (weekdayPhrase name q) = .other := by
  have hall : ∀ d, ∀ entry ∈ Word.spellings, entry.1 = .weekday d → ∀ name ∈ entry.2,
      ∀ q ∈ [none, some .current, some .following, some .previous],
        Token.Tight (weekdayPhrase name q).toList ∧
          Token.words (weekdayPhrase name q).toList = weekdayWords d q ∧
          Shape.ofText (weekdayPhrase name q) = .other := by
    intro d
    cases d <;> decide +kernel
  refine hall d _ hspelled rfl name hname q ?_
  rcases q with _ | _ | _ | _ <;> decide

theorem reads_weekdayWords :
    Reads MomentExpr.parse? (weekdayWords d q) (.dateTime (.weekdayOf d q) .unstated) [] := by
  cases q with
  | none =>
    exact MomentExpr.reads_date (by simp [weekdayWords, MomentExpr.isOpening])
      DateExpr.reads_weekday MomentExpr.timeAfter_nil
  | some r =>
    exact MomentExpr.reads_date (by simp [weekdayWords, MomentExpr.isOpening])
      DateExpr.reads_relativeWeekday MomentExpr.timeAfter_nil

theorem fills_weekdayPhrase (hspelled : (.weekday d, names) ∈ Word.spellings)
    (hname : name ∈ names) :
    (MomentExpr.dateTime (.weekdayOf d q) .unstated).Fills (weekdayPhrase name q) := by
  obtain ⟨htight, hwords, -⟩ := weekdayPhrase_spec (q := q) hspelled hname
  exact ⟨htight, hwords ▸ reads_weekdayWords, rfl⟩

theorem evaluate_weekdayOf (reference : Instant) {x : Date}
    (h : x.dayNumber = reference.date.dayNumber + reference.date.weekday.daysUntil d +
      7 * (q.map Relative.weeks).getD 0) :
    (MomentExpr.dateTime (.weekdayOf d q) .unstated).evaluate reference =
      .ok ⟨x, reference.time⟩ := by
  rw [MomentExpr.evaluate, DateExpr.evaluate_weekdayOf h]
  rfl

/-- The answer to a phrase is counted from the instant that the week is taken to begin at. -/
theorem resolveAt_weekdayPhrase (r : Resolver) (pattern : String) {reference : Instant} {x : Date}
    (hspelled : (.weekday d, names) ∈ Word.spellings) (hname : name ∈ names)
    (hlow : firstDay + 14 ≤ now.date.dayNumber) (hhigh : now.date.dayNumber + 14 ≤ lastDay)
    (hweek : startOfWeek now weekStart = .ok reference)
    (h : x.dayNumber = reference.date.dayNumber + reference.date.weekday.daysUntil d +
      7 * (q.map Relative.weeks).getD 0) :
    r.resolveAt (weekdayPhrase name q) weekStart pattern now =
      .ok (.date ⟨x, reference.time.onClock⟩) := by
  have hfills := fills_weekdayPhrase (q := q) hspelled hname
  have hanchor : r.anchor (weekdayPhrase name q) weekStart now = .ok (true, reference) := by
    obtain ⟨first, hfirst⟩ := DateExpr.exists_weekdayOf q d (by omega) hhigh
    have hstated : (MomentExpr.dateTime (.weekdayOf d q) .unstated).stated.weekday = true := by
      cases q <;> rfl
    rw [anchor_eq hfills (evaluate_weekdayOf now hfirst), hstated, hweek]
    rfl
  exact resolveAt_eq hfills (weekdayPhrase_spec (q := q) hspelled hname).2.2 hanchor
    (evaluate_weekdayOf reference h)

/-- The week begins on its first day at the same time, unless days are counted from a leap
second. -/
theorem startOfWeek_eq {w : Date} (hclock : now.time.second < 60 ∨ now.date.weekday = weekStart)
    (hw : w.dayNumber = now.date.dayNumber - weekStart.daysUntil now.date.weekday) :
    startOfWeek now weekStart = .ok ⟨w, now.time⟩ := by
  have hw' : Date.ofDayNumber? (now.date.dayNumber + -(weekStart.daysUntil now.date.weekday)) =
      some w := by
    rw [← w.ofDayNumber?_dayNumber, hw, Int.sub_eq_add_neg]
  have hzero : now.time.second < 60 ∨ -(weekStart.daysUntil now.date.weekday : Int) = 0 := by
    rcases hclock with h | h
    · exact .inl h
    · rw [h, Weekday.daysUntil_self]
      exact .inr rfl
  rw [startOfWeek, Instant.addDays?_eq hzero, Date.addDays?, hw']
  rfl

theorem startOfWeek_leap (hleap : now.time.second = 60) (hday : now.date.weekday ≠ weekStart)
    (hlow : firstDay + 14 ≤ now.date.dayNumber) (hhigh : now.date.dayNumber + 14 ≤ lastDay) :
    ∃ u, startOfWeek now weekStart = .ok u ∧ u.time.second = 0 ∧
      now.date.dayNumber - 6 ≤ u.date.dayNumber ∧ u.date.dayNumber ≤ now.date.dayNumber := by
  have hdays := weekStart.daysUntil_lt now.date.weekday
  have hpos : weekStart.daysUntil now.date.weekday ≠ 0 := fun h =>
    hday (Weekday.daysUntil_eq_zero_iff.1 h).symm
  obtain ⟨u, hu, hsecond, hle, hle'⟩ := Instant.addDays?_leap
    (n := -(weekStart.daysUntil now.date.weekday)) hleap (by omega) (by omega) (by omega)
  refine ⟨u, ?_, hsecond, by omega, by omega⟩
  rw [startOfWeek, hu]
  rfl

/-- The resolver answers a phrase by a day, at the time that a clock shows now. -/
def AnswersDay (r : Resolver) (phrase : String) (weekStart : Weekday) (pattern : String)
    (now : Instant) (x : Date) : Prop :=
  r.resolveAt phrase weekStart pattern now = .ok (.date ⟨x, now.time.onClock⟩)

theorem answersDay_weekdayPhrase_iff (r : Resolver) (pattern : String) {x : Date}
    (hspelled : (.weekday d, names) ∈ Word.spellings) (hname : name ∈ names)
    (hlow : firstDay + 14 ≤ now.date.dayNumber) (hhigh : now.date.dayNumber + 14 ≤ lastDay)
    (hx : ∃ w : Date, w.dayNumber = now.date.dayNumber - weekStart.daysUntil now.date.weekday ∧
      x.dayNumber = w.dayNumber + w.weekday.daysUntil d + 7 * (q.map Relative.weeks).getD 0) :
    r.AnswersDay (weekdayPhrase name q) weekStart pattern now x ↔
      now.time.second < 60 ∨ now.date.weekday = weekStart := by
  obtain ⟨w, hw, hx⟩ := hx
  constructor
  · intro hanswer
    refine Decidable.byContradiction fun hno => ?_
    obtain ⟨hsecond, hday⟩ := not_or.1 hno
    have hleap : now.time.second = 60 := by have := now.time.second_le; omega
    obtain ⟨u, hweek, hzero, hge, hle⟩ := startOfWeek_leap hleap hday hlow hhigh
    obtain ⟨y, hy⟩ := DateExpr.exists_weekdayOf q d
      (show firstDay + 7 ≤ u.date.dayNumber by omega) (by omega)
    have hother := resolveAt_weekdayPhrase r pattern hspelled hname hlow hhigh hweek hy
    rw [AnswersDay, hother] at hanswer
    have htime : u.time.onClock = now.time.onClock :=
      (Instant.mk.inj (Resolved.date.inj (Except.ok.inj hanswer))).2
    have hclock : u.time.clockSecond = now.time.clockSecond := congrArg TimeOfDay.second htime
    simp [TimeOfDay.clockSecond, hzero, hleap] at hclock
  · intro hclock
    have hweek : startOfWeek now weekStart = .ok ⟨w, now.time⟩ := startOfWeek_eq hclock hw
    exact (resolveAt_weekdayPhrase r pattern hspelled hname hlow hhigh hweek hx :)

/-- A weekday and "this" name the day of the current week, "next" and "last" the days a week later
and earlier, at the current time, exactly if that is no leap second or the week begins today. -/
theorem answersDay_weekday_iff (r : Resolver) (pattern : String)
    (hspelled : (.weekday d, names) ∈ Word.spellings) (hname : name ∈ names)
    (hlow : firstDay + 14 ≤ now.date.dayNumber) (hhigh : now.date.dayNumber + 14 ≤ lastDay) :
    ∃ w t u v : Date, w.IsLatest weekStart now.date ∧ t.IsInWeek d w ∧
      u.dayNumber = t.dayNumber + 7 ∧ v.dayNumber = t.dayNumber - 7 ∧
      let holds := now.time.second < 60 ∨ now.date.weekday = weekStart
      (r.AnswersDay name weekStart pattern now t ↔ holds) ∧
        (r.AnswersDay ("this " ++ name) weekStart pattern now t ↔ holds) ∧
        (r.AnswersDay ("next " ++ name) weekStart pattern now u ↔ holds) ∧
        (r.AnswersDay ("last " ++ name) weekStart pattern now v ↔ holds) := by
  have hback := weekStart.daysUntil_lt now.date.weekday
  let w : Date := ⟨now.date.dayNumber - weekStart.daysUntil now.date.weekday, by omega, by omega⟩
  have hahead := w.weekday.daysUntil_lt d
  have hw : w.dayNumber = now.date.dayNumber - weekStart.daysUntil now.date.weekday := rfl
  let t : Date := ⟨w.dayNumber + w.weekday.daysUntil d, by omega, by omega⟩
  have ht : t.dayNumber = w.dayNumber + w.weekday.daysUntil d := rfl
  refine ⟨w, t, ⟨t.dayNumber + 7, by omega, by omega⟩, ⟨t.dayNumber - 7, by omega, by omega⟩,
    Date.isLatest_of_eq hw, Date.isInWeek_of_eq ht, rfl, rfl, ?_, ?_, ?_, ?_⟩
  · exact answersDay_weekdayPhrase_iff (q := none) r pattern hspelled hname hlow hhigh
      ⟨w, hw, by simp [ht]⟩
  · exact answersDay_weekdayPhrase_iff (q := some .current) r pattern hspelled hname hlow hhigh
      ⟨w, hw, by simp [ht, Relative.weeks]⟩
  · exact answersDay_weekdayPhrase_iff (q := some .following) r pattern hspelled hname hlow hhigh
      ⟨w, hw, by simp [ht, Relative.weeks]⟩
  · exact answersDay_weekdayPhrase_iff (q := some .previous) r pattern hspelled hname hlow hhigh
      ⟨w, hw, by simp [ht, Relative.weeks]; omega⟩

/-- On Wednesday, 17 April 2024 at 10:30, Friday is the 19th. -/
theorem answersDay_friday :
    ∃ t : Date, t.dayNumber = 738995 ∧
      let now : Instant := ⟨⟨738993, by decide, by decide⟩,
        ⟨10, 30, 0, 0, by decide, by decide, by decide, by decide⟩⟩
      AnswersDay ⟨⟨Recognizer.builtin⟩, .gregorian, now⟩ "friday" .sunday "" now t := by
  let now : Instant := ⟨⟨738993, by decide, by decide⟩,
    ⟨10, 30, 0, 0, by decide, by decide, by decide, by decide⟩⟩
  obtain ⟨w, t, -, -, hw, ht, -, -, hanswer, -⟩ :=
    @answersDay_weekday_iff .friday .sunday ["friday", "fri"] "friday" now
      ⟨⟨Recognizer.builtin⟩, .gregorian, now⟩ "" (by decide) (by decide) (by decide) (by decide)
  refine ⟨t, ?_, hanswer.2 (.inl (by decide))⟩
  have hlatest := hw.latest ⟨738990, by decide, by decide⟩ (by decide) (by decide)
  have hle : w.dayNumber ≤ 738993 := hw.le
  have hsunday := Date.weekday_eq_iff.1 hw.weekday
  have hfriday := Date.weekday_eq_iff.1 ht.weekday
  have hge := ht.le
  have hle' := ht.le_six
  simp only [Weekday.index] at hlatest hsunday hfriday
  omega

/-- In the leap second that ends that day, Sunday is answered by the 21st: the week seems to begin
on Monday, the 15th, and so ends with the Sunday after the one that it began with. -/
theorem resolveAt_sunday_leap :
    let now : Instant := ⟨⟨738993, by decide, by decide⟩,
      ⟨23, 59, 60, 500000000, by decide, by decide, by decide, by decide⟩⟩
    let sunday : Date := ⟨738990, by decide, by decide⟩
    let r : Resolver := ⟨⟨Recognizer.builtin⟩, .gregorian, now⟩
    sunday.IsLatest .sunday now.date ∧ sunday.IsInWeek .sunday sunday ∧
      ¬r.AnswersDay "sunday" .sunday "" now sunday ∧
      r.resolveAt "sunday" .sunday "" now =
        .ok (.date ⟨⟨738997, by decide, by decide⟩, .midnight⟩) := by
  intro now sunday r
  have hanswer : r.resolveAt "sunday" .sunday "" now =
      .ok (.date ⟨⟨738997, by decide, by decide⟩, .midnight⟩) := by
    have hweek : startOfWeek now .sunday = .ok ⟨⟨738991, by decide, by decide⟩,
        ⟨0, 0, 0, 500000000, by decide, by decide, by decide, by decide⟩⟩ := by
      decide +kernel
    have hname : "sunday" ∈ ["sunday", "sun"] := by decide
    exact resolveAt_weekdayPhrase (q := none) (d := .sunday) r "" (by decide) hname (by decide)
      (by decide) hweek (by decide)
  refine ⟨Date.isLatest_of_eq (by decide), Date.isInWeek_of_eq (by decide), ?_, hanswer⟩
  rw [AnswersDay, hanswer]
  decide

end Resolver

end CasualDate
