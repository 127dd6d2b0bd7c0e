import CasualDate.Proofs.Finder.WholeSecond
import CasualDate.Proofs.Resolver.ByShape

/-!
# Resolving by whole seconds

Every way to answer a text but one passes the fraction of the current second on to where it is left
out: period ends have a time of their own, patterns have no field for it, and the dates that are
found have whole seconds (`resolveAt_wholeSecond`). The middle of a month is looked for ahead, so
there the fraction decides if the current second itself is found (`resolveAt_eq_iff`).
-/

namespace CasualDate

namespace Calendar

variable {c : Calendar} {now : Instant} {p : Period}

theorem endOf_wholeSecond : c.endOf now.wholeSecond p = c.endOf now p := rfl

theorem addOne_wholeSecond :
    c.addOne now.wholeSecond p = (c.addOne now p).map Instant.wholeSecond := by
  simp only [addOne, Instant.date_wholeSecond]
  cases c.dateOneOn now.date p <;> rfl

end Calendar

theorem Instant.format_wholeSecond (t : Instant) (pattern : String) (c : Calendar) :
    t.wholeSecond.format pattern c = t.format pattern c := rfl

namespace Resolver

variable {r : Resolver} {text pattern word : String} {weekStart : Weekday} {now now' : Instant}

theorem startOfWeek_wholeSecond :
    startOfWeek now.wholeSecond weekStart = (startOfWeek now weekStart).map Instant.wholeSecond := by
  rw [startOfWeek, startOfWeek, Instant.addDays?, Instant.addMinutes?_wholeSecond, orOffCalendar_map]
  rfl

theorem anchor_wholeSecond (hfinder : r.finder = ⟨Recognizer.builtin⟩) :
    r.anchor text weekStart now.wholeSecond =
      (r.anchor text weekStart now).map (Prod.map id Instant.wholeSecond) := by
  rw [anchor, anchor, hfinder, Finder.find_wholeSecond]
  cases (Finder.mk Recognizer.builtin).find { text, reference := now, now } with
  | error => rfl
  | ok cs =>
    simp only [bind, Except.bind, startOfWeek_wholeSecond]
    cases namesWeekday cs with
    | false => rfl
    | true => cases startOfWeek now weekStart <;> rfl

/-- The first searches from two instants of one second fail alike, or both lead to a reference. -/
theorem anchor_of_wholeSecond_eq (hfinder : r.finder = ⟨Recognizer.builtin⟩)
    (h : now.wholeSecond = now'.wholeSecond) :
    (∃ failure, r.anchor text weekStart now = .error failure ∧
      r.anchor text weekStart now' = .error failure) ∨
    ∃ anchored anchored', r.anchor text weekStart now = .ok anchored ∧
      r.anchor text weekStart now' = .ok anchored' := by
  have hmap : (r.anchor text weekStart now).map (Prod.map id Instant.wholeSecond) =
      (r.anchor text weekStart now').map (Prod.map id Instant.wholeSecond) := by
    rw [← anchor_wholeSecond hfinder, h, anchor_wholeSecond hfinder]
  cases hnow : r.anchor text weekStart now with
  | error failure =>
    rw [hnow] at hmap
    cases hnow' : r.anchor text weekStart now' with
    | error failure' =>
      rw [hnow'] at hmap
      cases hmap
      exact .inl ⟨failure, rfl, rfl⟩
    | ok => rw [hnow'] at hmap; cases hmap
  | ok anchored =>
    rw [hnow] at hmap
    cases hnow' : r.anchor text weekStart now' with
    | error => rw [hnow'] at hmap; cases hmap
    | ok anchored' => exact .inr ⟨anchored, anchored', rfl, rfl⟩

theorem monthEnd_wholeSecond (hfinder : r.finder = ⟨Recognizer.builtin⟩) :
    r.monthEnd text now.wholeSecond = r.monthEnd text now := by
  rw [monthEnd, monthEnd, hfinder, Finder.find_wholeSecond]

/-- Without fractions of a second every text is answered alike, if it does not ask for the middle of
a month. -/
theorem resolveAt_wholeSecond (hfinder : r.finder = ⟨Recognizer.builtin⟩)
    (hshape : ∀ word, Shape.ofText text ≠ .midMonth word) :
    r.resolveAt text weekStart pattern now.wholeSecond = r.resolveAt text weekStart pattern now := by
  rw [resolveAt, resolveAt, anchor_wholeSecond hfinder]
  cases r.anchor text weekStart now with
  | error => rfl
  | ok anchored =>
    obtain ⟨certain, reference⟩ := anchored
    simp only [Except.map, bind, Except.bind, Prod.map, id]
    cases h : Shape.ofText text with
    | endOfPeriod p => simp only [Calendar.endOf_wholeSecond]
    | onePeriodOn p =>
      simp only [Calendar.addOne_wholeSecond]
      cases r.calendar.addOne now p with
      | error => rfl
      | ok t => simp only [Except.map, Instant.format_wholeSecond]
    | monthEnd remainder => simp only [monthEnd_wholeSecond hfinder]
    | midMonth word => exact absurd h (hshape word)
    | other => simp only [hfinder, Finder.findDate_wholeSecond]

/-- The text asks for the middle of a month, and what is found for it first denotes the current
second, does not state its year, and has a counterpart in the year after. -/
def IsDue (r : Resolver) (text : String) (weekStart : Weekday) (now : Instant) : Prop :=
  ∃ word c cs, Shape.ofText text = .midMonth word ∧
    (r.anchor text weekStart now).isOk = true ∧
    r.finder.find { text := midMonthPhrase word, reference := now, now } = .ok (c :: cs) ∧
    c.IsDue now

theorem isDue_iff (hshape : Shape.ofText text = .midMonth word)
    (hanchor : (r.anchor text weekStart now).isOk = true) :
    r.IsDue text weekStart now ↔ ∃ c cs,
      r.finder.find { text := midMonthPhrase word, reference := now, now } = .ok (c :: cs) ∧
        c.IsDue now := by
  constructor
  · rintro ⟨word', c, cs, hshape', -, hfind⟩
    obtain rfl := Shape.midMonth.inj (hshape.symm.trans hshape')
    exact ⟨c, cs, hfind⟩
  · rintro ⟨c, cs, hfind⟩
    exact ⟨word, c, cs, hshape, hanchor, hfind⟩

theorem map_ofDate?_inj {x y : Except Failure (Option Instant)} :
    x.map Resolved.ofDate? = y.map Resolved.ofDate? ↔ x = y := by
  have hinj (a b : Option Instant) : Resolved.ofDate? a = Resolved.ofDate? b ↔ a = b := by
    cases a <;> cases b <;> simp [Resolved.ofDate?]
  cases x <;> cases y <;> simp [Except.map, hinj]

/-- From two instants of one second every text is answered alike, unless it asks for the middle of a
month and that is the current second itself, which has begun at one of them only. -/
theorem resolveAt_eq_iff (hfinder : r.finder = ⟨Recognizer.builtin⟩)
    (h : now.wholeSecond = now'.wholeSecond) :
    r.resolveAt text weekStart pattern now = r.resolveAt text weekStart pattern now' ↔
      ¬(r.IsDue text weekStart now ∧
        (now.time.nanosecond = 0 ↔ now'.time.nanosecond ≠ 0)) := by
  by_cases hmid : ∃ word, Shape.ofText text = .midMonth word
  · obtain ⟨word, hshape⟩ := hmid
    rcases anchor_of_wholeSecond_eq hfinder h with
      ⟨failure, hnow, hnow'⟩ | ⟨anchored, anchored', hnow, hnow'⟩
    · refine iff_of_true ((resolveAt_eq_error hnow).trans (resolveAt_eq_error hnow').symm) ?_
      rintro ⟨⟨_, _, _, -, hok, -⟩, -⟩
      rw [hnow] at hok
      cases hok
    · rw [isDue_iff hshape (by rw [hnow]; rfl), resolveAt_midMonth hshape hnow,
        resolveAt_midMonth hshape hnow', map_ofDate?_inj, hfinder]
      exact Finder.findDate_ahead_eq_iff h
  · have hshape : ∀ word, Shape.ofText text ≠ .midMonth word := fun word hword => hmid ⟨word, hword⟩
    have hsame : r.resolveAt text weekStart pattern now = r.resolveAt text weekStart pattern now' := by
      rw [← resolveAt_wholeSecond hfinder hshape, h, resolveAt_wholeSecond hfinder hshape]
    refine iff_of_true hsame ?_
    rintro ⟨⟨word, _, _, hword, -⟩, -⟩
    exact hshape word hword

/-- On 15 April 2024 the middle of April is the same a quarter and half a second past 10:30. -/
theorem resolveAt_midApril_eq :
    let april15 : Date := ⟨738991, by decide, by decide⟩
    let quarter : Instant :=
      ⟨april15, ⟨10, 30, 0, 250000000, by decide, by decide, by decide, by decide⟩⟩
    let half : Instant :=
      ⟨april15, ⟨10, 30, 0, 500000000, by decide, by decide, by decide, by decide⟩⟩
    let r : Resolver := ⟨⟨Recognizer.builtin⟩, .gregorian, quarter⟩
    r.finder = ⟨Recognizer.builtin⟩ ∧ quarter.wholeSecond = half.wholeSecond ∧
      r.resolveAt "mid april" .sunday "" quarter = r.resolveAt "mid april" .sunday "" half := by
  intro april15 quarter half r
  have hfinder : r.finder = ⟨Recognizer.builtin⟩ := rfl
  have hsame : quarter.wholeSecond = half.wholeSecond := rfl
  have hbegun : ¬(quarter.time.nanosecond = 0 ↔ half.time.nanosecond ≠ 0) := by
    simp [quarter, half]
  exact ⟨hfinder, hsame, (resolveAt_eq_iff hfinder hsame).2 fun hdue => hbegun hdue.2⟩

/-- At 10:30 sharp it is that day, and half a second later the day a year after. -/
theorem resolveAt_midApril :
    let april15 : Date := ⟨738991, by decide, by decide⟩
    let sharp : Instant := ⟨april15, ⟨10, 30, 0, 0, by decide, by decide, by decide, by decide⟩⟩
    let half : Instant :=
      ⟨april15, ⟨10, 30, 0, 500000000, by decide, by decide, by decide, by decide⟩⟩
    let r : Resolver := ⟨⟨Recognizer.builtin⟩, .gregorian, sharp⟩
    sharp.wholeSecond = half.wholeSecond ∧
      r.resolveAt "mid april" .sunday "" sharp = .ok (.date sharp) ∧
      r.resolveAt "mid april" .sunday "" half =
        .ok (.date ⟨⟨739356, by decide, by decide⟩, sharp.time⟩) := by
  intro april15 sharp half r
  have hshape : Shape.ofText "mid april" = .midMonth "april" := by decide +kernel
  let april1 : Instant := ⟨⟨738977, by decide, by decide⟩, sharp.time⟩
  let month : Candidate := ⟨4, "april", .ofStated april1 { month := true }, .grammar⟩
  let day : Candidate :=
    ⟨0, "april 15th", .ofStated sharp { month := true, day := true }, .grammar⟩
  let ordinal : Candidate := ⟨6, "15th",
    ((Components.ofInstant sharp).assign .day 15).assign .month 4, .recognizer "ordinal-day"⟩
  have hanchor (now : Instant) (hnow : now = sharp ∨ now = half) :
      r.anchor "mid april" .sunday now = .ok (false, now) := by
    have hfind : r.finder.find { text := "mid april", reference := now, now } = .ok [month] := by
      rw [Finder.find_of_isEmpty_attempts (by rcases hnow with rfl | rfl <;> decide +kernel),
        Finder.find_unaided]
      rcases hnow with rfl | rfl <;> decide +kernel
    rw [anchor_of_find hfind]
    rfl
  have hfind (now : Instant) (hnow : now = sharp ∨ now = half) :
      r.finder.find { text := midMonthPhrase "april", reference := now, now } = .ok [day] := by
    have hproposals : r.finder.proposals
        { text := midMonthPhrase "april", reference := now, now } = .ok [day, ordinal] := by
      rcases hnow with rfl | rfl <;> decide +kernel
    rw [Finder.find_of_proposals hproposals (by decide +kernel) (by decide)]
    rcases hnow with rfl | rfl <;> decide +kernel
  refine ⟨rfl, ?_, ?_⟩
  · rw [resolveAt_midMonth hshape (hanchor sharp (.inl rfl)), Finder.findDate_ahead,
      hfind sharp (.inl rfl)]
    decide +kernel
  · rw [resolveAt_midMonth hshape (hanchor half (.inr rfl)), Finder.findDate_ahead,
      hfind half (.inr rfl)]
    decide +kernel

end Resolver

end CasualDate
