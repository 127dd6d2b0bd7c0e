import CasualDate.Proofs.Calendar.MonthEnd
import CasualDate.Proofs.Calendar.Period
import CasualDate.Proofs.Resolver.Breakdown
import CasualDate.Proofs.Shape.Order

/-!
# When resolving is refused

In the years 1 to 9990 periods end and go on, searches answer, and what they come to can be written.
What is left to fail is the end of a month: the text has to name one, and one that the calendars are
computed for (`Resolver.resolveAt_refused_iff`).
-/

namespace CasualDate

namespace Components

theorem day?_eq_some_iff {c : Components} {d : Date} : c.day? = some d ↔
    c.year.value = d.year ∧ c.month.value = d.month ∧ c.day.value = d.day := by
  simp only [day?, Option.bind_eq_bind, Option.bind_eq_some_iff, Date.ofCivil?_eq_some_iff,
    Int.mem_toNat?]
  constructor
  · rintro ⟨_, hm, _, hd, hyear, rfl, rfl⟩
    exact ⟨hyear.symm, hm, hd⟩
  · rintro ⟨hyear, hm, hd⟩
    exact ⟨_, hm, _, hd, hyear.symm, rfl, rfl⟩

end Components

theorem Date.IsCentral.inside {d : Date} (h : d.IsCentral) :
    0 ≤ d.year ∧ d.dayNumber + 7 ≤ lastDay := by
  have hinside : gregorian.newYear 9991 + 7 ≤ lastDay := by decide
  have := h.bounds.2
  exact ⟨Int.le_trans (by decide) h.1, by omega⟩

theorem Instant.exists_format (t : Instant) (pattern : String) (c : Calendar)
    (h : t.date.IsConvertible) : ∃ s, t.format pattern c = .ok s := by
  rw [Instant.format, Calendar.toLocal_eq h]
  exact ⟨_, rfl⟩

namespace Resolver

variable {r : Resolver} {text pattern remainder : String} {weekStart : Weekday} {now : Instant}
  {c : Candidate} {cs : List Candidate}

theorem exists_rendered (r : Resolver) (pattern : String) {x : Except Failure Instant}
    (h : ∃ t, x = .ok t ∧ t.date.IsConvertible) :
    ∃ s, r.rendered pattern x = .ok (.formatted s) := by
  obtain ⟨t, rfl, hconvertible⟩ := h
  obtain ⟨s, hs⟩ := t.exists_format pattern r.calendar hconvertible
  refine ⟨s, ?_⟩
  show (orRefuse (t.format pattern r.calendar)).map Resolved.formatted = _
  rw [hs]
  rfl

theorem monthEnd_of_find {d : Date}
    (hfind : r.finder.find { text := remainder, reference := now, now } = .ok (c :: cs))
    (hday : c.fields.day? = some d) :
    r.monthEnd remainder now = orRefuse (lastDayOfMonth d.year d.month) >>= fun day =>
      match Date.ofCivil? d.year d.month day with
      | none => .error (.refused (.malformedRemainder remainder))
      | some date => orRefuse (Instant.format ⟨date, .midnight⟩ monthEndPattern r.calendar) := by
  obtain ⟨hyear, hmonth, -⟩ := Components.day?_eq_some_iff.1 hday
  rw [← hyear, ← Int.toNat_natCast d.month, ← hmonth, monthEnd, hfind]
  rfl

theorem exists_monthEnd {d : Date}
    (hfind : r.finder.find { text := remainder, reference := now, now } = .ok (c :: cs))
    (hday : c.fields.day? = some d) (hd : d.IsConvertible) :
    ∃ s, r.monthEnd remainder now = .ok s := by
  obtain ⟨last, hlast, -⟩ := d.exists_lastOfMonth
  obtain ⟨hyear, -, -⟩ := Date.ofCivil?_eq_some_iff.1 hlast
  obtain ⟨s, hs⟩ := Instant.exists_format ⟨last, .midnight⟩ monthEndPattern r.calendar
    (show last.IsConvertible by rwa [Date.IsConvertible, hyear])
  refine ⟨s, ?_⟩
  have hyear' := hd.2
  have hday' := Date.lastDayOfMonth_eq (d := d) fun hlast => by omega
  rw [monthEnd_of_find hfind hday, hday']
  simp only [orRefuse_ok, ok_bind, hlast, hs]

/-- No month of a year outside the range of the calendars is written. -/
theorem exists_monthEnd_refused {d : Date}
    (hfind : r.finder.find { text := remainder, reference := now, now } = .ok (c :: cs))
    (hday : c.fields.day? = some d) (hd : ¬d.IsConvertible) :
    ∃ e, r.monthEnd remainder now = .error (.refused e) := by
  rw [monthEnd_of_find hfind hday]
  cases lastDayOfMonth d.year d.month with
  | error e => exact ⟨e, rfl⟩
  | ok day =>
    rw [orRefuse_ok, ok_bind]
    cases hdate : Date.ofCivil? d.year d.month day with
    | none => exact ⟨_, rfl⟩
    | some date =>
      obtain ⟨hyear, -, -⟩ := Date.ofCivil?_eq_some_iff.1 hdate
      have hoff : ¬date.IsConvertible := by rwa [Date.IsConvertible, hyear]
      have hformat : Instant.format ⟨date, .midnight⟩ monthEndPattern r.calendar =
          .error (.calendar (.outside date)) := by
        rw [Instant.format, Calendar.toLocal_eq_error hoff]
        rfl
      exact ⟨_, congrArg orRefuse hformat⟩

theorem exists_resolveAt (r : Resolver) (weekStart : Weekday) (pattern : String)
    (hnow : now.date.IsCentral)
    (hshape : ∀ remainder, Shape.ofText text ≠ .monthEnd remainder) :
    ∃ answer, r.resolveAt text weekStart pattern now = .ok answer := by
  obtain ⟨hyear, hend⟩ := hnow.inside
  obtain ⟨certain, reference, hanchor, hle, hsix, -⟩ := r.exists_anchor text weekStart hyear hend
  cases h : Shape.ofText text with
  | endOfPeriod p =>
    rw [resolveAt_endOfPeriod h hanchor]
    obtain ⟨s, hs⟩ := r.exists_rendered pattern (r.calendar.exists_endOf hnow p)
    exact ⟨_, hs⟩
  | onePeriodOn p =>
    rw [resolveAt_onePeriodOn h hanchor]
    obtain ⟨s, hs⟩ := r.exists_rendered pattern (r.calendar.exists_addOne hnow p)
    exact ⟨_, hs⟩
  | monthEnd remainder => exact absurd h (hshape remainder)
  | midMonth word =>
    have hroom : now.date.HasRoom := Date.hasRoom hyear hend
    obtain ⟨answer, hanswer⟩ : ∃ answer, r.finder.findDate
        { text := midMonthPhrase word, reference := now, now, forward := true } = .ok answer :=
      Finder.exists_findDate hroom hyear
    rw [resolveAt_midMonth h hanchor, hanswer]
    exact ⟨_, rfl⟩
  | other =>
    have hroom : reference.date.HasRoom := Date.hasRoom_of_week hyear (by omega) hle hsix
    have hreference : 0 ≤ reference.date.year := by
      have hone := hnow.bounds.1
      have hbegin : gregorian.newYear 0 = -365 := by decide
      exact Date.le_year_iff.2 (by omega)
    obtain ⟨answer, hanswer⟩ : ∃ answer, r.finder.findDate { text, reference, now } = .ok answer :=
      Finder.exists_findDate hroom hreference
    rw [resolveAt_other h hanchor, hanswer]
    exact ⟨_, rfl⟩

theorem resolveAt_of_asksMonthEnd (r : Resolver) (weekStart : Weekday) (pattern : String)
    (hnow : now.date.IsCentral)
    (hasks : Shape.AsksMonthEnd text remainder) :
    ∃ cs, r.finder.find { text := remainder, reference := now, now } = .ok cs ∧
      ((∃ c, cs.head? = some c ∧ (-9999 ≤ c.fields.year.value ∧ c.fields.year.value ≤ 9999) ∧
          ∃ answer, r.resolveAt text weekStart pattern now = .ok answer) ∨
        (∃ c, cs.head? = some c ∧ ¬(-9999 ≤ c.fields.year.value ∧ c.fields.year.value ≤ 9999) ∧
          ∃ e, r.resolveAt text weekStart pattern now = .error (.refused e)) ∨
        cs = [] ∧ r.resolveAt text weekStart pattern now =
          .error (.refused (.malformedRemainder remainder))) := by
  obtain ⟨hyear, hend⟩ := hnow.inside
  obtain ⟨certain, reference, hanchor, -⟩ := r.exists_anchor text weekStart hyear hend
  have hroom : now.date.HasRoom := Date.hasRoom hyear hend
  obtain ⟨cs, hfind⟩ : ∃ cs, r.finder.find { text := remainder, reference := now, now } = .ok cs :=
    Finder.exists_find hroom hyear
  rw [resolveAt_monthEnd (Shape.ofText_eq_iff.2 hasks) hanchor]
  refine ⟨cs, hfind, ?_⟩
  cases cs with
  | nil =>
    rw [monthEnd, hfind]
    exact .inr (.inr ⟨rfl, rfl⟩)
  | cons c cs =>
    obtain ⟨t, ht⟩ := Option.isSome_iff_exists.1
      (Finder.isSome_date?_of_mem_find hfind (List.mem_cons_self ..))
    have hday := (Components.exists_of_date? ht).1
    have hvalue := (Components.day?_eq_some_iff.1 hday).1
    by_cases hconvertible : t.date.IsConvertible
    · obtain ⟨s, hs⟩ := exists_monthEnd hfind hday hconvertible
      exact .inl ⟨c, rfl, by rwa [hvalue], _, by rw [hs]; rfl⟩
    · obtain ⟨e, he⟩ := exists_monthEnd_refused hfind hday hconvertible
      exact .inr (.inl ⟨c, rfl, by rwa [hvalue], e, by rw [he]; rfl⟩)

/-- In the years 1 to 9990 a text is refused exactly if it asks for the end of a month and what it
names the month by is no date, or one in a year that the calendars are not computed for. All other
texts are answered. -/
theorem resolveAt_refused_iff (hlow : 1 ≤ now.date.year) (hhigh : now.date.year ≤ 9990) :
    ((∃ e, r.resolveAt text weekStart pattern now = .error (.refused e)) ↔
      ∃ remainder cs, Shape.AsksMonthEnd text remainder ∧
        r.finder.find { text := remainder, reference := now, now } = .ok cs ∧
        (cs = [] ∨ ∃ c, cs.head? = some c ∧
          ¬(-9999 ≤ c.fields.year.value ∧ c.fields.year.value ≤ 9999))) ∧
      (∀ remainder, Shape.AsksMonthEnd text remainder →
        r.finder.find { text := remainder, reference := now, now } = .ok [] →
        r.resolveAt text weekStart pattern now =
          .error (.refused (.malformedRemainder remainder))) ∧
      ∀ failure, r.resolveAt text weekStart pattern now = .error failure →
        ∃ e, failure = .refused e := by
  by_cases hasks : ∃ remainder, Shape.AsksMonthEnd text remainder
  · obtain ⟨remainder, hasks⟩ := hasks
    have hsame {other : String} (h : Shape.AsksMonthEnd text other) : other = remainder :=
      String.toList_inj.1 (Option.some.inj (h.pattern.symm.trans hasks.pattern))
    obtain ⟨cs, hfind, hcases⟩ :=
      r.resolveAt_of_asksMonthEnd weekStart pattern ⟨hlow, hhigh⟩ hasks
    have hfound {other : String} {ds : List Candidate} (h : Shape.AsksMonthEnd text other)
        (hds : r.finder.find { text := other, reference := now, now } = .ok ds) : ds = cs := by
      rw [hsame h, hfind] at hds
      exact (Except.ok.inj hds).symm
    -- The text determines the remainder and what is found in it, so each of the three outcomes
    -- decides both sides of the equivalence.
    rcases hcases with ⟨c, hc, hyear, answer, hanswer⟩ | ⟨c, hc, hyear, e, he⟩ | ⟨rfl, he⟩
    · refine ⟨iff_of_false (by simp [hanswer]) ?_, fun other h hnil => ?_, by simp [hanswer]⟩
      · rintro ⟨other, ds, h, hds, rfl | ⟨d, hd, hoff⟩⟩
        · rw [← hfound h hds] at hc
          cases hc
        · rw [hfound h hds, hc] at hd
          obtain rfl := Option.some.inj hd
          exact hoff hyear
      · rw [← hfound h hnil] at hc
        cases hc
    · refine ⟨iff_of_true ⟨e, he⟩ ⟨remainder, cs, hasks, hfind, .inr ⟨c, hc, hyear⟩⟩,
        fun other h hnil => ?_, fun failure h => ⟨e, Except.error.inj (h.symm.trans he)⟩⟩
      rw [← hfound h hnil] at hc
      cases hc
    · refine ⟨iff_of_true ⟨_, he⟩ ⟨remainder, [], hasks, hfind, .inl rfl⟩, fun other h _ => ?_,
        fun failure h => ⟨_, Except.error.inj (h.symm.trans he)⟩⟩
      rw [he, hsame h]
  · have hnot (remainder : String) : Shape.ofText text ≠ .monthEnd remainder := fun h =>
      hasks ⟨remainder, Shape.ofText_eq_iff.1 h⟩
    obtain ⟨answer, hanswer⟩ := r.exists_resolveAt weekStart pattern ⟨hlow, hhigh⟩ hnot
    exact ⟨iff_of_false (by simp [hanswer]) fun ⟨remainder, _, h, _⟩ => hasks ⟨remainder, h⟩,
      fun remainder h => absurd ⟨remainder, h⟩ hasks, by simp [hanswer]⟩

/-- On 17 April 2024 "foo" has no end. -/
theorem resolveAt_endOfFoo :
    let now : Instant := ⟨⟨738993, by decide, by decide⟩, .midnight⟩
    let r : Resolver := ⟨⟨Recognizer.builtin⟩, .gregorian, now⟩
    1 ≤ now.date.year ∧ now.date.year ≤ 9990 ∧ Shape.AsksMonthEnd "the end of foo" "foo" ∧
      r.finder.find { text := "foo", reference := now, now } = .ok [] ∧
      r.resolveAt "the end of foo" .sunday "" now =
        .error (.refused (.malformedRemainder "foo")) := by
  intro now r
  have hlow : 1 ≤ now.date.year := by decide +kernel
  have hhigh : now.date.year ≤ 9990 := by decide +kernel
  have hasks : Shape.AsksMonthEnd "the end of foo" "foo" :=
    ⟨by decide +kernel, by decide +kernel, by decide +kernel⟩
  have hfind : r.finder.find { text := "foo", reference := now, now } = .ok [] := by
    rw [Finder.find_of_isEmpty_attempts (by decide +kernel), Finder.find_unaided]
    decide +kernel
  exact ⟨hlow, hhigh, hasks, hfind, (resolveAt_refused_iff hlow hhigh).2.1 "foo" hasks hfind⟩

end Resolver

end CasualDate
