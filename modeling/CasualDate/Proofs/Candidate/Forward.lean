import CasualDate.Proofs.Candidate.Collapse
import CasualDate.Proofs.Reckoning.Named

/-!
# Moving a candidate out of the past

A candidate without a stated year that lies before the reference is moved to the same day of the
year after, if there is one; nothing else about it changes (`forwarded_forward`). One step of a year
is enough to leave the past if the date was at most a year back (`exists_notBefore_forward`).
-/

namespace CasualDate

namespace Instant

/-- `u` is the same day of the same month at the same time, in the year after `t`. -/
structure IsYearAfter (u t : Instant) : Prop where
  year : u.date.year = t.date.year + 1
  month : u.date.month = t.date.month
  day : u.date.day = t.date.day
  time : u.time = t.time

/-- `t` lies in the year of the reference, or not more than a week before it. -/
def IsNear (t reference : Instant) : Prop :=
  t.date.year = reference.date.year ∨ reference.date.dayNumber ≤ t.date.dayNumber + 7

variable {t u reference : Instant}

theorem rank_lt_rank (h : t.date.dayNumber < u.date.dayNumber) : t.rank < u.rank := by
  have := t.time.hour_lt
  have := t.time.minute_lt
  have := t.time.second_le
  have := t.time.nanosecond_lt
  simp only [rank, TimeOfDay.rank]
  omega

theorem IsYearAfter.isBefore_eq_false (h : u.IsYearAfter t) (hnear : t.IsNear reference) :
    u.isBefore reference = false := by
  have hlater : reference.date.dayNumber < u.date.dayNumber := by
    rcases hnear with hyear | hweek
    · exact Date.dayNumber_lt_of_year_lt (by have := h.year; omega)
    · have := Date.dayNumber_add_le h.year h.month h.day
      omega
  have := rank_lt_rank hlater
  simp only [isBefore, decide_eq_false_iff_not]
  omega

end Instant

namespace Components

variable {c : Components} {t : Instant}

theorem date?_withYear (h : c.date? = some t) (year : Entry) :
    ({ c with year } : Components).date? =
      (Date.ofCivil? year.value t.date.month t.date.day).map (⟨·, t.time⟩) := by
  simp only [date?, day?, Option.bind_eq_bind, Option.bind_eq_some_iff, Option.pure_def,
    Option.some.injEq] at h
  obtain ⟨date, ⟨month, hmonth, day, hday, hdate⟩, hour, hhour, minute, hminute, second, hsecond,
    time, htime, rfl⟩ := h
  obtain ⟨-, rfl, rfl⟩ := Date.ofCivil?_eq_some_iff.1 hdate
  simp only [date?, day?, hmonth, hday, hhour, hminute, hsecond, htime, Option.bind_eq_bind,
    Option.bind_some, Option.pure_def]
  cases Date.ofCivil? year.value date.month date.day <;> rfl

theorem year_of_date? (h : c.date? = some t) : t.date.year = c.year.value := by
  have hsame := date?_withYear h c.year
  rw [show ({ c with year := c.year } : Components) = c from rfl, h] at hsame
  obtain ⟨date, hdate, heq⟩ := Option.map_eq_some_iff.1 hsame.symm
  rw [← heq]
  exact (Date.ofCivil?_eq_some_iff.1 hdate).1

end Components

namespace Candidate

variable {c d : Candidate} {reference t u : Instant}

theorem date?_nextYear (hyear : c.fields.isCertain .year = false) (h : c.date? = some t) :
    c.nextYear.date? = some u ↔ u.IsYearAfter t := by
  have hfields : c.nextYear.fields =
      { c.fields with year := .implied (c.fields.year.value + 1) } := by
    have huncertain : c.fields.year.certain = false := hyear
    simp [nextYear, Components.imply, Entry.imply, huncertain]
  rw [date?, hfields, Components.date?_withYear h, Option.map_eq_some_iff]
  simp only [Entry.implied, ← Components.year_of_date? h, Date.ofCivil?_eq_some_iff]
  constructor
  · rintro ⟨date, ⟨hy, hm, hd⟩, rfl⟩
    exact ⟨hy, hm, hd, rfl⟩
  · intro hu
    exact ⟨u.date, ⟨hu.year, hu.month, hu.day⟩, by rw [← hu.time]⟩

@[simp] theorem source_forward (reference : Instant) : (c.forward reference).source = c.source := by
  unfold forward; split <;> rfl

theorem isCertain_nextYear (f : Field) : c.nextYear.fields.isCertain f = c.fields.isCertain f := by
  cases f with
  | year =>
    simp only [nextYear, Components.imply, Components.isCertain, Entry.imply]
    split
    · rfl
    · next h => simpa [Entry.implied] using h
  | month | day | weekday | hour | minute | second => rfl

@[simp] theorem isCertain_forward (reference : Instant) (f : Field) :
    (c.forward reference).fields.isCertain f = c.fields.isCertain f := by
  unfold forward
  split
  · exact isCertain_nextYear f
  · rfl

/-- The candidate denotes `t`, which lies in the past, does not state the year, and the year after
has such a day. -/
structure IsLeftBehind (reference : Instant) (c : Candidate) (t : Instant) : Prop where
  uncertain : c.fields.isCertain .year = false
  isBefore : t.isBefore reference = true
  exists_after : ∃ u : Instant, u.IsYearAfter t

/-- `d` is the candidate `c`, moved into the year after if it is left behind. -/
structure Forwarded (reference : Instant) (c d : Candidate) : Prop where
  index : d.index = c.index
  text : d.text = c.text
  source : d.source = c.source
  certainFields : d.fields.certainFields = c.fields.certainFields
  date : ∃ t u, c.date? = some t ∧ d.date? = some u ∧
    (c.IsLeftBehind reference t → u.IsYearAfter t) ∧ (¬c.IsLeftBehind reference t → u = t)

theorem moved_iff (h : c.date? = some t) :
    (c.isPast reference && c.nextYear.date?.isSome) = true ↔ c.IsLeftBehind reference t := by
  have hpast : c.isPast reference = true ↔
      c.fields.isCertain .year = false ∧ t.isBefore reference = true := by
    simp [isPast, h]
  rw [Bool.and_eq_true, hpast, Option.isSome_iff_exists]
  constructor
  · rintro ⟨⟨hyear, hbefore⟩, u, hu⟩
    exact ⟨hyear, hbefore, u, (date?_nextYear hyear h).1 hu⟩
  · rintro ⟨hyear, hbefore, u, hu⟩
    exact ⟨⟨hyear, hbefore⟩, u, (date?_nextYear hyear h).2 hu⟩

theorem IsLeftBehind.forward_eq (hleft : c.IsLeftBehind reference t) (h : c.date? = some t) :
    c.forward reference = c.nextYear :=
  if_pos ((moved_iff h).2 hleft)

theorem forward_eq_self (hstays : ¬c.IsLeftBehind reference t) (h : c.date? = some t) :
    c.forward reference = c :=
  if_neg (mt (moved_iff h).1 hstays)

theorem forwarded_forward (reference : Instant) (h : c.date? = some t) : Forwarded reference c (c.forward reference) := by
  have hcertain : (c.forward reference).fields.isCertain = c.fields.isCertain :=
    funext fun f => isCertain_forward reference f
  refine ⟨by simp, by simp, by simp, by simp only [Components.certainFields, hcertain], ?_⟩
  unfold forward
  by_cases hmoved : (c.isPast reference && c.nextYear.date?.isSome) = true
  · have hbehind := (moved_iff h).1 hmoved
    obtain ⟨u, hu⟩ := hbehind.exists_after
    rw [if_pos hmoved]
    exact ⟨t, u, h, (date?_nextYear hbehind.uncertain h).2 hu, fun _ => hu,
      fun hno => absurd hbehind hno⟩
  · rw [if_neg hmoved]
    exact ⟨t, t, h, h, fun hbehind => absurd ((moved_iff h).2 hbehind) hmoved, fun _ => rfl⟩

/-- If the date was near the reference, it is no longer past unless the year after has no such
day. -/
theorem exists_notBefore_forward (h : c.date? = some t) (hyear : c.fields.isCertain .year = false)
    (hnear : t.IsNear reference) :
    ∃ u, (c.forward reference).date? = some u ∧
      (u.isBefore reference = false ∨ ¬∃ v : Instant, v.IsYearAfter u) := by
  obtain ⟨t', u, ht, hu, hmoved, hstays⟩ := (forwarded_forward reference h).date
  obtain rfl : t = t' := Option.some.inj (h.symm.trans ht)
  refine ⟨u, hu, ?_⟩
  by_cases hbehind : c.IsLeftBehind reference t
  · exact .inl ((hmoved hbehind).isBefore_eq_false hnear)
  · rw [hstays hbehind]
    cases hbefore : t.isBefore reference with
    | false => exact .inl rfl
    | true => exact .inr fun hafter => hbehind ⟨hyear, hbefore, hafter⟩

end Candidate

end CasualDate
